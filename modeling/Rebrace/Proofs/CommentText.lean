import Mathlib
import Rebrace.Proofs.Closings
import Rebrace.Proofs.CommentEnd

/-!
# The text of a comment

A comment takes over the documentation of a block from its first line that is not blank to its last
one.  All lines lose the same number of characters in front, the smallest indentation of a line that
is not blank; a line that is not blank loses only spaces.  So every visible character is kept, in
its row, and every line keeps its place relative to the others:
`docComment_complete_and_dedented`.
-/

namespace Rebrace

open Text

/-- The lines of a documentation text without its delimiters: in each line, first every triple
double quote and then every triple single quote is erased. -/
def docText (raw : List Text) : List Text :=
  raw.map fun line => erase "\x27\x27\x27" (erase "\x22\x22\x22" line)

/-- The smallest number of spaces in front of a line that is not blank. -/
structure IsCommonIndent (lines : List Text) (n : Nat) : Prop where
  /-- No line that is not blank has fewer spaces. -/
  le : ∀ line ∈ lines, isBlank line = false → n ≤ leadingSpaces line
  /-- A line that is not blank has as many. -/
  attained : ∃ line ∈ lines, isBlank line = false ∧ leadingSpaces line = n

/-- The first and the last row that are not blank. -/
structure ContentRows (lines : List Text) (first last : Nat) : Prop where
  /-- The first one is a row that is not blank. -/
  first_visible : ∃ line, lines[first]? = some line ∧ isBlank line = false
  /-- The last one is a row that is not blank. -/
  last_visible : ∃ line, lines[last]? = some line ∧ isBlank line = false
  /-- All other rows that are not blank lie between them. -/
  between : ∀ (k : Nat) (line : Text), lines[k]? = some line → isBlank line = false →
    first ≤ k ∧ k ≤ last

/-! ### Rows with content -/

/-- Only blank lines are dropped at the end of a text. -/
lemma exists_eq_dropBlankEnd_append (lines : List Text) :
    ∃ blank, lines = dropBlankEnd lines ++ blank ∧ ∀ line ∈ blank, isBlank line = true := by
  refine ⟨(lines.reverse.takeWhile isBlank).reverse, ?_, fun line hline => ?_⟩
  · rw [dropBlankEnd, ← List.reverse_append, List.takeWhile_append_dropWhile, List.reverse_reverse]
  · exact List.mem_takeWhile_imp (List.mem_reverse.1 hline)

/-- Between blank lines, the content begins with the first row that is not blank and ends with the
last one. -/
lemma contentRows_append {front content back : List Text}
    (hfront : ∀ line ∈ front, isBlank line = true) (hback : ∀ line ∈ back, isBlank line = true)
    (hfirst : ∃ line, content.head? = some line ∧ isBlank line = false)
    (hlast : ∃ line, content.getLast? = some line ∧ isBlank line = false) :
    ContentRows (front ++ (content ++ back)) front.length
      (front.length + (content.length - 1)) := by
  obtain ⟨top, htop, htopVisible⟩ := hfirst
  obtain ⟨bottom, hbottom, hbottomVisible⟩ := hlast
  have hpos : 0 < content.length := by
    rw [List.length_pos_iff]
    rintro rfl
    cases htop
  refine ⟨⟨top, ?_, htopVisible⟩, ⟨bottom, ?_, hbottomVisible⟩, fun k line hk hline => ?_⟩
  · rw [List.getElem?_append_right le_rfl, Nat.sub_self, List.getElem?_append_left hpos,
      ← List.head?_eq_getElem?, htop]
  · rw [List.getElem?_append_right (Nat.le_add_right _ _), Nat.add_sub_cancel_left,
      List.getElem?_append_left (by omega), ← List.getLast?_eq_getElem?, hbottom]
  · -- a row in front of the content or behind it is blank
    have hout : line ∉ front ∧ line ∉ back :=
      ⟨fun h => by simp [hfront line h] at hline, fun h => by simp [hback line h] at hline⟩
    constructor
    · by_contra hlt
      rw [List.getElem?_append_left (by omega)] at hk
      exact hout.1 (List.mem_of_getElem? hk)
    · by_contra hgt
      rw [List.getElem?_append_right (by omega), List.getElem?_append_right (by omega)] at hk
      exact hout.2 (List.mem_of_getElem? hk)

/-- A text that is not blank has a first and a last row with content; without its blank ends it is
what lies between them. -/
lemma exists_contentRows {lines : List Text} (h : ∃ line ∈ lines, isBlank line = false) :
    ∃ first last, ContentRows lines first last ∧
      dropBlankEnd (lines.dropWhile isBlank) = (lines.take (last + 1)).drop first := by
  obtain ⟨back, hback, hbackBlank⟩ := exists_eq_dropBlankEnd_append (lines.dropWhile isBlank)
  have hlines := List.takeWhile_append_dropWhile (p := isBlank) (l := lines)
  have hfrontBlank : ∀ line ∈ lines.takeWhile isBlank, isBlank line = true :=
    fun line hline => List.mem_takeWhile_imp hline
  have hne : dropBlankEnd (lines.dropWhile isBlank) ≠ [] := by
    obtain ⟨line, hline, hvisible⟩ := h
    exact List.ne_nil_of_mem (mem_dropBlankEnd (mem_dropWhile_isBlank hline hvisible) hvisible)
  have hlast : ∃ line, (dropBlankEnd (lines.dropWhile isBlank)).getLast? = some line ∧
      isBlank line = false :=
    ⟨_, List.getLast?_eq_some_getLast hne,
      isBlank_of_getLast?_dropBlankEnd (List.getLast?_eq_some_getLast hne)⟩
  have hfirst : ∃ line, (dropBlankEnd (lines.dropWhile isBlank)).head? = some line ∧
      isBlank line = false := by
    obtain ⟨top, rest, htop⟩ := List.exists_cons_of_ne_nil hne
    have hnot := List.head?_dropWhile_not isBlank lines
    rw [hback, htop] at hnot
    exact ⟨top, by rw [htop, List.head?_cons], by simpa using hnot⟩
  generalize dropBlankEnd (lines.dropWhile isBlank) = content at hback hne hlast hfirst
  generalize lines.takeWhile isBlank = front at hlines hfrontBlank
  rw [← hlines, hback]
  refine ⟨_, _, contentRows_append hfrontBlank hbackBlank hfirst hlast, ?_⟩
  have hlength : front.length + (content.length - 1) + 1 = (front ++ content).length := by
    have := List.length_pos_iff.2 hne
    rw [List.length_append]
    omega
  rw [hlength, ← List.append_assoc, List.take_left, List.drop_left]

/-- The rows with content are found on lines that are blank where the given ones are. -/
lemma ContentRows.of_map {lines : List Text} {f : Text → Text} {first last : Nat}
    (hf : ∀ line ∈ lines, isBlank (f line) = isBlank line)
    (h : ContentRows (lines.map f) first last) : ContentRows lines first last := by
  have hrow : ∀ k : Nat, (∃ line, (lines.map f)[k]? = some line ∧ isBlank line = false) →
      ∃ line, lines[k]? = some line ∧ isBlank line = false := by
    rintro k ⟨_, hk, hvisible⟩
    rw [List.getElem?_map, Option.map_eq_some_iff] at hk
    obtain ⟨line, hk, rfl⟩ := hk
    rw [hf line (List.mem_of_getElem? hk)] at hvisible
    exact ⟨line, hk, hvisible⟩
  refine ⟨hrow first h.first_visible, hrow last h.last_visible, fun k line hk hline => ?_⟩
  refine h.between k (f line) (by rw [List.getElem?_map, hk]; rfl) ?_
  rwa [hf line (List.mem_of_getElem? hk)]

/-- The number of rows from the first to the last one with content. -/
lemma ContentRows.length_between {lines : List Text} {first last : Nat}
    (h : ContentRows lines first last) :
    ((lines.take (last + 1)).drop first).length = last - first + 1 := by
  obtain ⟨top, htop, hvisible⟩ := h.first_visible
  obtain ⟨bottom, hbottom, -⟩ := h.last_visible
  have horder := (h.between first top htop hvisible).2
  have hlength := (List.getElem?_eq_some_iff.1 hbottom).1
  rw [List.length_drop, List.length_take]
  omega

/-! ### Common indentation -/

/-- The common indentation of lines that are not all blank is the indentation of one of them. -/
lemma isCommonIndent_commonIndent {lines : List Text}
    (h : ∃ line ∈ lines, isBlank line = false) : IsCommonIndent lines (commonIndent lines) := by
  refine ⟨fun line hline hvisible => commonIndent_le hline hvisible, ?_⟩
  obtain ⟨line, hline, hvisible⟩ := h
  have hne : (lines.filter fun line => !isBlank line).map leadingSpaces ≠ [] :=
    List.ne_nil_of_mem
      (List.mem_map_of_mem (List.mem_filter.2 ⟨hline, by rw [hvisible]; rfl⟩))
  obtain ⟨n, hn⟩ := Option.ne_none_iff_exists'.1 (mt List.min?_eq_none_iff.1 hne)
  obtain ⟨least, hleast, hindent⟩ := List.mem_map.1 (List.min?_mem hn)
  obtain ⟨hmem, hnot⟩ := List.mem_filter.1 hleast
  refine ⟨least, hmem, by simpa using hnot, ?_⟩
  rw [hindent, commonIndent, hn, Option.getD_some]

/-- What stands behind some of the spaces in front of a text has the visible characters of the
text. -/
lemma visible_drop {t : Text} {n : Nat} (hn : n ≤ leadingSpaces t) :
    visible (t.drop n) = visible t := by
  have hspaces : visible (spaces n) = [] :=
    visible_eq_nil_of_forall fun c hc => isWhite_of_mem_spaces hc
  have hparts := congrArg visible (spaces_append_drop hn)
  rwa [visible_append, hspaces, List.nil_append] at hparts

/-- Lines lose no visible character with their common indentation. -/
lemma IsCommonIndent.visible_drop {lines : List Text} {n : Nat} (h : IsCommonIndent lines n)
    {line : Text} (hline : line ∈ lines) : visible (line.drop n) = visible line := by
  by_cases hblank : isBlank line = true
  · have hdrop : visible (line.drop n) = [] := visible_eq_nil_of_forall fun c hc =>
      List.all_eq_true.1 hblank c (List.mem_of_mem_drop hc)
    rw [hdrop, isBlank_eq_true_iff_visible.1 hblank]
  · exact Rebrace.visible_drop (h.le line hline (by simpa using hblank))

/-! ### Rows of a comment -/

/-- Trimming a text that is not blank at its end keeps the spaces in front of it. -/
lemma leadingSpaces_trimEnd {t : Text} (h : isBlank t = false) :
    leadingSpaces (trimEnd t) = leadingSpaces t := by
  obtain ⟨tail, ht, -⟩ := exists_eq_trimEnd_append t
  obtain ⟨c, hc, hvisible⟩ := List.all_eq_false.1 h
  have hmem : c ∈ visible (trimEnd t) := by
    rw [visible_trimEnd]
    exact List.mem_filter.2 ⟨hc, by simpa using hvisible⟩
  -- the spaces in front end before a visible character that is kept
  have hshort : ¬ ((trimEnd t).takeWhile (· == ' ')).length = (trimEnd t).length := by
    intro hall
    have heq := (List.takeWhile_prefix (p := (· == ' ')) (l := trimEnd t)).eq_of_length hall
    have hspace := List.takeWhile_eq_self_iff.1 heq c (List.mem_of_mem_filter hmem)
    rw [beq_iff_eq.1 hspace] at hvisible
    exact hvisible (by decide)
  conv_rhs => rw [ht]
  rw [leadingSpaces, leadingSpaces, List.takeWhile_append, if_neg hshort]

/-- The text of a line of a comment that is not blank: it has the visible characters of the given
line, and the indentation that the given line has beyond the one that is dropped. -/
lemma docLine_drop (indent : Nat) {line : Text} {n : Nat} (hn : n ≤ leadingSpaces line)
    (hline : isBlank line = false) :
    ∃ text, docLine indent (line.drop n) = spaces indent ++ " * " ++ text ∧
      visible text = visible line ∧ leadingSpaces text + n = leadingSpaces line := by
  have hvisible := Rebrace.visible_drop hn
  have hblank : isBlank (line.drop n) = false := (isBlank_eq_of_visible hvisible).trans hline
  refine ⟨trimEnd (line.drop n), ?_, ?_, ?_⟩
  · rw [docLine, if_neg (by simp [hblank])]
  · rw [visible_trimEnd, hvisible]
  · rw [leadingSpaces_trimEnd hblank, leadingSpaces_drop_add hn]

/-- A text with visible characters and no space in front starts with another character. -/
lemma exists_eq_cons_of_leadingSpaces_eq_zero {t : Text} (hvisible : visible t ≠ [])
    (h : leadingSpaces t = 0) : ∃ c rest, t = c :: rest ∧ c ≠ ' ' := by
  cases t with
  | nil => exact absurd rfl hvisible
  | cons c rest =>
    refine ⟨c, rest, rfl, ?_⟩
    rintro rfl
    simp [leadingSpaces] at h

/-! ### Comments -/

/-- The content of a documentation text that is not blank. -/
lemma exists_docContent_eq {raw : List Text} (h : ∃ line ∈ docText raw, isBlank line = false) :
    ∃ n first last, IsCommonIndent (docText raw) n ∧ ContentRows (docText raw) first last ∧
      docContent raw = (((docText raw).take (last + 1)).drop first).map (·.drop n) := by
  have hindent := isCommonIndent_commonIndent h
  have hdrop : ∀ line ∈ docText raw,
      isBlank (line.drop (commonIndent (docText raw))) = isBlank line :=
    fun line hline => isBlank_eq_of_visible (hindent.visible_drop hline)
  have hvisible : ∃ line ∈ (docText raw).map (·.drop (commonIndent (docText raw))),
      isBlank line = false := by
    obtain ⟨line, hline, hvisible⟩ := h
    exact ⟨_, List.mem_map_of_mem hline, (hdrop line hline).trans hvisible⟩
  obtain ⟨first, last, hrows, hcontent⟩ := exists_contentRows hvisible
  refine ⟨commonIndent (docText raw), first, last, hindent, hrows.of_map hdrop, ?_⟩
  rw [List.map_drop, List.map_take]
  exact hcontent

/-- Nothing is left of a documentation text whose lines are all blank. -/
lemma docContent_eq_nil {raw : List Text} (h : ∀ line ∈ docText raw, isBlank line = true) :
    docContent raw = [] := by
  have hdropped : ∀ line ∈ (docText raw).map (·.drop (commonIndent (docText raw))),
      isBlank line = true := by
    intro line hline
    obtain ⟨given, hgiven, rfl⟩ := List.mem_map.1 hline
    have hblank := h given hgiven
    exact List.all_eq_true.2 fun c hc => List.all_eq_true.1 hblank c (List.mem_of_mem_drop hc)
  have hnil := List.dropWhile_eq_nil_iff.2 hdropped
  change dropBlankEnd (((docText raw).map (·.drop (commonIndent (docText raw)))).dropWhile
    isBlank) = []
  rw [hnil]
  rfl

/-- The row of a comment for a row of its documentation between the first and the last one that are
not blank. -/
lemma getElem?_docComment {indent : Nat} {raw lines : List Text} {n first last : Nat}
    (hcontent : docContent raw = ((lines.take (last + 1)).drop first).map (·.drop n))
    {k : Nat} {line : Text} (hk : lines[k]? = some line) (hfirst : first ≤ k) (hlast : k ≤ last) :
    (docComment indent raw)[k - first + 1]? = some (docLine indent (line.drop n)) := by
  have hrow : (docContent raw)[k - first]? = some (line.drop n) := by
    rw [hcontent, List.getElem?_map, List.getElem?_drop, List.getElem?_take,
      Nat.add_sub_cancel' hfirst, if_pos (by omega), hk, Option.map_some]
  have hlength := (List.getElem?_eq_some_iff.1 hrow).1
  rw [docComment_of_ne_nil indent (List.ne_nil_of_mem (List.mem_of_getElem? hrow)),
    List.cons_append, List.getElem?_cons_succ, List.getElem?_append_left (by simpa using hlength),
    List.getElem?_map, hrow, Option.map_some]

/-- **The text of a comment.** A comment is empty exactly if its documentation is blank.  Otherwise
it has a row for each row from the first to the last one that are not blank, in a frame; all lines
lose as many characters in front as the smallest indentation of a line that is not blank.  Such a
line loses spaces only, and a line with the smallest indentation begins right behind the star.  So a
line that is not blank keeps its visible characters and its place relative to the others. -/
theorem docComment_complete_and_dedented (indent : Nat) (raw : List Text) :
    (docComment indent raw = [] ↔ ∀ line ∈ docText raw, isBlank line = true) ∧
      ((∃ line ∈ docText raw, isBlank line = false) → ∃ n first last,
        IsCommonIndent (docText raw) n ∧ ContentRows (docText raw) first last ∧
        docComment indent raw =
          (spaces indent ++ "/**") ::
            (((docText raw).take (last + 1)).drop first).map (fun line =>
              if isBlank (line.drop n) then spaces indent ++ " *"
              else spaces indent ++ " * " ++ trimEnd (line.drop n))
            ++ [spaces indent ++ " */"] ∧
        (docComment indent raw).length = last - first + 3 ∧
        (∀ line ∈ docText raw, isBlank line = false → line = spaces n ++ line.drop n) ∧
        (∃ k c rest, first ≤ k ∧ k ≤ last ∧ c ≠ ' ' ∧
          (docComment indent raw)[k - first + 1]? = some (spaces indent ++ " * " ++ c :: rest)) ∧
        ∀ (k : Nat) (line : Text), (docText raw)[k]? = some line → isBlank line = false →
          ∃ text, (docComment indent raw)[k - first + 1]? = some (spaces indent ++ " * " ++ text) ∧
            visible text = visible line ∧ leadingSpaces text + n = leadingSpaces line) := by
  by_cases hvisible : ∃ line ∈ docText raw, isBlank line = false
  · obtain ⟨n, first, last, hindent, hrows, hcontent⟩ := exists_docContent_eq hvisible
    have htext : ∀ (k : Nat) (line : Text), (docText raw)[k]? = some line →
        isBlank line = false →
        ∃ text, (docComment indent raw)[k - first + 1]? = some (spaces indent ++ " * " ++ text) ∧
          visible text = visible line ∧ leadingSpaces text + n = leadingSpaces line := by
      intro k line hk hline
      obtain ⟨hfirst, hlast⟩ := hrows.between k line hk hline
      obtain ⟨text, hrow, hkept⟩ :=
        docLine_drop indent (hindent.le line (List.mem_of_getElem? hk) hline) hline
      exact ⟨text, hrow ▸ getElem?_docComment hcontent hk hfirst hlast, hkept⟩
    have hlength : (docContent raw).length = last - first + 1 := by
      rw [hcontent, List.length_map, hrows.length_between]
    have hne : docContent raw ≠ [] := List.ne_nil_of_length_pos (by omega)
    have hcomment := docComment_of_ne_nil indent hne
    refine ⟨?_, fun _ => ⟨n, first, last, hindent, hrows, ?_, ?_, ?_, ?_, htext⟩⟩
    · refine iff_of_false (by simp [hcomment]) fun hblank => ?_
      obtain ⟨line, hline, hshown⟩ := hvisible
      simp [hblank line hline] at hshown
    · rw [hcomment, hcontent, List.map_map]
      rfl
    · rw [hcomment]
      simp [hlength]
    · exact fun line hline hblank => (spaces_append_drop (hindent.le line hline hblank)).symm
    · obtain ⟨line, hline, hblank, hleast⟩ := hindent.attained
      obtain ⟨k, hk⟩ := List.getElem?_of_mem hline
      obtain ⟨hfirst, hlast⟩ := hrows.between k line hk hblank
      obtain ⟨text, hrow, hkept, hspaces⟩ := htext k line hk hblank
      obtain ⟨c, rest, rfl, hc⟩ := exists_eq_cons_of_leadingSpaces_eq_zero
        (t := text) (by rw [hkept, ne_eq, ← isBlank_eq_true_iff_visible, hblank]; simp) (by omega)
      exact ⟨k, c, rest, hfirst, hlast, hc, hrow⟩
  · have hblank : ∀ line ∈ docText raw, isBlank line = true := by
      simpa using hvisible
    have hnil : docComment indent raw = [] := by
      unfold docComment
      rw [docContent_eq_nil hblank]
    exact ⟨iff_of_true hnil hblank, fun h => absurd h hvisible⟩

/-- A text whose first line stands deeper than the others, with a blank row in it and a line that
begins with a tab behind the common indentation. -/
theorem docComment_complete_and_dedented_of_tab :
    docComment 2 ["", "    \x22\x22\x22Runs.", " ", "  \ttwice  ", "  \x22\x22\x22"] =
        ["  /**", "   *   Runs.", "   *", "   * \ttwice", "   */"] ∧
      ∃ n first last,
        IsCommonIndent (docText ["", "    \x22\x22\x22Runs.", " ", "  \ttwice  ",
          "  \x22\x22\x22"]) n ∧
        ContentRows (docText ["", "    \x22\x22\x22Runs.", " ", "  \ttwice  ",
          "  \x22\x22\x22"]) first last ∧ last - first + 3 = 5 := by
  have hcomment : docComment 2 ["", "    \x22\x22\x22Runs.", " ", "  \ttwice  ",
      "  \x22\x22\x22"] = ["  /**", "   *   Runs.", "   *", "   * \ttwice", "   */"] := by decide
  obtain ⟨n, first, last, hindent, hrows, -, hlength, -⟩ :=
    (docComment_complete_and_dedented 2 ["", "    \x22\x22\x22Runs.", " ", "  \ttwice  ",
      "  \x22\x22\x22"]).2 (by decide)
  rw [hcomment] at hlength
  exact ⟨hcomment, n, first, last, hindent, hrows, hlength.symm⟩

end Rebrace
