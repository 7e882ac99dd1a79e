import Mathlib
import Rebrace.DocComment
import Rebrace.Proofs.Pieces

/-!
# Where a comment ends

Documentation becomes a block comment line by line.  The frame of the comment cannot end it early:
the end of a comment can arise neither between two lines nor between the start of a line and its
text.  But the text is taken over as it stands, so that a comment ends at its own end, and nowhere
before, exactly if no line of the documentation holds the end of a comment once its delimiters are
erased: `docComment_eq_nil_or_isBlockComment_iff`.  Erasing a delimiter may bring the two
characters together.
-/

namespace Rebrace

open Text

/-- The characters that end a block comment. -/
def commentEnd : Text := "*/"

/-- A text that is one documentation comment. -/
structure IsBlockComment (t : Text) : Prop where
  /-- Behind its indentation it starts as documentation does. -/
  start : "/**".toList <+: t.drop (leadingSpaces t)
  /-- It ends as a comment does. -/
  ending : commentEnd <:+ t
  /-- It does not end before. -/
  once : ∀ before after, t = before ++ commentEnd ++ after → after = []

/-! ### Occurrences in a text that is put together -/

/-- White space has nothing of the end of a comment. -/
lemma notMem_commentEnd_of_isWhite {c : Char} (hc : isWhite c = true) : c ∉ commentEnd := by
  have hvisible : ∀ d ∈ commentEnd, isWhite d = false := forall_mem_of_all (by decide)
  intro hmem
  rw [hvisible c hmem] at hc
  cases hc

/-- A blank text does not hold the end of a comment. -/
lemma isBlank_eq_false_of_isInfix {t : Text} (h : commentEnd <:+: t) :
    isBlank t = false :=
  List.all_eq_false.2 ⟨'*', h.subset (by decide), by decide⟩

/-- A part in front that has nothing of the end of a comment may be left out. -/
lemma commentEnd_infix_of_append {u t : Text} (hu : ∀ c ∈ u, c ∉ commentEnd)
    (h : commentEnd <:+: u ++ t) : commentEnd <:+: t := by
  induction u with
  | nil => exact h
  | cons c u ih =>
    rw [List.forall_mem_cons] at hu
    rcases infix_of_infix_append_cons (s := []) hu.1 h with h | h
    · exact absurd (List.infix_nil.1 h) (by decide)
    · exact ih hu.2 h

/-- A part behind that has nothing of the end of a comment may be left out. -/
lemma commentEnd_infix_of_append_left {t u : Text} (hu : ∀ c ∈ u, c ∉ commentEnd)
    (h : commentEnd <:+: t ++ u) : commentEnd <:+: t := by
  induction u generalizing t with
  | nil => simpa using h
  | cons c u ih =>
    rw [List.forall_mem_cons] at hu
    rcases infix_of_infix_append_cons hu.1 h with h | h
    · exact h
    · have hnil : commentEnd <:+: ([] : Text) := ih hu.2 h
      exact hnil.trans List.nil_infix

/-- A text occurs in every join of which it is a part. -/
lemma isInfix_join {separator t : Text} {ts : List Text} (h : t ∈ ts) :
    t <:+: join separator ts := by
  induction ts with
  | nil => cases h
  | cons u us ih =>
    by_cases hus : us = []
    · subst hus
      obtain rfl := List.mem_singleton.1 h
      simp [join]
    · rw [join, List.intercalate_cons_of_ne_nil hus]
      rcases List.mem_cons.1 h with rfl | h
      · exact ((List.prefix_append _ _).trans (List.prefix_append _ _)).isInfix
      · exact (ih h).trans (List.suffix_append _ _).isInfix

/-- No comment ends between two lines. -/
lemma commentEnd_infix_join_iff {lines : List Text} :
    commentEnd <:+: join "\n" lines ↔ ∃ line ∈ lines, commentEnd <:+: line := by
  constructor
  · intro h
    induction lines with
    | nil => exact absurd (List.infix_nil.1 h) (by decide)
    | cons line lines ih =>
      by_cases hlines : lines = []
      · subst hlines
        exact ⟨line, List.mem_cons_self, by simpa [join] using h⟩
      · have hjoin : join "\n" (line :: lines) = line ++ '\n' :: join "\n" lines := by
          simp [join, List.intercalate_cons_of_ne_nil hlines]
        rw [hjoin] at h
        rcases infix_of_infix_append_cons (by decide) h with h | h
        · exact ⟨line, List.mem_cons_self, h⟩
        · obtain ⟨later, hmem, hlater⟩ := ih h
          exact ⟨later, List.mem_cons_of_mem _ hmem, hlater⟩
  · rintro ⟨line, hmem, h⟩
    exact h.trans (isInfix_join hmem)

/-- A comment ends once if what stands in front of its end does not hold another one. -/
lemma eq_nil_of_append_commentEnd_iff {front : Text} :
    (∀ before after, front ++ commentEnd = before ++ commentEnd ++ after → after = []) ↔
      ¬ commentEnd <:+: front := by
  constructor
  · rintro honce ⟨before, after, rfl⟩
    have hnil := honce before (after ++ commentEnd) (by simp)
    exact absurd (List.append_eq_nil_iff.1 hnil).2 (by decide)
  · intro hfront before after heq
    have hends : front ++ ['*'] ++ ['/'] = before ++ ['*'] ++ ['/'] ++ after := by
      simpa [commentEnd] using heq
    rcases List.eq_nil_or_concat' after with hnil | ⟨after, last, rfl⟩
    · exact hnil
    · -- the last character of the text belongs to another occurrence than the given one
      rw [← List.append_assoc] at hends
      have hinit := (List.append_inj' hends rfl).1
      rcases List.eq_nil_or_concat' after with rfl | ⟨after, last', rfl⟩
      · rw [List.append_nil] at hinit
        exact absurd (List.append_inj' hinit rfl).2 (by decide)
      · rw [← List.append_assoc] at hinit
        refine absurd ⟨before, after, ?_⟩ hfront
        rw [(List.append_inj' hinit rfl).1]
        simp [commentEnd]

/-! ### The content of a comment -/

/-- A comment ends in a line of its frame where it ends in the text of the line. -/
lemma commentEnd_infix_docLine_iff {indent : Nat} {line : Text} :
    commentEnd <:+: docLine indent line ↔ commentEnd <:+: line := by
  have hstar : ¬ commentEnd <:+: spaces indent ++ [' ', '*'] := by
    intro h
    have hslash : '/' ∈ spaces indent ++ [' ', '*'] := h.subset (by decide)
    simp [spaces] at hslash
  unfold docLine
  by_cases hblank : isBlank line = true
  · rw [if_pos hblank]
    refine iff_of_false hstar fun h => ?_
    rw [isBlank_eq_false_of_isInfix h] at hblank
    cases hblank
  · rw [if_neg hblank]
    obtain ⟨tail, hline, htail⟩ := exists_eq_trimEnd_append line
    have hsplit : spaces indent ++ " * " ++ trimEnd line =
        (spaces indent ++ [' ', '*']) ++ ' ' :: trimEnd line := by simp
    rw [hsplit]
    constructor
    · intro h
      rcases infix_of_infix_append_cons (by decide) h with h | h
      · exact absurd h hstar
      · rw [hline]
        exact h.trans (List.prefix_append _ _).isInfix
    · intro h
      rw [hline] at h
      have htrim := commentEnd_infix_of_append_left
        (fun c hc => notMem_commentEnd_of_isWhite (htail c hc)) h
      exact htrim.trans ((List.suffix_cons _ _).trans (List.suffix_append _ _)).isInfix

/-- A line that is not blank is indented at least by the common indentation. -/
lemma commonIndent_le {lines : List Text} {line : Text} (hline : line ∈ lines)
    (hblank : isBlank line = false) : commonIndent lines ≤ leadingSpaces line := by
  refine List.min?_getD_le_of_mem ?_
  exact List.mem_map_of_mem (List.mem_filter.2 ⟨hline, by simp [hblank]⟩)

/-- The spaces in front of a text may be dropped without losing the end of a comment. -/
lemma commentEnd_infix_drop {t : Text} {n : Nat} (hn : n ≤ leadingSpaces t)
    (h : commentEnd <:+: t) : commentEnd <:+: t.drop n := by
  rw [← spaces_append_drop hn] at h
  exact commentEnd_infix_of_append
    (fun c hc => notMem_commentEnd_of_isWhite (isWhite_of_mem_spaces hc)) h

/-- A line that is not blank is not dropped at the start of a text. -/
lemma mem_dropWhile_isBlank {lines : List Text} {line : Text} (hline : line ∈ lines)
    (hblank : isBlank line = false) : line ∈ lines.dropWhile isBlank := by
  rw [← List.takeWhile_append_dropWhile (p := isBlank) (l := lines), List.mem_append] at hline
  refine hline.resolve_left fun hmem => ?_
  rw [List.mem_takeWhile_imp hmem] at hblank
  cases hblank

/-- A line that is not blank is dropped at neither end of a text. -/
lemma mem_dropBlankEnd {lines : List Text} {line : Text} (hline : line ∈ lines)
    (hblank : isBlank line = false) : line ∈ dropBlankEnd lines :=
  List.mem_reverse.2 (mem_dropWhile_isBlank (List.mem_reverse.2 hline) hblank)

/-- **The content of a comment holds the end of a comment** exactly if the documentation does,
without its delimiters. -/
lemma commentEnd_infix_docContent_iff {raw : List Text} :
    (∃ line ∈ docContent raw, commentEnd <:+: line) ↔
      ∃ line ∈ raw, commentEnd <:+: eraseDelimiters line := by
  constructor
  · rintro ⟨line, hline, h⟩
    have hmem := (List.dropWhile_suffix _).subset ((dropBlankEnd_isPrefix _).subset hline)
    obtain ⟨erased, herased, rfl⟩ := List.mem_map.1 hmem
    obtain ⟨given, hgiven, rfl⟩ := List.mem_map.1 herased
    exact ⟨given, hgiven, h.trans (List.drop_suffix _ _).isInfix⟩
  · rintro ⟨given, hgiven, h⟩
    have herased : eraseDelimiters given ∈ raw.map eraseDelimiters := List.mem_map_of_mem hgiven
    have hindent := commonIndent_le herased (isBlank_eq_false_of_isInfix h)
    have hdrop := commentEnd_infix_drop hindent h
    have hblank := isBlank_eq_false_of_isInfix hdrop
    refine ⟨_, mem_dropBlankEnd (mem_dropWhile_isBlank ?_ hblank) hblank, hdrop⟩
    exact List.mem_map_of_mem herased

/-- A comment is the frame around its content. -/
lemma docComment_of_ne_nil (indent : Nat) {raw : List Text} (h : docContent raw ≠ []) :
    docComment indent raw =
      (spaces indent ++ "/**") :: (docContent raw).map (docLine indent)
        ++ [spaces indent ++ " */"] := by
  unfold docComment
  split
  · contradiction
  · rfl

/-- What stands in front of the end of a comment. -/
def commentFront (indent : Nat) (content : List Text) : Text :=
  join "\n" ((spaces indent ++ "/**") :: content.map (docLine indent))
    ++ '\n' :: (spaces indent ++ " ")

/-- The lines of a comment are joined to its front and its end. -/
lemma join_docComment (indent : Nat) {raw : List Text} (h : docContent raw ≠ []) :
    join "\n" (docComment indent raw) =
      commentFront indent (docContent raw) ++ commentEnd := by
  rw [docComment_of_ne_nil indent h, join_append _ (by simp) (by simp)]
  simp [commentFront, commentEnd, join]

/-- A comment ends before its end where it ends in a line of its content. -/
lemma commentEnd_infix_commentFront_iff (indent : Nat) {content : List Text} :
    commentEnd <:+: commentFront indent content ↔ ∃ line ∈ content, commentEnd <:+: line := by
  have hspaces : ¬ commentEnd <:+: spaces indent ++ [' '] := by
    intro h
    have hstar : '*' ∈ spaces indent ++ [' '] := h.subset (by decide)
    simp [spaces] at hstar
  have hstart : ¬ commentEnd <:+: spaces indent ++ "/**" := by
    intro h
    have hslash : commentEnd <:+: "/**".toList := commentEnd_infix_of_append
      (fun c hc => notMem_commentEnd_of_isWhite (isWhite_of_mem_spaces hc)) h
    exact absurd hslash (by decide)
  have hfront : commentEnd <:+: commentFront indent content ↔
      commentEnd <:+: join "\n" ((spaces indent ++ "/**") :: content.map (docLine indent)) := by
    constructor
    · intro h
      rcases infix_of_infix_append_cons (by decide) h with h | h
      · exact h
      · exact absurd h hspaces
    · exact fun h => h.trans (List.prefix_append _ _).isInfix
  rw [hfront, commentEnd_infix_join_iff]
  simp only [List.mem_cons, exists_eq_or_imp, hstart, false_or, List.mem_map,
    exists_exists_and_eq_and, commentEnd_infix_docLine_iff]

/-- **A comment ends at its own end, and nowhere before, exactly if its documentation does not hold
the end of a comment** once the delimiters are erased. -/
theorem docComment_eq_nil_or_isBlockComment_iff (indent : Nat) (raw : List Text) :
    (docComment indent raw = [] ∨ IsBlockComment (join "\n" (docComment indent raw))) ↔
      ∀ line ∈ raw, ¬ commentEnd <:+: eraseDelimiters line := by
  have hraw : (∀ line ∈ raw, ¬ commentEnd <:+: eraseDelimiters line) ↔
      ¬ ∃ line ∈ docContent raw, commentEnd <:+: line := by
    rw [commentEnd_infix_docContent_iff]
    simp only [not_exists, not_and]
  rw [hraw]
  by_cases hcontent : docContent raw = []
  · have hnil : docComment indent raw = [] := by
      unfold docComment
      rw [hcontent]
    exact iff_of_true (Or.inl hnil) (by simp [hcontent])
  · have htext := join_docComment indent hcontent
    have hne : docComment indent raw ≠ [] := by
      intro hnil
      rw [hnil] at htext
      simp [join, commentEnd] at htext
    rw [or_iff_right hne, ← commentEnd_infix_commentFront_iff indent,
      ← eq_nil_of_append_commentEnd_iff, htext]
    constructor
    · exact fun h => h.once
    · intro honce
      refine ⟨?_, List.suffix_append _ _, honce⟩
      obtain ⟨rest, hrest⟩ : ∃ rest, commentFront indent (docContent raw) ++ commentEnd =
          spaces indent ++ '/' :: ("**" ++ rest) := by
        refine ⟨'\n' :: (join "\n" ((docContent raw).map (docLine indent)) ++ '\n' ::
          (spaces indent ++ " ")) ++ commentEnd, ?_⟩
        simp [commentFront, join, List.intercalate_cons_of_ne_nil, hcontent]
      rw [hrest, leadingSpaces_spaces_append_cons indent (by decide)]
      exact ⟨rest, by simp [spaces]⟩

/-- A slash behind a star, in one line of documentation: the comment ends there, and the rest of the
line is no longer part of it. -/
theorem not_isBlockComment_of_glob :
    docComment 0 ["\x22\x22\x22Reads src/*/lib.\x22\x22\x22"] =
        ["/**", " * Reads src/*/lib.", " */"] ∧
      ¬ IsBlockComment (join "\n" (docComment 0 ["\x22\x22\x22Reads src/*/lib.\x22\x22\x22"])) := by
  have hcomment : docComment 0 ["\x22\x22\x22Reads src/*/lib.\x22\x22\x22"] =
      ["/**", " * Reads src/*/lib.", " */"] := by decide
  refine ⟨hcomment, fun h => ?_⟩
  rw [hcomment] at h
  exact absurd (h.once "/**\n * Reads src/" "lib.\n */" (by decide)) (by decide)

end Rebrace
