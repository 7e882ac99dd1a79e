import Mathlib.Data.List.Basic
import Rebrace.Proofs.Closings
import Rebrace.Proofs.Headers
import Rebrace.Proofs.Lexical
import Rebrace.Proofs.MarkedLines

/-!
# Every header is closed at its own indentation

`Closed lines` says that the block of each marked line is followed by a line that closes it.  The
two kinds of splices keep it: `closed_open` for a header that is rendered in its place, and
`closed_join` for a clause that takes the closing brace above it into its line.  From these steps
follows what a whole pass keeps, and from the passes the main statement, `closing_of_marked`.
-/

namespace Rebrace

open Text MarkedLine

/-! ### Closed lines -/

/-- Every marked line is closed: it is not blank, and its block is followed by a line that closes
it. -/
def Closed : List MarkedLine → Prop
  | [] => True
  | line :: below =>
    (line.isHeader = true → isBlank line.text = false ∧
      ClosedBelow (leadingSpaces line.text) (texts below)) ∧ Closed below

/-- Lines without marks in front do not matter. -/
lemma closed_map_plain_append (lines : List Text) (below : List MarkedLine) :
    Closed (lines.map plain ++ below) ↔ Closed below := by
  induction lines with
  | nil => rfl
  | cons line lines ih => simpa [Closed, plain] using ih

/-- Lines in front can be taken away. -/
lemma Closed.of_append {above below : List MarkedLine} (h : Closed (above ++ below)) :
    Closed below := by
  induction above with
  | nil => exact h
  | cons line above ih => exact ih h.2

/-- The lines below can be exchanged if no block that is closed there is left open. -/
lemma Closed.exchange {above old new : List MarkedLine} (h : Closed (above ++ old))
    (htransfer : ∀ indent lines, ClosedBelow indent (lines ++ texts old) →
      ClosedBelow indent (lines ++ texts new))
    (hnew : Closed new) : Closed (above ++ new) := by
  induction above with
  | nil => exact hnew
  | cons line above ih =>
    rw [List.cons_append] at h ⊢
    refine ⟨fun hline => ?_, ih h.2⟩
    obtain ⟨hblank, hclosed⟩ := h.1 hline
    rw [texts_append] at hclosed ⊢
    exact ⟨hblank, htransfer _ _ hclosed⟩

/-- A closing brace at the end of a block leaves the marked lines inside of it closed. -/
lemma Closed.insert {indent : Nat} {kept rest : List MarkedLine} (h : Closed (kept ++ rest))
    (hkept : ∀ line ∈ kept, isInside indent line.text = true)
    (hrest : blockBody indent (texts rest) = []) :
    Closed (kept ++ plain (closingLine indent) :: rest) := by
  induction kept with
  | nil => exact ⟨fun hline => absurd hline (by simp [plain]), h⟩
  | cons line kept ih =>
    rw [List.cons_append] at h ⊢
    refine ⟨fun hline => ?_, ih h.2 fun other hother => hkept other (List.mem_cons_of_mem _ hother)⟩
    obtain ⟨hblank, hclosed⟩ := h.1 hline
    have hinside := hkept line List.mem_cons_self
    have hnested : indent < leadingSpaces line.text := by simpa [isInside, hblank] using hinside
    rw [texts_append] at hclosed ⊢
    exact ⟨hblank, (hclosed.of_append_of_isOver hnested hrest).append _⟩

/-! ### One step of a pass -/

section Step

variable {indent : Nat}

/-- What remains of the block of a header, the brace after it, and the lines below are closed if the
lines below the header are. -/
lemma Closed.closeBlock {below : List MarkedLine} (h : Closed below) (indent skip : Nat) :
    Closed ((below.take (blockBody indent (texts below)).length).drop skip ++
      plain (closingLine indent) :: below.drop (blockBody indent (texts below)).length) := by
  refine Closed.insert ?_ ?_ ?_
  · rw [← List.take_append_drop (blockBody indent (texts below)).length below] at h
    rw [← List.take_append_drop skip (below.take _), List.append_assoc] at h
    exact h.of_append
  · intro line hline
    have hmem : line.text ∈ texts (below.take (blockBody indent (texts below)).length) :=
      List.mem_map_of_mem (List.mem_of_mem_drop hline)
    rw [texts_take_blockBody] at hmem
    exact isInside_of_mem_blockBody hmem
  · rw [texts_drop_blockBody]
    exact blockBody_blockRest indent _

/-- **A header is rendered.**  A line that is no closing line is replaced by a header with the same
indentation, below lines that are no less indented; some of the first lines of its block are left
out, and the block is closed.  Marked lines stay closed, and the header is closed too. -/
lemma closed_open {above below : List MarkedLine} {line : MarkedLine} {rendered : Text}
    (h : Closed (above ++ line :: below)) (hblank : isBlank line.text = false)
    (hindent : leadingSpaces line.text = indent) (hnot : ∀ outer, ¬Closes outer line.text)
    {docs : List Text} (hdocs : ∀ doc ∈ docs, indent ≤ leadingSpaces doc)
    (hrenderedBlank : isBlank rendered = false) (hrendered : leadingSpaces rendered = indent)
    (skip : Nat) :
    Closed (above ++ (docs.map plain ++ header rendered ::
      ((below.take (blockBody indent (texts below)).length).drop skip ++
        plain (closingLine indent) :: below.drop (blockBody indent (texts below)).length))) := by
  have hbelow : Closed below := h.of_append.2
  have htexts : texts ((below.take (blockBody indent (texts below)).length).drop skip ++
      plain (closingLine indent) :: below.drop (blockBody indent (texts below)).length) =
      (blockBody indent (texts below)).drop skip ++
        closingLine indent :: blockRest indent (texts below) := by
    rw [texts_append, texts_drop, texts_take_blockBody, texts_cons, texts_drop_blockBody,
      text_plain]
  refine h.exchange ?_ ?_
  · intro outer lines hclosed
    rw [texts_cons] at hclosed
    rw [texts_append, texts_map_plain, texts_cons, text_header, htexts]
    rcases hclosed.cases_of_append_cons hblank with habove | ⟨hinside, hcloses | ⟨hnested, hrest⟩⟩
    · exact habove.append _
    · exact absurd hcloses.1 (hnot outer)
    · rw [hindent] at hnested
      have hfront : ∀ other ∈ lines ++ docs ++ [rendered], isInside outer other = true := by
        intro other hother
        simp only [List.mem_append, List.mem_singleton] at hother
        rcases hother with (hother | hother) | rfl
        · exact hinside other hother
        · have hdeep := hdocs other hother
          simp only [isInside, Bool.or_eq_true, decide_eq_true_eq]
          exact Or.inr (by omega)
        · simp [isInside, hrendered, hnested]
      have hopen := hrest.reopen hnested hfront skip
      simpa using hopen
  · rw [closed_map_plain_append]
    refine ⟨fun _ => ⟨hrenderedBlank, ?_⟩, hbelow.closeBlock indent skip⟩
    rw [text_header, hrendered, htexts]
    exact closedBelow_drop_blockBody _ skip _

/-- **A clause is joined.**  A closing brace and the line below it are replaced by a header that
begins with this brace, and the block of the header is closed.  The blocks that the brace has closed
are now closed by the header. -/
lemma closed_join {above below : List MarkedLine} {brace line : MarkedLine} {rendered : Text}
    (h : Closed (above ++ brace :: line :: below)) (hbrace : brace.text = closingLine indent)
    (hblank : isBlank line.text = false) (hnot : ∀ outer, ¬Closes outer line.text)
    (hrendered : Closes indent rendered) :
    Closed (above ++ header rendered ::
      (below.take (blockBody indent (texts below)).length ++
        plain (closingLine indent) :: below.drop (blockBody indent (texts below)).length)) := by
  have hbelow : Closed below := h.of_append.2.2
  have htexts : texts (below.take (blockBody indent (texts below)).length ++
      plain (closingLine indent) :: below.drop (blockBody indent (texts below)).length) =
      (blockBody indent (texts below)).drop 0 ++
        closingLine indent :: blockRest indent (texts below) := by
    rw [texts_append, texts_take_blockBody, texts_cons, texts_drop_blockBody, text_plain,
      List.drop_zero]
  refine h.exchange ?_ ?_
  · intro outer lines hclosed
    rw [texts_cons, texts_cons, hbrace] at hclosed
    rw [texts_cons, text_header, htexts]
    rcases hclosed.cases_of_append_cons (isBlank_closingLine indent) with
      habove | ⟨hinside, ⟨hcloses, hlast⟩ | ⟨hnested, hrest⟩⟩
    · exact habove.append _
    · have houter : indent = outer := by simpa using hcloses.leadingSpaces_eq
      subst houter
      exact closedBelow_iff.2 ⟨lines, rendered, _, rfl, hinside, hlast, hrendered⟩
    · rw [leadingSpaces_closingLine] at hnested
      have hline : ClosedBelow outer ([] ++ line.text :: texts below) := hrest
      rcases hline.cases_of_append_cons hblank with
        hnil | ⟨-, hcloses | ⟨-, hbelow⟩⟩
      · obtain ⟨body, closing, rest, hsplit, -⟩ := closedBelow_iff.1 hnil
        simp at hsplit
      · exact absurd hcloses.1 (hnot outer)
      · have hfront : ∀ other ∈ lines ++ [rendered], isInside outer other = true := by
          intro other hother
          rcases List.mem_append.1 hother with hother | hother
          · exact hinside other hother
          · obtain rfl := List.mem_singleton.1 hother
            simp [isInside, hrendered.leadingSpaces_eq, hnested]
        have hopen := hbelow.reopen hnested hfront 0
        simpa using hopen
  · refine ⟨fun _ => ⟨hrendered.isBlank_eq_false, ?_⟩, ?_⟩
    · rw [text_header, hrendered.leadingSpaces_eq, htexts]
      exact closedBelow_drop_blockBody _ 0 _
    · have hblock := hbelow.closeBlock indent 0
      rwa [List.drop_zero] at hblock

end Step

/-! ### Headers before and after a pass -/

/-- A line whose first character behind the indentation is no brace closes no block. -/
lemma not_closes_of_drop {line rest : Text} {c : Char}
    (h : line.drop (leadingSpaces line) = c :: rest) (hc : c ≠ '\x7d') (outer : Nat) :
    ¬Closes outer line := by
  intro hcloses
  have houter := hcloses.leadingSpaces_eq
  rw [houter] at h
  rcases hcloses with rfl | ⟨rest', rfl⟩
  · rw [drop_closingLine, List.cons.injEq] at h
    exact hc h.1.symm
  · have hlength : outer ≤ (closingLine outer).length := by simp [closingLine, spaces]
    rw [List.drop_append_of_le_length hlength, drop_closingLine, List.cons_append,
      List.cons.injEq] at h
    exact hc h.1.symm

/-- A text behind spaces is at least as deep as the spaces. -/
lemma le_leadingSpaces_spaces_append (n : Nat) (t : Text) :
    n ≤ leadingSpaces (spaces n ++ t) := by
  rw [leadingSpaces_spaces_append]
  exact Nat.le_add_right n _

/-- A text with a visible character behind its indentation is not blank. -/
lemma isBlank_spaces_append (n : Nat) {c : Char} (hc : isWhite c = false) (rest : Text) :
    isBlank (spaces n ++ c :: rest) = false :=
  isBlank_eq_false_of_drop (drop_spaces_append n (c :: rest)) hc

/-- No line of a comment is less deep than the header below it. -/
lemma le_leadingSpaces_of_mem_doc {indent : Nat} {body : List Text} {line : Text}
    (h : line ∈ (BlockParts.ofBody indent body).doc) : indent ≤ leadingSpaces line := by
  have hcomment : ∀ raw, line ∈ docComment indent raw → indent ≤ leadingSpaces line := by
    intro raw hmem
    unfold docComment at hmem
    split at hmem
    · cases hmem
    · simp only [List.cons_append, List.mem_cons, List.mem_append, List.mem_map,
        List.not_mem_nil, or_false] at hmem
      rcases hmem with rfl | ⟨text, -, rfl⟩ | rfl
      · exact le_leadingSpaces_spaces_append _ _
      · unfold docLine
        split
        · exact le_leadingSpaces_spaces_append _ _
        · rw [List.append_assoc]
          exact le_leadingSpaces_spaces_append _ _
      · exact le_leadingSpaces_spaces_append _ _
  unfold BlockParts.ofBody at h
  split at h
  · exact hcomment _ h
  · cases h

/-- The method names of the target are made of characters of names. -/
lemma isNameChar_of_mem_spellMethod {name : Text} (hname : ∀ c ∈ name, isNameChar c = true) :
    ∀ c ∈ spellMethod name, isNameChar c = true := by
  intro c hc
  unfold spellMethod at hc
  cases hlookup : lookup? methodTable name with
  | none =>
    rw [hlookup] at hc
    exact isNameChar_of_mem_camelCaseFrom hname hc
  | some target =>
    rw [hlookup] at hc
    obtain ⟨entry, hentry, rfl⟩ := exists_mem_of_lookup? hlookup
    have htable : ∀ entry ∈ methodTable, entry.2.all isNameChar = true := by decide
    exact List.all_eq_true.1 (htable entry hentry) c hc

namespace Declaration

variable {kind : DeclarationKind} {line : Text} {d : Declaration}

/-- A declaration closes no block. -/
lemma not_closes_of_parse? (h : parse? kind line = some d) (outer : Nat) : ¬Closes outer line := by
  obtain ⟨hindent, rest, hdrop⟩ := exists_drop_eq_of_parse? h
  rw [hindent] at hdrop
  cases kind with
  | classes => exact not_closes_of_drop hdrop (by decide) outer
  | functions => exact not_closes_of_drop hdrop (by decide) outer

/-- A rendered declaration has, behind the indentation it had before, a visible character. -/
lemma exists_eq_spaces_append_of_render {rendered : Text} (h : parse? kind line = some d)
    (hrender : d.render = .ok rendered) :
    ∃ c rest, rendered = spaces d.indent ++ c :: rest ∧ isWhite c = false := by
  cases kind with
  | classes =>
    obtain ⟨header, -, rfl⟩ := Option.map_eq_some_iff.1 h
    obtain ⟨rest, rfl, -⟩ := ClassHeader.exists_eq_of_render hrender
    exact ⟨'c', "lass " ++ rest, rfl, by decide⟩
  | functions =>
    obtain ⟨s, hs, rfl⟩ := Option.map_eq_some_iff.1 h
    obtain ⟨start, rfl, -⟩ := Signature.exists_eq_of_render hrender
    by_cases hindent : s.indent = 0
    · rw [Signature.kind_eq_of_parse? hs, if_pos hindent]
      refine ⟨'f', "unction " ++ (spellMethod s.name ++ '(' :: start), ?_, by decide⟩
      rw [show (ofFunction s).indent = 0 from hindent]
      rfl
    · rw [Signature.kind_eq_of_parse? hs, if_neg hindent]
      cases hname : spellMethod s.name with
      | nil => exact ⟨'(', start, rfl, by decide⟩
      | cons c letters =>
        have hc := isNameChar_of_mem_spellMethod (Signature.isNameChar_of_parse? hs) c
          (by simp [hname])
        exact ⟨c, letters ++ '(' :: start, rfl, isWhite_eq_false_of_isNameChar hc⟩

/-- **The pass over declarations keeps the marked lines closed**, and closes the headers that it
renders. -/
lemma closed_markFrom (below : List MarkedLine) :
    ∀ above out, Closed (above ++ below) → markFrom kind below = .ok out →
      Closed (above ++ out) := by
  -- A step leaves the finished lines, those of the header included, above the lines that remain.
  fun_induction markFrom kind below
  case case1 =>
    intro above out h hout
    cases hout
    exact h
  case case2 line below hparse ih =>
    intro above out h hout
    obtain ⟨rest, hrest, rfl⟩ := map_eq_ok_iff.1 hout
    have hshift := ih (above ++ [line]) rest (by simpa using h) hrest
    simpa using hshift
  case case3 =>
    intro above out h hout
    cases hout
  case case4 line below d hparse body kept rendered hrender hlt ih =>
    intro above out h hout
    obtain ⟨rest, hrest, rfl⟩ := map_eq_ok_iff.1 hout
    obtain ⟨c, letters, hrendered, hc⟩ := exists_eq_spaces_append_of_render hparse hrender
    have hspace : c ≠ ' ' := by
      rintro rfl
      exact absurd hc (by decide)
    have hdocs : ∀ doc ∈ (BlockParts.ofBody d.indent body).doc, d.indent ≤ leadingSpaces doc :=
      fun doc hdoc => le_leadingSpaces_of_mem_doc hdoc
    have hopen := closed_open h (isBlank_eq_false_of_parse? hparse)
      (indent_eq_of_parse? hparse).symm (not_closes_of_parse? hparse) hdocs
      (hrendered ▸ isBlank_spaces_append d.indent hc letters)
      (hrendered ▸ leadingSpaces_spaces_append_cons d.indent hspace letters) (liftedLength body)
    have hshift := ih
      (above ++ ((BlockParts.ofBody d.indent body).doc.map plain ++ [header rendered])) rest
      (by simpa [kept] using hopen) hrest
    simpa using hshift

end Declaration

namespace Clause

variable {line : Text} {c : Clause}

/-- A clause closes no block, as long as it does not join a brace. -/
lemma not_closes_of_parse? (h : parse? line = some c) (outer : Nat) : ¬Closes outer line := by
  obtain ⟨-, -, rest, -, hstart, -⟩ := parse?_eq_some_iff.1 h
  obtain ⟨first, letters, hsource, hlower, -⟩ := c.keyword.exists_source_eq_cons
  have hdrop := (Keyword.ofStart?_eq_some hstart).1
  rw [hsource, List.cons_append] at hdrop
  refine not_closes_of_drop hdrop ?_ outer
  rintro rfl
  exact absurd hlower (by decide)

/-- The spelling of a keyword in the target starts with a visible character. -/
lemma exists_target_eq_cons (k : Keyword) :
    ∃ c rest, k.target = c :: rest ∧ c ≠ ' ' ∧ isWhite c = false := by
  cases k <;> exact ⟨_, _, rfl, by decide, by decide⟩

/-- A clause that joins no brace is rendered with the indentation it had before. -/
lemma isBlank_leadingSpaces_of_render {rendered : Text} (h : c.render [] = .ok rendered) :
    isBlank rendered = false ∧ leadingSpaces rendered = c.indent := by
  obtain ⟨condition, rfl⟩ := exists_eq_of_render h
  obtain ⟨first, letters, htarget, hspace, hfirst⟩ := exists_target_eq_cons c.keyword
  simp only [htarget, List.append_nil, List.append_assoc, List.cons_append]
  exact ⟨isBlank_spaces_append _ hfirst _, leadingSpaces_spaces_append_cons _ hspace _⟩

/-- A clause that joins a brace closes the block that the brace has closed. -/
lemma closes_of_render {rendered : Text} (h : c.render "\x7d " = .ok rendered) :
    Closes c.indent rendered := by
  obtain ⟨condition, rfl⟩ := exists_eq_of_render h
  refine Or.inr ⟨c.keyword.target ++ condition ++ " \x7b" ++ c.trailing, ?_⟩
  simp [closingLine]

/-- **The pass over clauses keeps the marked lines closed**, and closes the headers that it
renders. -/
lemma closed_markFrom {above below out : List MarkedLine} (h : Closed (above.reverse ++ below))
    (hout : markFrom above below = .ok out) : Closed out := by
  fun_induction markFrom above below with
  | case1 above =>
    cases hout
    simpa using h
  | case2 above line below hparse ih => exact ih (by simpa using h) hout
  | case3 => cases hout
  | case4 => cases hout
  | case5 above line below c hparse leading kept hjoin rendered hrender size hlt ih =>
    refine ih ?_ hout
    have hblank := isBlank_eq_false_of_parse? hparse
    have hnot := not_closes_of_parse? hparse
    have hlength : (texts above).length = above.length := List.length_map _
    rcases joinAbove_cases hjoin with ⟨rfl, rfl⟩ | ⟨rfl, habove⟩
    · obtain ⟨hrenderedBlank, hrendered⟩ := isBlank_leadingSpaces_of_render hrender
      have hopen := closed_open h hblank (indent_eq_of_parse? hparse).symm hnot
        (List.forall_mem_nil _) hrenderedBlank hrendered 0
      simpa [hlength] using hopen
    · cases above with
      | nil => cases habove
      | cons brace above =>
        obtain ⟨hbrace, rfl⟩ := List.cons.inj habove
        have hlines : Closed (above.reverse ++ brace :: line :: below) := by simpa using h
        have hopen := closed_join hlines hbrace hblank hnot (closes_of_render hrender)
        have hkept : (brace :: above).length - (above.map text).length = 1 := by simp
        rw [hkept]
        simpa using hopen

end Clause

/-! ### The lexical pass -/

/-- A line that closes a block still does after the lexical pass. -/
lemma Closes.convertLexical {indent : Nat} {line : Text} (h : Closes indent line) :
    Closes indent (convertLexical line) := by
  rcases h with rfl | ⟨rest, rfl⟩
  · exact Or.inl (convertLexical_eq_closingLine_iff.2 rfl)
  · have hspell : spellNames ('\x7d' :: ' ' :: rest) = '\x7d' :: ' ' :: spellNames rest := by
      rw [spellNames, spellNamesFrom, if_neg (by decide), spellNamesFrom, if_neg (by decide)]
      rfl
    refine Or.inr ⟨strictEqualityFrom (some ' ') (spellNames rest), ?_⟩
    rw [closingLine, List.append_assoc, convertLexical_spaces_append, List.append_assoc]
    change spaces indent ++ strictEquality (spellNames ('\x7d' :: ' ' :: rest)) = _
    rw [hspell, strictEquality, strictEqualityFrom_cons (by decide) (by decide),
      strictEqualityFrom_cons (by decide) (by decide)]
    rfl

/-- A block that is closed still is after the lexical pass. -/
lemma ClosedBelow.map_convertLexical {indent : Nat} {below : List Text}
    (h : ClosedBelow indent below) : ClosedBelow indent (below.map Rebrace.convertLexical) := by
  obtain ⟨body, closing, rest, rfl, hinside, hlast, hcloses⟩ := closedBelow_iff.1 h
  refine closedBelow_iff.2 ⟨body.map Rebrace.convertLexical, Rebrace.convertLexical closing,
    rest.map Rebrace.convertLexical, by simp, ?_, ?_, hcloses.convertLexical⟩
  · intro line hline
    obtain ⟨old, hold, rfl⟩ := List.mem_map.1 hline
    have hinside := hinside old hold
    simpa [isInside] using hinside
  · intro line hline
    rw [List.getLast?_map, Option.map_eq_some_iff] at hline
    obtain ⟨old, hold, rfl⟩ := hline
    rw [isBlank_convertLexical]
    exact hlast old hold

/-- The lexical pass keeps the marked lines closed. -/
lemma Closed.map_convertLexical {lines : List MarkedLine} (h : Closed lines) :
    Closed (lines.map fun line => ⟨convertLexical line.text, line.isHeader⟩) := by
  induction lines with
  | nil => trivial
  | cons line lines ih =>
    refine ⟨fun hline => ?_, ih h.2⟩
    obtain ⟨hblank, hclosed⟩ := h.1 hline
    have hbelow := hclosed.map_convertLexical
    simp only [isBlank_convertLexical, leadingSpaces_convertLexical]
    refine ⟨hblank, ?_⟩
    simpa [texts, Function.comp_def] using hbelow

/-! ### All passes -/

/-- The passes leave every header closed that one of them has rendered. -/
lemma closed_of_markHeaders {lines : List Text} {marked : List MarkedLine}
    (h : markHeaders lines = .ok marked) : Closed marked := by
  obtain ⟨classes, hclasses, h⟩ := bind_eq_ok_iff.1 h
  obtain ⟨functions, hfunctions, hclauses⟩ := bind_eq_ok_iff.1 h
  have hplain : Closed ([] ++ lines.map plain) := by
    have hnil := (closed_map_plain_append lines []).2 trivial
    simpa using hnil
  have hclosedClasses := Declaration.closed_markFrom _ _ _ hplain hclasses
  have hclosedFunctions := Declaration.closed_markFrom _ _ _ hclosedClasses hfunctions
  have hlexical : Closed (([] : List MarkedLine).reverse ++ _) :=
    hclosedFunctions.map_convertLexical
  exact Clause.closed_markFrom hlexical hclauses

/-- A marked line is not blank, and its block is closed in the lines below it. -/
lemma Closed.closedBelow_of_getElem? {lines : List MarkedLine} (h : Closed lines) {k : Nat}
    {line : MarkedLine} (hline : lines[k]? = some line) (hheader : line.isHeader = true) :
    isBlank line.text = false ∧
      ClosedBelow (leadingSpaces line.text) ((texts lines).drop (k + 1)) := by
  induction lines generalizing k with
  | nil => cases hline
  | cons first lines ih =>
    cases k with
    | zero =>
      obtain rfl : first = line := by simpa using hline
      exact h.1 hheader
    | succ k => exact ih h.2 hline

/-- **Braces agree with indentation.**  Let the passes over classes, functions, names and
comparisons, and clauses succeed on a source.  Then below the block of every line that one of them
has rendered as a header, there is a line that closes it: the indentation of the header and a brace,
or a clause behind this brace. -/
theorem closing_of_marked (widths : Widths) {source : Text} {out : List Text}
    (hout : (Pass.runAll widths (Buffer.ofSource source).lines
      [.classes, .functions, .lexical, .controlFlow]).result = .ok out) :
    ∃ marked, markHeaders (Buffer.ofSource source).lines = .ok marked ∧ texts marked = out ∧
      ∀ (k : Nat) (line : MarkedLine), marked[k]? = some line → line.isHeader = true →
        ∃ last closing,
          Buffer.blockEnd? ⟨out, (Buffer.ofSource source).newlineAtEnd⟩ k = some last ∧
          out[last + 1]? = some closing ∧ Closes (leadingSpaces line.text) closing := by
  rw [← texts_markHeaders] at hout
  obtain ⟨marked, hmarked, rfl⟩ := map_eq_ok_iff.1 hout
  refine ⟨marked, hmarked, rfl, ?_⟩
  intro k line hline hheader
  obtain ⟨hblank, closing, rest, hrest, hcloses⟩ :=
    (closed_of_markHeaders hmarked).closedBelow_of_getElem? hline hheader
  have htext : (texts marked)[k]? = some line.text := by simp [texts, hline]
  refine ⟨_, closing, Buffer.blockEnd?_of_line htext hblank, ?_, hcloses⟩
  have hhead := congrArg List.head? hrest
  rw [blockRest, List.head?_drop, List.getElem?_drop, Nat.add_right_comm] at hhead
  exact hhead

/-- A method inside a class, with a clause that joins another one: the header in the third line is
closed by the clause in the fifth. -/
theorem closing_of_marked_method :
    (Pass.runAll {} (Buffer.ofSource
        "class A:\n  def f(self):\n    if x:\n      y\n    else:\n      z").lines
      [.classes, .functions, .lexical, .controlFlow]).result =
        .ok ["class A \x7b", "  f() \x7b", "    if (x) \x7b", "      y", "    \x7d else \x7b",
          "      z", "    \x7d", "  \x7d", "\x7d"] ∧
      markHeaders (Buffer.ofSource
        "class A:\n  def f(self):\n    if x:\n      y\n    else:\n      z").lines =
        .ok [header "class A \x7b", header "  f() \x7b", header "    if (x) \x7b",
          plain "      y", header "    \x7d else \x7b", plain "      z", plain "    \x7d",
          plain "  \x7d", plain "\x7d"] ∧
      ∃ last closing, Buffer.blockEnd? ⟨["class A \x7b", "  f() \x7b", "    if (x) \x7b", "      y",
          "    \x7d else \x7b", "      z", "    \x7d", "  \x7d", "\x7d"], false⟩ 2 = some last ∧
        (["class A \x7b", "  f() \x7b", "    if (x) \x7b", "      y", "    \x7d else \x7b",
          "      z", "    \x7d", "  \x7d", "\x7d"] : List Text)[last + 1]? = some closing ∧
        Closes 4 closing := by
  have hout : (Pass.runAll {} (Buffer.ofSource
        "class A:\n  def f(self):\n    if x:\n      y\n    else:\n      z").lines
      [.classes, .functions, .lexical, .controlFlow]).result =
        .ok ["class A \x7b", "  f() \x7b", "    if (x) \x7b", "      y", "    \x7d else \x7b",
          "      z", "    \x7d", "  \x7d", "\x7d"] := by decide +kernel
  have hmarks : markHeaders (Buffer.ofSource
        "class A:\n  def f(self):\n    if x:\n      y\n    else:\n      z").lines =
        .ok [header "class A \x7b", header "  f() \x7b", header "    if (x) \x7b",
          plain "      y", header "    \x7d else \x7b", plain "      z", plain "    \x7d",
          plain "  \x7d", plain "\x7d"] := by decide +kernel
  refine ⟨hout, hmarks, ?_⟩
  obtain ⟨marked, hmarked, -, hclosing⟩ := closing_of_marked {} hout
  rw [hmarks, Except.ok.injEq] at hmarked
  subst hmarked
  exact hclosing 2 (header "    if (x) \x7b") rfl rfl

end Rebrace
