import Rebrace.Proofs.LocalSpelling
import Rebrace.Proofs.OneLine
import Rebrace.Proofs.Pieces

/-!
# The grammar of clause headers

A clause header is spaces, a keyword, perhaps a condition, a colon and the rest of the line.  The
colon is the first one at which no bracket and no literal is open, which `Clause.IsHeader` says in
terms of the scanner, read over the text in front of it.  `Clause.parse?_eq_some_iff_isHeader`
states that the lines of this grammar are the ones that are read, and that a clause which was read
is read again from its own print, where one space stands in front of the condition and none behind
it.  For the print the white space around a condition must not matter to the scanner: it takes
an escape at most, and none is pending where the colon was found.
-/

namespace Rebrace

open Text Scan

/-! ### White space and the scanner -/

namespace Scan

/-- White space leaves the depth alone and takes an escape. -/
lemma next_of_isWhite {s : Scan} (hs : s.quote.IsOpened) {c : Char} (hc : isWhite c = true) :
    s.next nestAll c = ⟨s.quote.settled, s.depth⟩ := by
  have hquote := isQuoteMark_eq_false_of_isWhite hc
  have hescape := ne_of_isWhite hc '\\' (by decide)
  simp [next, QuoteState.next_of_ne hs hquote hescape, nestAll_eq_zero_of_isWhite hc]

/-- White space changes nothing but an escape that waits for its character. -/
lemma run_of_isWhite {s : Scan} (hs : s.quote.IsOpened) {t : Text}
    (ht : ∀ c ∈ t, isWhite c = true) :
    run nestAll s t = s ∨ run nestAll s t = ⟨s.quote.settled, s.depth⟩ := by
  induction t generalizing s with
  | nil => exact Or.inl rfl
  | cons c t ih =>
    rw [List.forall_mem_cons] at ht
    rw [run_cons, next_of_isWhite hs ht.1]
    have hrest := ih (s := ⟨s.quote.settled, s.depth⟩) hs.settled ht.2
    rw [QuoteState.settled_settled, or_self] at hrest
    exact Or.inr hrest

/-- White space neither opens nor closes anything. -/
lemma run_eq_iff_of_isWhite {s : Scan} (hs : s.quote.IsOpened) {t : Text}
    (ht : ∀ c ∈ t, isWhite c = true) : run nestAll s t = {} ↔ s = {} := by
  obtain ⟨quote, depth⟩ := s
  rcases run_of_isWhite hs ht with hrun | hrun
  · rw [hrun]
  · cases quote <;> simp [hrun, QuoteState.settled]

/-- Trimming a text exposes nothing. -/
lemma exposed_trim_subset (t : Text) : exposed nestAll {} (Text.trim t) ⊆ exposed nestAll {} t := by
  obtain ⟨lead, tail, heq, hlead, -⟩ := exists_eq_append_trim_append t
  have hstart : run nestAll {} lead = {} :=
    (run_eq_iff_of_isWhite (s := {}) (show (QuoteState.outside).IsOpened from trivial) hlead).2 rfl
  intro c hc
  rw [heq, exposed_append, hstart, exposed_append]
  exact List.mem_append_right _ (List.mem_append_left _ hc)

/-- A colon is exposed where nothing is open. -/
lemma exposes_colon_iff (s : Scan) : s.exposes nestAll ':' = true ↔ s = {} := by
  obtain ⟨quote, depth⟩ := s
  simp [exposes, QuoteState.isCode, isQuoteMark, nestAll]

end Scan

namespace Passes

variable {p : Char → Prop} {t : Text}

/-- What is trimmed of a text does not matter to the scanner. -/
lemma trim (h : Passes nestAll p t) : Passes nestAll p (Text.trim t) := by
  obtain ⟨lead, tail, heq, hlead, htail⟩ := exists_eq_append_trim_append t
  have houtside : (QuoteState.outside).IsOpened := trivial
  have hstart : run nestAll {} lead = {} := (run_eq_iff_of_isWhite houtside hlead).2 rfl
  have hrun := h.run_eq
  rw [heq, run_append, hstart, run_append] at hrun
  exact ⟨(run_eq_iff_of_isWhite (isOpened_run nestAll houtside _) htail).1 hrun,
    fun c hc => h.exposed c (exposed_trim_subset t hc)⟩

/-- A text is passed over in the search for a colon exactly if it leaves nothing open and no colon
in it stands where nothing is open. -/
lemma colon_iff :
    Passes nestAll (· ≠ ':') t ↔
      run nestAll {} t = {} ∧ ∀ u v, t = u ++ ':' :: v → run nestAll {} u ≠ {} := by
  constructor
  · rintro ⟨hrun, hexposed⟩
    refine ⟨hrun, fun u v ht hu => hexposed ':' ?_ rfl⟩
    exact mem_exposed_iff.2 ⟨u, v, ht, (exposes_colon_iff _).2 hu⟩
  · rintro ⟨hrun, hfirst⟩
    refine ⟨hrun, ?_⟩
    rintro c hc rfl
    obtain ⟨u, v, ht, hu⟩ := mem_exposed_iff.1 hc
    exact hfirst u v ht ((exposes_colon_iff _).1 hu)

end Passes

/-- What stands in front of the colon that is found leaves nothing open and exposes no colon. -/
lemma of_cutColonFrom? {s : Scan} {t before after : Text}
    (h : cutColonFrom? s t = some (before, after)) :
    t = before ++ ':' :: after ∧ (run nestAll s before).exposes nestAll ':' = true ∧
      ':' ∉ exposed nestAll s before := by
  induction t generalizing s before with
  | nil => cases h
  | cons c t ih =>
    rw [cutColonFrom?_cons] at h
    split at h
    · rename_i hcolon
      rw [Bool.and_eq_true, beq_iff_eq] at hcolon
      obtain ⟨hexposes, rfl⟩ := hcolon
      cases h
      exact ⟨rfl, hexposes, List.not_mem_nil⟩
    · rename_i hcolon
      obtain ⟨⟨front, rest⟩, hcut, hparts⟩ := Option.map_eq_some_iff.1 h
      cases hparts
      obtain ⟨rfl, hrun, hexposed⟩ := ih hcut
      refine ⟨rfl, hrun, ?_⟩
      rw [exposed_cons, List.mem_append, not_or]
      refine ⟨?_, hexposed⟩
      intro hmem
      split at hmem
      · rename_i hexposes
        rw [← List.mem_singleton.1 hmem] at hexposes hcolon
        simp [hexposes] at hcolon
      · cases hmem

/-- **The colon of a header** is the first one where nothing is open. -/
lemma cutHeaderColon?_eq_some_iff {t before after : Text} :
    cutHeaderColon? t = some (before, after) ↔
      t = before ++ ':' :: after ∧ Passes nestAll (· ≠ ':') before := by
  constructor
  · intro h
    obtain ⟨ht, hexposes, hexposed⟩ := of_cutColonFrom? h
    refine ⟨ht, (exposes_colon_iff _).1 hexposes, ?_⟩
    rintro c hc rfl
    exact hexposed hc
  · rintro ⟨rfl, hpasses⟩
    have hnot : ∀ c ∈ exposed nestAll {} before, ∀ _ _ : Option Char, (c == ':') = false :=
      fun c hc _ _ => beq_eq_false_iff_ne.2 (hpasses.exposed c hc)
    rw [cutHeaderColon?, cutExposedFrom?_append hnot, hpasses.run_eq, cutExposedFrom?]
    simp [(exposes_colon_iff {}).2 rfl]

/-! ### Headers -/

namespace Clause

/-- Which keywords need a condition and which ones refuse it. -/
lemma admits_iff {keyword : Keyword} {before : Text} :
    admits keyword before = true ↔
      (keyword ∈ [.ifTrue, .elseIf, .whileTrue, .forEach] → trim before ≠ []) ∧
        (keyword ∈ [.otherwise, .attempt, .cleanUp] → trim before = []) := by
  rw [Ne, trim_eq_nil_iff]
  cases keyword <;> simp [admits, Keyword.condition]

/-- A line that holds the header of clause `c`, with the text `before` between the keyword and the
colon. -/
structure IsHeader (line : Text) (c : Clause) (before : Text) : Prop where
  /-- The line is one line. -/
  newline_notMem : '\n' ∉ line
  /-- Spaces, the keyword, the text before the colon, the colon and the rest of the line. -/
  line_eq : line = spaces c.indent ++ (c.keyword.source ++ (before ++ ':' :: c.trailing))
  /-- The keyword is a whole word. -/
  boundary : (before ++ ':' :: c.trailing).head?.any isWord = false
  /-- No bracket and no literal is open at the colon. -/
  outside : run nestAll {} before = {}
  /-- A bracket or a literal is open at every colon before it. -/
  first : ∀ u v, before = u ++ ':' :: v → run nestAll {} u ≠ {}
  /-- The condition is the text before the colon without the white space around it. -/
  condition?_eq : c.condition? = if trim before = [] then none else some (trim before)
  /-- `if`, `elif`, `while` and `for` have a condition. -/
  required : c.keyword ∈ [.ifTrue, .elseIf, .whileTrue, .forEach] → trim before ≠ []
  /-- `else`, `try` and `finally` have none. -/
  forbidden : c.keyword ∈ [.otherwise, .attempt, .cleanUp] → trim before = []

/-- The search for the colon passes over the text before it. -/
lemma IsHeader.passes {line : Text} {c : Clause} {before : Text} (h : IsHeader line c before) :
    Passes nestAll (· ≠ ':') before :=
  Passes.colon_iff.2 ⟨h.outside, h.first⟩

/-- A line is read from the end of its indentation on exactly if it is spaces, a keyword and a rest
in which the keyword does not go on. -/
lemma ofStart?_drop_iff {line rest : Text} {n : Nat} {keyword : Keyword} :
    n = leadingSpaces line ∧
        Keyword.ofStart? (line.drop (leadingSpaces line)) = some (keyword, rest) ↔
      line = spaces n ++ (keyword.source ++ rest) ∧ rest.head?.any isWord = false := by
  constructor
  · rintro ⟨rfl, hstart⟩
    obtain ⟨hdrop, hrest⟩ := Keyword.ofStart?_eq_some hstart
    refine ⟨?_, hrest⟩
    rw [← hdrop, spaces_append_drop le_rfl]
  · rintro ⟨rfl, hrest⟩
    obtain ⟨first, letters, hsource, hlower, -⟩ := keyword.exists_source_eq_cons
    have hspace : first ≠ ' ' := by
      rintro rfl
      cases hlower
    have hleading : leadingSpaces (spaces n ++ (keyword.source ++ rest)) = n := by
      rw [hsource, List.cons_append, leadingSpaces_spaces_append_cons n hspace]
    rw [hleading, drop_spaces_append]
    exact ⟨rfl, keyword.ofStart?_source_append hrest⟩

/-- The lines that are read are the lines of the grammar. -/
lemma parse?_eq_some_iff_exists {line : Text} {c : Clause} :
    parse? line = some c ↔ ∃ before, IsHeader line c before := by
  rw [parse?_eq_some_iff]
  constructor
  · rintro ⟨hnewline, hindent, rest, before, hstart, hcut, hcondition, hadmits⟩
    obtain ⟨hline, hboundary⟩ := ofStart?_drop_iff.1 ⟨hindent, hstart⟩
    obtain ⟨rfl, hpasses⟩ := cutHeaderColon?_eq_some_iff.1 hcut
    obtain ⟨houtside, hfirst⟩ := Passes.colon_iff.1 hpasses
    obtain ⟨hrequired, hforbidden⟩ := admits_iff.1 hadmits
    simp only [← trim_eq_nil_iff] at hcondition
    exact ⟨before, hnewline, hline, hboundary, houtside, hfirst, hcondition, hrequired, hforbidden⟩
  · rintro ⟨before, h⟩
    obtain ⟨hindent, hstart⟩ := ofStart?_drop_iff.2 ⟨h.line_eq, h.boundary⟩
    have hcut : cutHeaderColon? (before ++ ':' :: c.trailing) = some (before, c.trailing) :=
      cutHeaderColon?_eq_some_iff.2 ⟨rfl, h.passes⟩
    refine ⟨h.newline_notMem, hindent, _, before, hstart, hcut, ?_,
      admits_iff.2 ⟨h.required, h.forbidden⟩⟩
    simp only [h.condition?_eq, trim_eq_nil_iff]

/-! ### Printing a clause -/

/-- The condition of a clause with one space in front of it. -/
def printCondition (c : Clause) : Text :=
  (c.condition?.map (' ' :: ·)).getD []

/-- The header line of a clause. -/
def print (c : Clause) : Text :=
  spaces c.indent ++ (c.keyword.source ++ (c.printCondition ++ ':' :: c.trailing))

namespace IsHeader

variable {line : Text} {c : Clause} {before : Text}

/-- The condition is printed as it was read, up to the white space around it. -/
lemma printCondition_cases (h : IsHeader line c before) :
    trim before = [] ∧ c.printCondition = [] ∨
      IsTrimmed (trim before) ∧ c.printCondition = [' '] ++ trim before := by
  rw [printCondition, h.condition?_eq]
  by_cases hnil : trim before = []
  · simp [hnil]
  · exact Or.inr ⟨IsTrimmed.of_trim_ne_nil hnil, by simp [hnil]⟩

/-- White space around the condition is all that printing changes. -/
lemma trim_printCondition (h : IsHeader line c before) :
    trim c.printCondition = trim before := by
  rcases h.printCondition_cases with ⟨hnil, hprint⟩ | ⟨htrimmed, hprint⟩
  · rw [hnil, hprint]
    rfl
  · have hspace : ∀ d ∈ [' '], isWhite d = true := forall_mem_of_all (by decide)
    have htrim := htrimmed.trim_append hspace (List.forall_mem_nil _)
    rwa [List.append_nil, ← hprint] at htrim

/-- The colon that is printed is the first one where nothing is open. -/
lemma passes_printCondition (h : IsHeader line c before) :
    Passes nestAll (· ≠ ':') c.printCondition := by
  rcases h.printCondition_cases with ⟨-, hprint⟩ | ⟨-, hprint⟩
  · rw [hprint]
    exact Passes.of_forall (List.forall_mem_nil _)
  · rw [hprint]
    exact (passes_spaces (by decide) (by decide) 1).append h.passes.trim

/-- The print of a clause is one line. -/
lemma newline_notMem_print (h : IsHeader line c before) : '\n' ∉ c.print := by
  have hline := h.newline_notMem
  have hsource : '\n' ∉ c.keyword.source := by
    cases c.keyword <;> decide
  have hspaces : '\n' ∉ spaces c.indent := by simp [spaces]
  simp only [h.line_eq, List.mem_append, List.mem_cons, not_or] at hline
  obtain ⟨-, -, hbefore, -, htrailing⟩ := hline
  have hcondition : '\n' ∉ c.printCondition := by
    rcases h.printCondition_cases with ⟨-, hprint⟩ | ⟨-, hprint⟩
    · simp [hprint]
    · rw [hprint, List.mem_append, not_or]
      exact ⟨by decide, fun hmem => hbefore (trim_subset before hmem)⟩
  simp [print, hspaces, hsource, hcondition, htrailing]

/-- **The print of a clause holds the clause.** -/
lemma isHeader_print (h : IsHeader line c before) : IsHeader c.print c c.printCondition := by
  obtain ⟨houtside, hfirst⟩ := Passes.colon_iff.1 h.passes_printCondition
  refine ⟨h.newline_notMem_print, rfl, ?_, houtside, hfirst, ?_, ?_, ?_⟩
  · rcases h.printCondition_cases with ⟨-, hprint⟩ | ⟨-, hprint⟩
    · rw [hprint]
      rfl
    · rw [hprint]
      rfl
  · rw [h.trim_printCondition, h.condition?_eq]
  · rw [h.trim_printCondition]
    exact h.required
  · rw [h.trim_printCondition]
    exact h.forbidden

end IsHeader

/-- **Clause headers**: the lines that are read are the lines of the grammar, and what was read is
read again from its print. -/
theorem parse?_eq_some_iff_isHeader (line : Text) (c : Clause) :
    (parse? line = some c ↔ ∃ before, IsHeader line c before) ∧
      (parse? line = some c → parse? c.print = some c) := by
  refine ⟨parse?_eq_some_iff_exists, ?_⟩
  intro h
  obtain ⟨before, hbefore⟩ := parse?_eq_some_iff_exists.1 h
  exact parse?_eq_some_iff_exists.2 ⟨c.printCondition, hbefore.isHeader_print⟩

/-- Slices, colons in literals and white space around the condition. -/
theorem parse?_eq_some_iff_isHeader_slice :
    let line : Text := "  while\tf(xs[1:])[i] != ':\\\x27:'  : step()  # a: b"
    let c : Clause := ⟨2, .whileTrue, some "f(xs[1:])[i] != ':\\\x27:'", " step()  # a: b"⟩
    parse? line = some c ∧ (∃ before, IsHeader line c before) ∧
      parse? "  while f(xs[1:])[i] != ':\\\x27:': step()  # a: b" = some c := by
  have hparse : parse? "  while\tf(xs[1:])[i] != ':\\\x27:'  : step()  # a: b" =
      some ⟨2, .whileTrue, some "f(xs[1:])[i] != ':\\\x27:'", " step()  # a: b"⟩ := by decide
  obtain ⟨hgrammar, hprint⟩ := parse?_eq_some_iff_isHeader
    "  while\tf(xs[1:])[i] != ':\\\x27:'  : step()  # a: b"
    ⟨2, .whileTrue, some "f(xs[1:])[i] != ':\\\x27:'", " step()  # a: b"⟩
  exact ⟨hparse, hgrammar.1 hparse, hprint hparse⟩

end Clause

end Rebrace
