import Mathlib
import Rebrace.Pass.Pipeline
import Rebrace.Proofs.Headers

/-!
# Names and comparisons leave the structure of a line alone

The lexical pass spells names and comparisons for the target.  It replaces runs of *inert*
characters, which are letters, digits, the underscore and the signs of comparisons, by other such
runs.  `Alike s t` says that two texts differ in this way only, so that a scanner for literals,
brackets and colons goes through the same states on both.

The main statements are `leadingSpaces_convertLexical`, `isBlank_convertLexical` and
`convertLexical_eq_closingLine_iff`, by which indentation, blank lines and closing braces are kept,
and `Clause.map_keyword_parse?_convertLexical`, by which a line opens a clause after the pass
exactly if it did before, and with the same keyword.
-/

namespace Rebrace

open Text

/-! ### Inert characters -/

/-- The characters that the lexical pass may replace. -/
def isInert (c : Char) : Bool :=
  isNameChar c || c == '=' || c == '!'

/-- An inert character is no white space. -/
lemma isWhite_eq_false_of_isInert {c : Char} (h : isInert c = true) : isWhite c = false := by
  simp only [isInert, Bool.or_eq_true, beq_iff_eq] at h
  rcases h with (h | rfl) | rfl
  · exact isWhite_eq_false_of_isNameChar h
  · decide
  · decide

/-- An inert character is none of the characters that structure a line. -/
lemma ne_of_isInert {c : Char} (h : isInert c = true) (mark : Char) (hmark : isInert mark = false) :
    c ≠ mark := by
  rintro rfl
  rw [h] at hmark
  cases hmark

/-- An inert character opens no literal. -/
lemma isQuoteMark_eq_false_of_isInert {c : Char} (h : isInert c = true) :
    isQuoteMark c = false := by
  simp [isQuoteMark, ne_of_isInert h '\x27' (by decide), ne_of_isInert h '\x22' (by decide)]

/-- An inert character is no bracket. -/
lemma nestAll_eq_zero_of_isInert {c : Char} (h : isInert c = true) : nestAll c = 0 := by
  simp [nestAll, ne_of_isInert h '(' (by decide), ne_of_isInert h '[' (by decide),
    ne_of_isInert h '\x7b' (by decide), ne_of_isInert h ')' (by decide),
    ne_of_isInert h ']' (by decide), ne_of_isInert h '\x7d' (by decide)]

/-! ### Scanning over inert characters -/

namespace QuoteState

/-- A literal has been opened by a quotation mark. -/
def IsOpened : QuoteState → Prop
  | outside => True
  | inside mark _ => isQuoteMark mark = true

/-- The state without an escape that waits for its character. -/
def settled : QuoteState → QuoteState
  | outside => outside
  | inside mark _ => inside mark false

lemma IsOpened.settled {q : QuoteState} (h : q.IsOpened) : q.settled.IsOpened := by
  cases q <;> exact h

@[simp] lemma settled_settled (q : QuoteState) : q.settled.settled = q.settled := by
  cases q <;> rfl

/-- Only quotation marks open literals. -/
lemma IsOpened.next {q : QuoteState} (h : q.IsOpened) (c : Char) : (q.next c).IsOpened := by
  cases q with
  | outside => by_cases hquote : isQuoteMark c <;> simp [QuoteState.next, hquote, IsOpened]
  | inside mark escaped =>
    cases escaped with
    | true => exact h
    | false =>
      by_cases hescape : c = '\\'
      · simpa [QuoteState.next, hescape, IsOpened] using h
      · by_cases hmark : c = mark
        · subst hmark
          simp [QuoteState.next, hescape, IsOpened]
        · simpa [QuoteState.next, hescape, hmark] using h

/-- A character that is neither a quotation mark nor a backslash does no more than take an
escape. -/
lemma next_of_ne {q : QuoteState} (hq : q.IsOpened) {c : Char} (hquote : isQuoteMark c = false)
    (hescape : c ≠ '\\') : q.next c = q.settled := by
  cases q with
  | outside => simp [QuoteState.next, settled, hquote]
  | inside mark escaped =>
    have hmark : c ≠ mark := by
      rintro rfl
      rw [IsOpened, hquote] at hq
      cases hq
    cases escaped <;> simp [QuoteState.next, settled, hmark, hescape]

/-- An inert character does no more than take an escape. -/
lemma next_of_isInert {q : QuoteState} (hq : q.IsOpened) {c : Char} (hc : isInert c = true) :
    q.next c = q.settled :=
  next_of_ne hq (isQuoteMark_eq_false_of_isInert hc) (ne_of_isInert hc '\\' (by decide))

end QuoteState

/-- An inert character leaves the depth of a scanner alone. -/
lemma Scan.next_of_isInert {s : Scan} (hs : s.quote.IsOpened) {c : Char} (hc : isInert c = true) :
    s.next nestAll c = ⟨s.quote.settled, s.depth⟩ := by
  simp [Scan.next, QuoteState.next_of_isInert hs hc, nestAll_eq_zero_of_isInert hc]

/-- The search for the colon that ends a header, from state `s` on. -/
def cutColonFrom? (s : Scan) (t : Text) : Option (Text × Text) :=
  cutExposedFrom? (fun _ c _ => c == ':') none s t

@[simp] lemma cutColonFrom?_nil (s : Scan) : cutColonFrom? s [] = none := rfl

/-- The search goes on with the state after the first character, unless this is the colon. -/
lemma cutColonFrom?_cons (s : Scan) (c : Char) (t : Text) :
    cutColonFrom? s (c :: t) =
      if s.exposes nestAll c && c == ':' then some ([], t)
      else (cutColonFrom? (s.next nestAll c) t).map fun parts => (c :: parts.1, parts.2) := by
  have hprevious : ∀ (previous : Option Char) (s : Scan) (t : Text),
      cutExposedFrom? (fun _ c _ => c == ':') previous s t = cutColonFrom? s t := by
    intro previous s t
    cases t <;> rfl
  rw [cutColonFrom?, cutExposedFrom?, hprevious]

/-- The search passes over inert characters. -/
lemma cutColonFrom?_append {s : Scan} (hs : s.quote.IsOpened) {run : Text}
    (hrun : ∀ c ∈ run, isInert c = true) (hne : run ≠ []) (t : Text) :
    cutColonFrom? s (run ++ t) =
      (cutColonFrom? ⟨s.quote.settled, s.depth⟩ t).map fun parts => (run ++ parts.1, parts.2) := by
  induction run generalizing s with
  | nil => exact absurd rfl hne
  | cons c run ih =>
    have hc := hrun c (by simp)
    have hcolon : (c == ':') = false := by simp [ne_of_isInert hc ':' (by decide)]
    rw [List.cons_append, cutColonFrom?_cons, hcolon, Bool.and_false, if_neg (by simp),
      Scan.next_of_isInert hs hc]
    cases run with
    | nil => rfl
    | cons d run =>
      rw [ih hs.settled (fun e he => hrun e (List.mem_cons_of_mem _ he)) (by simp)]
      simp [Function.comp_def]

/-! ### Texts that differ in inert characters only -/

/-- Two texts that agree up to runs of inert characters.  A run is empty in neither of them. -/
inductive Alike : Text → Text → Prop
  | nil : Alike [] []
  | cons (c : Char) {s t : Text} : Alike s t → Alike (c :: s) (c :: t)
  | run {u v s t : Text} : u ≠ [] → v ≠ [] → (∀ c ∈ u, isInert c = true) →
      (∀ c ∈ v, isInert c = true) → Alike s t → Alike (u ++ s) (v ++ t)

namespace Alike

/-- Related results stay related under related functions. -/
lemma rel_map {α β : Type} {r r' : α → β → Prop} {x : Option α} {y : Option β}
    (h : Option.Rel r x y) {f : α → α} {g : β → β} (hfg : ∀ a b, r a b → r' (f a) (g b)) :
    Option.Rel r' (x.map f) (y.map g) := by
  cases h with
  | none => exact .none
  | some hab => exact .some (hfg _ _ hab)

/-- The colon that ends a header is found at the same place. -/
lemma rel_cutColonFrom? {s t : Text} (h : Alike s t) {state : Scan}
    (hstate : state.quote.IsOpened) :
    Option.Rel (fun x y => Alike x.1 y.1 ∧ Alike x.2 y.2)
      (cutColonFrom? state s) (cutColonFrom? state t) := by
  induction h generalizing state with
  | nil => exact .none
  | cons c h ih =>
    rw [cutColonFrom?_cons, cutColonFrom?_cons]
    split
    · exact .some ⟨.nil, h⟩
    · exact rel_map (ih (hstate.next c)) fun _ _ hparts => ⟨.cons c hparts.1, hparts.2⟩
  | run hu hv hinertU hinertV h ih =>
    rw [cutColonFrom?_append hstate hinertU hu, cutColonFrom?_append hstate hinertV hv]
    exact rel_map (ih hstate.settled) fun _ _ hparts =>
      ⟨.run hu hv hinertU hinertV hparts.1, hparts.2⟩

/-- Every text is like itself. -/
lemma refl (t : Text) : Alike t t := by
  induction t with
  | nil => exact .nil
  | cons c t ih => exact .cons c ih

/-- A character that is not inert occurs in both texts or in none. -/
lemma mem_iff {s t : Text} (h : Alike s t) {c : Char} (hc : isInert c = false) : c ∈ s ↔ c ∈ t := by
  induction h with
  | nil => rfl
  | cons d _ ih => rw [List.mem_cons, List.mem_cons, ih]
  | run _ _ hu hv _ ih =>
    have hnotU := fun hmem => ne_of_isInert (hu c hmem) c hc rfl
    have hnotV := fun hmem => ne_of_isInert (hv c hmem) c hc rfl
    rw [List.mem_append, List.mem_append, ih, or_iff_right hnotU, or_iff_right hnotV]

/-- A text with a run of inert characters is not blank. -/
lemma isBlank_append_eq_false {u : Text} (hne : u ≠ []) (hu : ∀ c ∈ u, isInert c = true)
    (s : Text) : isBlank (u ++ s) = false := by
  obtain ⟨c, rest, rfl⟩ := List.exists_cons_of_ne_nil hne
  have hc := isWhite_eq_false_of_isInert (hu c (by simp))
  simp [isBlank, hc]

/-- Both texts are blank or none is. -/
lemma isBlank_eq {s t : Text} (h : Alike s t) : isBlank s = isBlank t := by
  induction h with
  | nil => rfl
  | cons c _ ih =>
    simp only [isBlank, List.all_cons] at ih ⊢
    rw [ih]
  | run hneU hneV hu hv _ _ =>
    rw [isBlank_append_eq_false hneU hu, isBlank_append_eq_false hneV hv]

/-- A text with a run of inert characters is not indented. -/
lemma leadingSpaces_append_eq_zero {u : Text} (hne : u ≠ []) (hu : ∀ c ∈ u, isInert c = true)
    (s : Text) : leadingSpaces (u ++ s) = 0 := by
  obtain ⟨c, rest, rfl⟩ := List.exists_cons_of_ne_nil hne
  have hc := ne_of_isInert (hu c (by simp)) ' ' (by decide)
  simp [leadingSpaces, hc]

/-- Both texts are indented by the same number of spaces. -/
lemma leadingSpaces_eq {s t : Text} (h : Alike s t) : leadingSpaces s = leadingSpaces t := by
  induction h with
  | nil => rfl
  | cons c _ ih =>
    by_cases hc : c = ' '
    · simp only [leadingSpaces] at ih
      simp [leadingSpaces, hc, ih]
    · simp [leadingSpaces, hc]
  | run hneU hneV hu hv _ _ =>
    rw [leadingSpaces_append_eq_zero hneU hu, leadingSpaces_append_eq_zero hneV hv]

/-- Only the empty text is like the empty text. -/
lemma eq_nil_iff {s t : Text} (h : Alike s t) : s = [] ↔ t = [] := by
  induction h with
  | nil => rfl
  | cons => simp
  | run hneU hneV => simp [hneU, hneV]

/-- Only the closing brace is like a closing brace. -/
lemma eq_brace {s : Text} (h : Alike s ['\x7d']) : s = ['\x7d'] := by
  generalize ht : ['\x7d'] = t at h
  cases h with
  | nil => cases ht
  | cons c h =>
    simp only [List.cons.injEq] at ht
    rw [h.eq_nil_iff.2 ht.2.symm, ← ht.2]
  | @run u v s t _ hneV _ hv _ =>
    obtain ⟨c, rest, rfl⟩ := List.exists_cons_of_ne_nil hneV
    simp only [List.cons_append, List.cons.injEq] at ht
    exact absurd ht.1.symm (ne_of_isInert (hv c (by simp)) _ (by decide))

end Alike

/-! ### Names -/

/-- The upper case of a letter or digit is a character of a name, but no lower-case letter. -/
lemma toUpper_of_isLowerOrDigit {c : Char} (h : isLowerOrDigit c = true) :
    isNameChar c.toUpper = true ∧ c.toUpper.isLower = false := by
  refine ⟨?_, Char.isLower_toUpper_eq_false c⟩
  by_cases hlower : c.isLower
  · simp [isNameChar, Char.isAlphanum, Char.isAlpha, hlower]
  · have hdigit : c.isDigit = true := by simpa [isLowerOrDigit, hlower] using h
    rw [Char.toUpper_eq_of_not_isLower hlower]
    simp [isNameChar, Char.isAlphanum, hdigit]

/-- Camel case adds only characters of names to those of a text. -/
lemma mem_or_isNameChar_of_mem_camelCaseFrom {joins : Bool} {t : Text} {c : Char}
    (hc : c ∈ camelCaseFrom joins t) : c ∈ t ∨ isNameChar c = true := by
  fun_induction camelCaseFrom joins t with
  | case1 => cases hc
  | case2 joins d => exact Or.inl hc
  | case3 joins first second t h ih =>
    rcases List.mem_cons.1 hc with rfl | hc
    · exact Or.inr (toUpper_of_isLowerOrDigit h.2.2).1
    · exact (ih hc).imp_left fun hmem => by simp [hmem]
  | case4 joins first second t h ih =>
    rcases List.mem_cons.1 hc with rfl | hc
    · exact Or.inl List.mem_cons_self
    · exact (ih hc).imp_left (List.mem_cons_of_mem _)

/-- Camel case is made of characters of names. -/
lemma isNameChar_of_mem_camelCaseFrom {joins : Bool} {t : Text}
    (ht : ∀ c ∈ t, isNameChar c = true) {c : Char} (hc : c ∈ camelCaseFrom joins t) :
    isNameChar c = true :=
  (mem_or_isNameChar_of_mem_camelCaseFrom hc).elim (ht c) id

/-- Camel case that is made of lower-case letters only has left the name as it was. -/
lemma camelCaseFrom_eq_self {joins : Bool} {t : Text}
    (h : ∀ c ∈ camelCaseFrom joins t, c.isLower = true) : camelCaseFrom joins t = t := by
  fun_induction camelCaseFrom joins t with
  | case1 => rfl
  | case2 => rfl
  | case3 joins first second t hjoins ih =>
    have hupper := h _ List.mem_cons_self
    rw [(toUpper_of_isLowerOrDigit hjoins.2.2).2] at hupper
    cases hupper
  | case4 joins first second t hjoins ih =>
    rw [ih fun c hc => h c (List.mem_cons_of_mem _ hc)]

/-- The first character of a name stays. -/
lemma head?_camelCase (name : Text) : (camelCase name).head? = name.head? := by
  match name with
  | [] => rfl
  | [c] => rfl
  | c :: d :: t => simp [camelCase, camelCaseFrom]

/-- The spelling of a name in the target is a name. -/
lemma spellName_isName {name : Text} (hne : name ≠ []) (hname : ∀ c ∈ name, isNameChar c = true) :
    spellName name ≠ [] ∧ ∀ c ∈ spellName name, isNameChar c = true := by
  unfold spellName
  cases hlookup : lookup? nameTable name with
  | none =>
    refine ⟨?_, fun c hc => isNameChar_of_mem_camelCaseFrom hname hc⟩
    intro hnil
    have hhead := head?_camelCase name
    rw [Option.getD_none] at hnil
    rw [hnil, List.head?_nil, eq_comm, List.head?_eq_none_iff] at hhead
    exact hne hhead
  | some target =>
    have htable : ∀ entry ∈ nameTable, entry.2 ≠ [] ∧ entry.2.all isNameChar = true := by decide
    obtain ⟨entry, hmem, rfl⟩ := exists_mem_of_lookup? hlookup
    obtain ⟨hentry, hall⟩ := htable entry hmem
    exact ⟨hentry, List.all_eq_true.1 hall⟩

/-- A keyword is spelled as before, and no other name is spelled like a keyword. -/
lemma spellName_eq_source_iff {name : Text} {k : Keyword} :
    spellName name = k.source ↔ name = k.source := by
  constructor
  · intro h
    unfold spellName at h
    cases hlookup : lookup? nameTable name with
    | none =>
      rw [hlookup, Option.getD_none] at h
      have hlower : k.source.all Char.isLower = true := by cases k <;> rfl
      rw [← h] at hlower
      rw [← h]
      exact (camelCaseFrom_eq_self (List.all_eq_true.1 hlower)).symm
    | some target =>
      have htable : ∀ entry ∈ nameTable, entry.2 ≠ k.source := by cases k <;> decide
      obtain ⟨entry, hmem, rfl⟩ := exists_mem_of_lookup? hlookup
      rw [hlookup] at h
      exact absurd h (htable entry hmem)
  · rintro rfl
    cases k <;> decide

/-- A character that can start a name can stand in one. -/
lemma isNameChar_of_isNameStart {c : Char} (h : isNameStart c = true) : isNameChar c = true := by
  simp only [isNameStart, Bool.or_eq_true] at h
  rcases h with halpha | hunderscore
  · simp [isNameChar, Char.isAlphanum, halpha]
  · simp [isNameChar, hunderscore]

lemma isNameStart_of_isLower {c : Char} (h : c.isLower = true) : isNameStart c = true := by
  simp [isNameStart, Char.isAlpha, h]

/-- A name at the start of a text is spelled for the target. -/
lemma spellNames_of_isNameStart {c : Char} (hc : isNameStart c = true) (t : Text) :
    spellNames (c :: t) =
      spellName ((c :: t).takeWhile isNameChar) ++
        spellNamesFrom true ((c :: t).dropWhile isNameChar) := by
  rw [spellNames, spellNamesFrom, if_pos (by simp [hc])]
  simp [isNameChar_of_isNameStart hc]

/-- Spelling the names of a text replaces runs of inert characters. -/
lemma alike_spellNamesFrom (inWord : Bool) (t : Text) : Alike t (spellNamesFrom inWord t) := by
  fun_induction spellNamesFrom inWord t with
  | case1 => exact .nil
  | case2 inWord c t h ih =>
    have hstart : isNameChar c = true := by
      simp only [Bool.and_eq_true] at h
      exact isNameChar_of_isNameStart h.2
    have hname : ∀ d ∈ c :: t.takeWhile isNameChar, isNameChar d = true := by
      intro d hd
      rcases List.mem_cons.1 hd with rfl | hd
      · exact hstart
      · exact List.mem_takeWhile_imp hd
    have hinert : ∀ {d : Char}, isNameChar d = true → isInert d = true := by
      intro d hd
      simp [isInert, hd]
    obtain ⟨hne, hspelled⟩ := spellName_isName (List.cons_ne_nil c _) hname
    have hrun := ih.run (List.cons_ne_nil c (t.takeWhile isNameChar)) hne
      (fun d hd => hinert (hname d hd)) (fun d hd => hinert (hspelled d hd))
    rwa [List.cons_append, List.takeWhile_append_dropWhile] at hrun
  | case3 inWord c t h ih => exact .cons c ih

lemma alike_spellNames (t : Text) : Alike t (spellNames t) :=
  alike_spellNamesFrom false t

/-- The first character behind a word stays. -/
lemma head?_spellNamesFrom_true (t : Text) : (spellNamesFrom true t).head? = t.head? := by
  cases t with
  | nil => simp [spellNamesFrom]
  | cons c t => simp [spellNamesFrom]

/-! ### Comparisons -/

/-- Making comparisons strict replaces runs of inert characters. -/
lemma alike_strictEqualityFrom (previous : Option Char) (t : Text) :
    Alike t (strictEqualityFrom previous t) := by
  fun_induction strictEqualityFrom previous t with
  | case1 => exact .nil
  | case2 _ c => exact .refl [c]
  | case3 previous c d t h ih =>
    obtain ⟨rfl, -, hbegins⟩ := h
    have hc : isInert c = true := by
      simp only [beginsComparison, Bool.or_eq_true, Bool.and_eq_true, beq_iff_eq] at hbegins
      rcases hbegins with ⟨rfl, -⟩ | rfl <;> decide
    have hequals : isInert '=' = true := by decide
    exact ih.run (u := [c, '=']) (v := [c, '=', '=']) (by simp) (by simp) (by simp [hc, hequals])
      (by simp [hc, hequals])
  | case4 previous c d t h ih => exact .cons c ih

lemma alike_strictEquality (t : Text) : Alike t (strictEquality t) :=
  alike_strictEqualityFrom none t

/-- The first character of a text stays. -/
lemma head?_strictEqualityFrom (previous : Option Char) (t : Text) :
    (strictEqualityFrom previous t).head? = t.head? := by
  match t with
  | [] => rfl
  | [c] => rfl
  | c :: d :: t =>
    rw [strictEqualityFrom]
    split <;> rfl

/-- A character that begins no comparison is passed over. -/
lemma strictEqualityFrom_cons {c : Char} (hequals : c ≠ '=') (hnot : c ≠ '!')
    (previous : Option Char) (t : Text) :
    strictEqualityFrom previous (c :: t) = c :: strictEqualityFrom (some c) t := by
  have hbegins : beginsComparison previous c = false := by simp [beginsComparison, hequals, hnot]
  cases t with
  | nil => rfl
  | cons d t => rw [strictEqualityFrom, if_neg (by simp [hbegins])]

/-- Lower-case letters are passed over. -/
lemma exists_strictEqualityFrom_append (previous : Option Char) {letters : Text}
    (hletters : ∀ c ∈ letters, c.isLower = true) (t : Text) :
    ∃ previous', strictEqualityFrom previous (letters ++ t) =
      letters ++ strictEqualityFrom previous' t := by
  induction letters generalizing previous with
  | nil => exact ⟨previous, rfl⟩
  | cons c letters ih =>
    have hc := hletters c (by simp)
    obtain ⟨previous', h⟩ := ih (some c) fun d hd => hletters d (List.mem_cons_of_mem _ hd)
    refine ⟨previous', ?_⟩
    have hequals : c ≠ '=' := by
      rintro rfl
      cases hc
    have hnot : c ≠ '!' := by
      rintro rfl
      cases hc
    rw [List.cons_append, strictEqualityFrom_cons hequals hnot, h, List.cons_append]

/-- Lower-case letters come from the same letters. -/
lemma exists_eq_append_of_strictEqualityFrom {previous : Option Char} {letters t rest : Text}
    (hletters : ∀ c ∈ letters, c.isLower = true)
    (h : strictEqualityFrom previous t = letters ++ rest) : ∃ rest', t = letters ++ rest' := by
  induction letters generalizing previous t with
  | nil => exact ⟨t, rfl⟩
  | cons c letters ih =>
    have hc := hletters c (by simp)
    have hhead := head?_strictEqualityFrom previous t
    rw [h, List.cons_append, List.head?_cons, eq_comm, List.head?_eq_some_iff] at hhead
    obtain ⟨t', rfl⟩ := hhead
    rw [strictEqualityFrom_cons (by rintro rfl; cases hc) (by rintro rfl; cases hc),
      List.cons_append, List.cons.injEq] at h
    obtain ⟨rest', rfl⟩ := ih (fun d hd => hletters d (List.mem_cons_of_mem _ hd)) h.2
    exact ⟨rest', rfl⟩

/-! ### Keywords -/

/-- The results of reading a keyword from two texts are alike. -/
def SameStart (s t : Text) : Prop :=
  Option.Rel (fun x y => x.1 = y.1 ∧ Alike x.2 y.2) (Keyword.ofStart? s) (Keyword.ofStart? t)

/-- Two texts start alike if each keyword that one of them starts with is the start of the other,
and the rests are alike. -/
lemma sameStart_of_forall {s t : Text}
    (hto : ∀ (k : Keyword) rest, s = k.source ++ rest → rest.head?.any isWord = false →
      ∃ rest', t = k.source ++ rest' ∧ rest'.head? = rest.head? ∧ Alike rest rest')
    (hfrom : ∀ (k : Keyword) rest, t = k.source ++ rest → rest.head?.any isWord = false →
      ∃ rest', s = k.source ++ rest' ∧ rest'.head? = rest.head?) : SameStart s t := by
  unfold SameStart
  cases hs : Keyword.ofStart? s with
  | some found =>
    obtain ⟨k, rest⟩ := found
    obtain ⟨happend, hrest⟩ := Keyword.ofStart?_eq_some hs
    obtain ⟨rest', rfl, hhead, halike⟩ := hto k rest happend hrest
    rw [k.ofStart?_source_append (by rw [hhead, hrest])]
    exact .some ⟨rfl, halike⟩
  | none =>
    cases ht : Keyword.ofStart? t with
    | none => exact .none
    | some found =>
      obtain ⟨k, rest⟩ := found
      obtain ⟨happend, hrest⟩ := Keyword.ofStart?_eq_some ht
      obtain ⟨rest', rfl, hhead⟩ := hfrom k rest happend hrest
      rw [k.ofStart?_source_append (by rw [hhead, hrest])] at hs
      cases hs

/-- Strict comparisons leave a keyword at the start of a text alone. -/
lemma sameStart_strictEquality (t : Text) : SameStart t (strictEquality t) := by
  have hlower : ∀ k : Keyword, ∀ c ∈ k.source, c.isLower = true := by
    intro k
    rw [← List.all_eq_true]
    cases k <;> rfl
  refine sameStart_of_forall ?_ ?_
  · rintro k rest rfl hrest
    obtain ⟨previous', h⟩ := exists_strictEqualityFrom_append none (hlower k) rest
    exact ⟨_, h, head?_strictEqualityFrom _ _, alike_strictEqualityFrom _ _⟩
  · intro k rest h hrest
    obtain ⟨rest', rfl⟩ := exists_eq_append_of_strictEqualityFrom (hlower k) h
    obtain ⟨previous', h'⟩ := exists_strictEqualityFrom_append none (hlower k) rest'
    rw [strictEquality, h', List.append_cancel_left_eq] at h
    rw [← h]
    exact ⟨rest', rfl, (head?_strictEqualityFrom _ _).symm⟩

/-- Spelling names leaves a keyword at the start of a text alone, and makes none. -/
lemma sameStart_spellNames (t : Text) : SameStart t (spellNames t) := by
  refine sameStart_of_forall ?_ ?_
  · rintro k rest rfl hrest
    obtain ⟨first, letters, hsource, hfirst, -⟩ := k.exists_source_eq_cons
    have hspell := spellNames_of_isNameStart (isNameStart_of_isLower hfirst) (letters ++ rest)
    have hdrop : (k.source ++ rest).dropWhile isNameChar = rest := by
      have hsplit := List.takeWhile_append_dropWhile (p := isNameChar) (l := k.source ++ rest)
      rw [k.takeWhile_source_append hrest] at hsplit
      exact List.append_cancel_left hsplit
    rw [← List.cons_append, ← hsource, k.takeWhile_source_append hrest, hdrop,
      spellName_eq_source_iff.2 rfl] at hspell
    exact ⟨_, hspell, head?_spellNamesFrom_true rest, alike_spellNamesFrom true rest⟩
  · intro k rest h hrest
    obtain ⟨first, letters, hsource, hfirst, -⟩ := k.exists_source_eq_cons
    cases t with
    | nil =>
      rw [hsource] at h
      simp [spellNames, spellNamesFrom] at h
    | cons c t =>
      have hc : isNameStart c = true := by
        by_contra hc
        rw [hsource, spellNames, spellNamesFrom, if_neg (by simpa using hc), List.cons_append,
          List.cons.injEq] at h
        rw [h.1, isNameStart_of_isLower hfirst] at hc
        exact hc rfl
      have hmore : ∀ d, ((c :: t).dropWhile isNameChar).head? = some d → isNameChar d = false := by
        intro d hd
        have hnot := List.head?_dropWhile_not isNameChar (c :: t)
        rw [hd] at hnot
        simpa using hnot
      have hname : ∀ d ∈ (c :: t).takeWhile isNameChar, isNameChar d = true :=
        fun d hd => List.mem_takeWhile_imp hd
      have hne : (c :: t).takeWhile isNameChar ≠ [] := by
        simp [isNameChar_of_isNameStart hc]
      rw [spellNames_of_isNameStart hc] at h
      -- Both sides start with the same name, up to the first character that is in none.
      have hkeyword : (c :: t).takeWhile isNameChar = k.source := by
        have htake := congrArg (List.takeWhile isNameChar) h
        rw [k.takeWhile_source_append hrest, (takeWhile_dropWhile_append
          (spellName_isName hne hname).2 (by rwa [head?_spellNamesFrom_true])).1] at htake
        exact spellName_eq_source_iff.1 htake
      rw [hkeyword, spellName_eq_source_iff.2 rfl, List.append_cancel_left_eq] at h
      refine ⟨(c :: t).dropWhile isNameChar, ?_, ?_⟩
      · rw [← hkeyword, List.takeWhile_append_dropWhile]
      · rw [← h, head?_spellNamesFrom_true]

/-! ### Lines -/

/-- Spaces at the start of a line can be taken off and put back. -/
lemma spaces_append_drop {line : Text} {n : Nat} (h : n ≤ leadingSpaces line) :
    spaces n ++ line.drop n = line := by
  induction line generalizing n with
  | nil =>
    have hn : n = 0 := by simpa [leadingSpaces] using h
    rw [hn]
    rfl
  | cons c t ih =>
    cases n with
    | zero => rfl
    | succ n =>
      by_cases hc : c = ' '
      · have hn : n ≤ leadingSpaces t := by simpa [leadingSpaces, hc] using h
        rw [spaces, List.replicate_succ, List.drop_succ_cons, List.cons_append, hc]
        exact congrArg _ (ih hn)
      · simp [leadingSpaces, hc] at h

/-- Spaces that are dropped in front of a text are no longer counted. -/
lemma leadingSpaces_drop_add {t : Text} {n : Nat} (hn : n ≤ leadingSpaces t) :
    leadingSpaces (t.drop n) + n = leadingSpaces t := by
  conv_rhs => rw [← spaces_append_drop hn]
  rw [leadingSpaces_spaces_append, Nat.add_comm]

/-- Indentation is kept when names are spelled. -/
lemma spellNames_spaces_append (n : Nat) (t : Text) :
    spellNames (spaces n ++ t) = spaces n ++ spellNames t := by
  induction n with
  | zero => rfl
  | succ n ih =>
    have hstart : isNameStart ' ' = false := by decide
    have hword : isWord ' ' = false := by decide
    rw [spaces, List.replicate_succ, List.cons_append, spellNames, spellNamesFrom,
      if_neg (by simp [hstart]), hword, List.cons_append]
    exact congrArg _ ih

/-- Indentation is kept when comparisons are made strict. -/
lemma strictEquality_spaces_append (n : Nat) (t : Text) :
    strictEquality (spaces n ++ t) = spaces n ++ strictEquality t := by
  -- A space in front of a comparison is as good as the start of the line.
  have hspace : ∀ t, strictEqualityFrom (some ' ') t = strictEqualityFrom none t := by
    intro t
    match t with
    | [] => rfl
    | [c] => rfl
    | c :: d :: t => rfl
  induction n with
  | zero => rfl
  | succ n ih =>
    rw [spaces, List.replicate_succ, List.cons_append, strictEquality,
      strictEqualityFrom_cons (by decide) (by decide), hspace, List.cons_append]
    exact congrArg _ ih

/-- Indentation is kept by the lexical pass. -/
@[simp] lemma leadingSpaces_convertLexical (line : Text) :
    leadingSpaces (convertLexical line) = leadingSpaces line := by
  rw [convertLexical, ← (alike_strictEquality (spellNames line)).leadingSpaces_eq,
    ← (alike_spellNames line).leadingSpaces_eq]

/-- Blank lines stay blank, and other lines do not become so. -/
@[simp] lemma isBlank_convertLexical (line : Text) :
    isBlank (convertLexical line) = isBlank line := by
  rw [convertLexical, ← (alike_strictEquality (spellNames line)).isBlank_eq,
    ← (alike_spellNames line).isBlank_eq]

/-- A function that keeps spaces in front of a text can be applied behind the indentation. -/
lemma drop_of_spaces_append {f : Text → Text} (hf : ∀ n t, f (spaces n ++ t) = spaces n ++ f t)
    (line : Text) :
    (f line).drop (leadingSpaces line) = f (line.drop (leadingSpaces line)) := by
  have hline := hf (leadingSpaces line) (line.drop (leadingSpaces line))
  rw [spaces_append_drop le_rfl] at hline
  rw [hline, drop_spaces_append]

lemma convertLexical_spaces_append (n : Nat) (t : Text) :
    convertLexical (spaces n ++ t) = spaces n ++ convertLexical t := by
  rw [convertLexical, spellNames_spaces_append, strictEquality_spaces_append]
  rfl

/-- A closing brace stays one, and no other line becomes one. -/
lemma convertLexical_eq_closingLine_iff {line : Text} {indent : Nat} :
    convertLexical line = closingLine indent ↔ line = closingLine indent := by
  have hbrace : convertLexical ['\x7d'] = ['\x7d'] := by
    rw [convertLexical, spellNames, spellNamesFrom, if_neg (by decide), spellNamesFrom]
    rfl
  constructor
  · intro h
    have hindent : leadingSpaces line = indent := by
      rw [← leadingSpaces_convertLexical, h, leadingSpaces_closingLine]
    have hdrop := drop_of_spaces_append convertLexical_spaces_append line
    rw [h, hindent, drop_closingLine] at hdrop
    have hstrict := alike_strictEquality (spellNames (line.drop indent))
    rw [← convertLexical, ← hdrop] at hstrict
    have hspell := alike_spellNames (line.drop indent)
    rw [hstrict.eq_brace] at hspell
    rw [← spaces_append_drop hindent.ge, hspell.eq_brace]
    rfl
  · rintro rfl
    rw [closingLine, convertLexical_spaces_append]
    exact congrArg _ hbrace

/-- The keyword of the clause that a line holds. -/
lemma Clause.map_keyword_parse? {line : Text} (hnl : '\n' ∉ line) :
    (parse? line).map keyword =
      (Keyword.ofStart? (line.drop (leadingSpaces line))).bind fun start =>
        (cutColonFrom? {} start.2).bind fun cut =>
          if admits start.1 cut.1 then some start.1 else none := by
  unfold parse?
  simp only [hnl, ↓reduceIte, Option.bind_eq_bind, Option.map_bind]
  refine Option.bind_congr fun start _ => ?_
  rw [Function.comp_apply, Option.map_bind]
  refine Option.bind_congr fun cut _ => ?_
  by_cases hadmits : admits start.1 cut.1 <;> simp [hadmits]

/-- Lines that are alike and start, behind the indentation, with the same keyword hold clauses with
the same keyword, or none. -/
lemma Clause.map_keyword_parse?_of_alike {line line' : Text} (h : Alike line line')
    (hstart : SameStart (line.drop (leadingSpaces line)) (line'.drop (leadingSpaces line'))) :
    (parse? line').map keyword = (parse? line).map keyword := by
  have hnl : '\n' ∈ line ↔ '\n' ∈ line' := h.mem_iff (by decide)
  by_cases hmem : '\n' ∈ line
  · simp [parse?, hmem, hnl.1 hmem]
  · rw [map_keyword_parse? hmem, map_keyword_parse? (mt hnl.2 hmem)]
    have hadmits : ∀ (k : Keyword) {s t : Text}, Alike s t → admits k s = admits k t := by
      intro k s t hst
      unfold admits
      rw [hst.isBlank_eq]
    revert hstart
    unfold SameStart
    generalize Keyword.ofStart? (line.drop (leadingSpaces line)) = start
    generalize Keyword.ofStart? (line'.drop (leadingSpaces line')) = start'
    intro hstart
    cases hstart with
    | none => rfl
    | @some start start' hsame =>
      obtain ⟨hkeyword, hrest⟩ := hsame
      have hcut : Option.Rel _ (cutColonFrom? {} start.2) (cutColonFrom? {} start'.2) :=
        hrest.rel_cutColonFrom? trivial
      simp only [Option.bind_some]
      revert hcut
      generalize cutColonFrom? {} start.2 = cut
      generalize cutColonFrom? {} start'.2 = cut'
      intro hcut
      cases hcut with
      | none => rfl
      | some hparts =>
        simp only [Option.bind_some]
        rw [← hkeyword, hadmits _ hparts.1]

/-- A line holds a clause after the lexical pass exactly if it did before, and with the same
keyword. -/
lemma Clause.map_keyword_parse?_convertLexical (line : Text) :
    (parse? (convertLexical line)).map keyword = (parse? line).map keyword := by
  have hspell := alike_spellNames line
  have hstrict := alike_strictEquality (spellNames line)
  rw [convertLexical, map_keyword_parse?_of_alike hstrict, map_keyword_parse?_of_alike hspell]
  · rw [← hspell.leadingSpaces_eq, drop_of_spaces_append spellNames_spaces_append]
    exact sameStart_spellNames _
  · rw [← hstrict.leadingSpaces_eq, drop_of_spaces_append strictEquality_spaces_append]
    exact sameStart_strictEquality _

end Rebrace
