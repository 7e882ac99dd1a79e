import Mathlib
import Rebrace.Proofs.ParameterNames

/-!
# The lexical pass is stable

The lexical pass spells names and makes comparisons strict.  Each of the two leaves alone what it
has written before, `spellNamesFrom_spellNamesFrom` and `strictEqualityFrom_strictEqualityFrom`,
and neither sees what the other one has done, `spellNamesFrom_strictEqualityFrom`: a comparison
holds no character of a name, and a name is spelled by a name again, which is never empty.  So the
pass can be repeated without any change: `convertLexical_stable`.

Camel case has no underscore between two lower-case letters or digits, and a text without such an
underscore is in camel case.  This is a property of all parts of a text, so that the lexical pass
finds no underscore to drop in a name that was written in camel case before.  It may still take the
start of a word for a name, up to its first letter beyond ASCII: `convertLexical_ne_of_accent`.
-/

namespace Rebrace

open Text

/-! ### Texts in camel case -/

/-- A text without an underscore between two lower-case letters or digits. -/
def IsCamelCase (t : Text) : Prop :=
  ∀ a b, isLowerOrDigit a = true → isLowerOrDigit b = true → ¬ [a, '_', b] <:+: t

/-- Camel case leaves a text alone if it drops no underscore, neither at the start of the text nor
inside it. -/
lemma camelCaseFrom_eq_self_iff {joins : Bool} {t : Text} :
    camelCaseFrom joins t = t ↔
      (joins = true → ∀ b, isLowerOrDigit b = true → ¬ ['_', b] <+: t) ∧ IsCamelCase t := by
  fun_induction camelCaseFrom joins t with
  | case1 => simp [IsCamelCase]
  | case2 joins c => simp [IsCamelCase, List.infix_cons_iff, List.prefix_cons_iff]
  | case3 joins c d t hjoins ih =>
    refine iff_of_false (fun heq => ?_) (fun hkept => ?_)
    · rw [List.cons.injEq, hjoins.1] at heq
      exact toUpper_ne_underscore hjoins.2.2 heq.1
    · exact hkept.1 hjoins.2.1 d hjoins.2.2 ⟨t, by rw [hjoins.1]; rfl⟩
  | case4 joins c d t hjoins ih =>
    have hstart : joins = true → ∀ b, isLowerOrDigit b = true → ¬ ['_', b] <+: c :: d :: t := by
      rintro hj b hb ⟨rest, hrest⟩
      simp only [List.cons_append, List.cons.injEq] at hrest
      exact hjoins ⟨hrest.1.symm, hj, hrest.2.1 ▸ hb⟩
    rw [List.cons.injEq, and_iff_right rfl, ih, and_iff_right hstart]
    constructor
    · rintro ⟨hfirst, hinside⟩ a b ha hb hpair
      rcases List.infix_cons_iff.1 hpair with ⟨rest, hrest⟩ | hpair
      · rw [List.cons_append, List.cons.injEq] at hrest
        exact hfirst (hrest.1 ▸ ha) b hb ⟨rest, hrest.2⟩
      · exact hinside a b ha hb hpair
    · intro hall
      refine ⟨?_, fun a b ha hb hpair => hall a b ha hb (List.infix_cons hpair)⟩
      rintro hc b hb ⟨rest, hrest⟩
      exact hall c b hc hb ⟨[], rest, by simp [← hrest]⟩

/-- **A text is in camel case exactly if camel case leaves it alone.** -/
lemma camelCase_eq_self_iff {t : Text} : camelCase t = t ↔ IsCamelCase t := by
  rw [camelCase, camelCaseFrom_eq_self_iff, and_iff_right (by simp)]

lemma isCamelCase_camelCase (name : Text) : IsCamelCase (camelCase name) :=
  camelCase_eq_self_iff.1 (camelCase_camelCase name)

/-- Every part of a text in camel case is in camel case. -/
lemma IsCamelCase.of_infix {s t : Text} (h : IsCamelCase t) (hst : s <:+: t) : IsCamelCase s :=
  fun a b ha hb hpair => h a b ha hb (hpair.trans hst)

/-- A name in camel case is changed only if it has a spelling of its own. -/
lemma IsCamelCase.spellName_eq {name : Text} (h : IsCamelCase name) :
    spellName name = (lookup? nameTable name).getD name := by
  rw [spellName, camelCase_eq_self_iff.2 h]

/-! ### Names -/

/-- A text that is one name. -/
structure IsName (name : Text) : Prop where
  /-- The first character can start a name. -/
  start : name.head?.any isNameStart = true
  /-- All characters can stand in a name. -/
  chars : ∀ c ∈ name, isNameChar c = true

/-- The characters of names that follow the start of a name belong to it. -/
lemma isName_cons_takeWhile {c : Char} (hc : isNameStart c = true) (t : Text) :
    IsName (c :: t.takeWhile isNameChar) :=
  ⟨hc, List.forall_mem_cons.2
    ⟨isNameChar_of_isNameStart hc, fun _ hd => List.mem_takeWhile_imp hd⟩⟩

/-- Behind a name there is no character of a name. -/
lemma isNameChar_head?_dropWhile (t : Text) :
    ∀ c ∈ (t.dropWhile isNameChar).head?, isNameChar c = false := by
  intro c hc
  have hnot := List.head?_dropWhile_not isNameChar t
  rw [Option.mem_def.1 hc] at hnot
  simpa using hnot

namespace IsName

variable {name : Text} (h : IsName name)

include h

lemma ne_nil : name ≠ [] := by
  rintro rfl
  exact absurd h.start (by simp)

/-- The spelling of a name is a name. -/
lemma spellName : IsName (spellName name) := by
  obtain ⟨-, hchars⟩ := spellName_isName h.ne_nil h.chars
  refine ⟨?_, hchars⟩
  unfold Rebrace.spellName
  cases hlookup : lookup? nameTable name with
  | none => rw [Option.getD_none, head?_camelCase, h.start]
  | some target =>
    have htable : ∀ entry ∈ nameTable, entry.2.head?.any isNameStart = true := by decide
    obtain ⟨entry, hmem, rfl⟩ := exists_mem_of_lookup? hlookup
    exact htable entry hmem

/-- A name is spelled as a whole, and nothing of what follows it is part of it. -/
lemma spellNamesFrom_append {rest : Text} (hrest : ∀ c ∈ rest.head?, isNameChar c = false) :
    spellNamesFrom false (name ++ rest) = Rebrace.spellName name ++ spellNamesFrom true rest := by
  obtain ⟨c, more, rfl⟩ := List.exists_cons_of_ne_nil h.ne_nil
  obtain ⟨htake, hdrop⟩ := takeWhile_dropWhile_append h.chars hrest
  have hspell := spellNames_of_isNameStart (c := c) (by simpa using h.start) (more ++ rest)
  rwa [← List.cons_append, htake, hdrop] at hspell

/-- A name has no influence on the comparisons behind it. -/
lemma strictEqualityFrom_append (previous : Option Char) (rest : Text) :
    strictEqualityFrom previous (name ++ rest) = name ++ strictEquality rest :=
  Rebrace.strictEqualityFrom_append h.ne_nil
    (fun c hc => isComparisonSign_eq_false_of_isNameChar (h.chars c hc)) previous rest

end IsName

/-- The spelling of a name is spelled as it stands. -/
lemma spellName_spellName (name : Text) : spellName (spellName name) = spellName name := by
  cases hlookup : lookup? nameTable name with
  | none =>
    have hspell : spellName name = camelCase name := by rw [spellName, hlookup, Option.getD_none]
    rw [hspell, spellName_camelCase, hspell]
  | some target =>
    have htable : ∀ entry ∈ nameTable, spellName entry.2 = entry.2 := by decide
    have hspell : spellName name = target := by rw [spellName, hlookup, Option.getD_some]
    obtain ⟨entry, hmem, rfl⟩ := exists_mem_of_lookup? hlookup
    rw [hspell, htable entry hmem]

/-- **Names are spelled once and for all.** -/
lemma spellNamesFrom_spellNamesFrom (inWord : Bool) (t : Text) :
    spellNamesFrom inWord (spellNamesFrom inWord t) = spellNamesFrom inWord t := by
  fun_induction spellNamesFrom inWord t with
  | case1 => simp [spellNamesFrom]
  | case2 inWord c t h ih =>
    obtain ⟨rfl, hc⟩ : inWord = false ∧ isNameStart c = true := by simpa using h
    have hname := (isName_cons_takeWhile hc t).spellName
    -- The next name starts where it did, since the character behind this one is kept.
    rw [hname.spellNamesFrom_append, spellName_spellName, ih]
    rw [head?_spellNamesFrom_true]
    exact isNameChar_head?_dropWhile t
  | case3 inWord c t h ih => rw [spellNamesFrom, if_neg h, ih]

/-! ### Comparisons -/

/-- Does `c`, behind `previous` and in front of `t`, begin a comparison that is not strict? -/
def beginsLoose (previous : Option Char) (c : Char) (t : Text) : Bool :=
  t.head? == some '=' && t.tail.head? != some '=' && beginsComparison previous c

/-- Comparisons are made strict character by character: what begins one gets one more `=`. -/
lemma strictEqualityFrom_cons_eq (previous : Option Char) (c : Char) (t : Text) :
    strictEqualityFrom previous (c :: t) =
      c :: if beginsLoose previous c t then '=' :: strictEqualityFrom (some '=') t
        else strictEqualityFrom (some c) t := by
  cases t with
  | nil => rfl
  | cons d t =>
    rw [strictEqualityFrom]
    by_cases hloose : d = '=' ∧ t.head? ≠ some '=' ∧ beginsComparison previous c
    · obtain ⟨rfl, hhead, hbegins⟩ := hloose
      have hbehind : beginsComparison (some '=') '=' = false := by decide
      have hnext : strictEqualityFrom (some '=') ('=' :: t) =
          '=' :: strictEqualityFrom (some '=') t := by
        cases t with
        | nil => rfl
        | cons e t => rw [strictEqualityFrom, if_neg (by simp [hbehind])]
      rw [if_pos ⟨rfl, hhead, hbegins⟩, if_pos (by simp [beginsLoose, hhead, hbegins]), hnext]
    · rw [if_neg hloose, if_neg]
      rintro hbegins
      simp only [beginsLoose, List.head?_cons, List.tail_cons, Bool.and_eq_true, beq_iff_eq,
        Option.some.injEq, bne_iff_ne] at hbegins
      exact hloose ⟨hbegins.1.1, hbegins.1.2, hbegins.2⟩

/-- What begins a comparison is a sign, and an `=` behind it begins no other one. -/
lemma sign_of_beginsLoose {previous : Option Char} {c : Char} {t : Text}
    (h : beginsLoose previous c t = true) :
    isWord c = false ∧ t.head? = some '=' ∧ ∀ u, beginsLoose (some c) '=' u = false := by
  simp only [beginsLoose, beginsComparison, Bool.and_eq_true, Bool.or_eq_true, beq_iff_eq] at h
  obtain ⟨⟨hhead, -⟩, ⟨rfl, -⟩ | rfl⟩ := h
  · exact ⟨by decide, hhead, fun u => by simp [beginsLoose, beginsComparison]⟩
  · exact ⟨by decide, hhead, fun u => by simp [beginsLoose, beginsComparison]⟩

/-- A run of two equals signs stays at least as long. -/
lemma head?_tail_strictEqualityFrom {t : Text} (hhead : t.head? = some '=')
    (h : t.tail.head? = some '=') (previous : Option Char) :
    (strictEqualityFrom previous t).tail.head? = some '=' := by
  obtain ⟨t, rfl⟩ := List.head?_eq_some_iff.1 hhead
  rw [strictEqualityFrom_cons_eq]
  split
  · rfl
  · exact (head?_strictEqualityFrom _ _).trans h

/-- **Comparisons are made strict once and for all.** -/
lemma strictEqualityFrom_strictEqualityFrom (previous : Option Char) (t : Text) :
    strictEqualityFrom previous (strictEqualityFrom previous t) =
      strictEqualityFrom previous t := by
  induction t generalizing previous with
  | nil => rfl
  | cons c t ih =>
    rw [strictEqualityFrom_cons_eq previous c t]
    cases hloose : beginsLoose previous c t with
    | true =>
      obtain ⟨-, hhead, hbehind⟩ := sign_of_beginsLoose hloose
      have hstrict : beginsLoose previous c ('=' :: strictEqualityFrom (some '=') t) = false := by
        simp [beginsLoose, head?_strictEqualityFrom, hhead]
      rw [if_pos rfl, strictEqualityFrom_cons_eq, hstrict, if_neg (by simp),
        strictEqualityFrom_cons_eq, hbehind, if_neg (by simp), ih]
    | false =>
      have hstrict : beginsLoose previous c (strictEqualityFrom (some c) t) = false := by
        simp only [beginsLoose, head?_strictEqualityFrom, Bool.and_eq_false_iff,
          beq_eq_false_iff_ne, bne_eq_false_iff_eq] at hloose ⊢
        rcases hloose with (hloose | hloose) | hloose
        · exact .inl (.inl hloose)
        · by_cases hhead : t.head? = some '='
          · exact .inl (.inr (head?_tail_strictEqualityFrom hhead hloose _))
          · exact .inl (.inl hhead)
        · exact .inr hloose
      rw [if_neg (by simp), strictEqualityFrom_cons_eq, hstrict, if_neg (by simp), ih]

/-! ### Names and comparisons -/

/-- An equals sign is at the start of a text before its names are spelled exactly if it is
afterwards. -/
lemma head?_spellNamesFrom_eq_equals (inWord : Bool) (t : Text) :
    ((spellNamesFrom inWord t).head? == some '=') = (t.head? == some '=') := by
  cases t with
  | nil => simp [spellNamesFrom]
  | cons c t =>
    by_cases h : (!inWord && isNameStart c) = true
    · obtain ⟨rfl, hc⟩ : inWord = false ∧ isNameStart c = true := by simpa using h
      have hne : ∀ d, isNameStart d = true → d ≠ '=' := by
        rintro d hd rfl
        exact absurd hd (by decide)
      have hname := (isName_cons_takeWhile hc t).spellName
      obtain ⟨d, more, hcons⟩ := List.exists_cons_of_ne_nil hname.ne_nil
      have hd : isNameStart d = true := by simpa [hcons] using hname.start
      rw [spellNamesFrom, if_pos h, hcons]
      simp [hne c hc, hne d hd]
    · rw [spellNamesFrom, if_neg h]
      rfl

/-- Spelling the names behind a sign changes nothing about the comparison that it begins. -/
lemma beginsLoose_spellNamesFrom (previous : Option Char) (c : Char) (inWord : Bool) (t : Text) :
    beginsLoose previous c (spellNamesFrom inWord t) = beginsLoose previous c t := by
  have hhead := head?_spellNamesFrom_eq_equals inWord t
  by_cases hequals : t.head? = some '='
  · obtain ⟨t, rfl⟩ := List.head?_eq_some_iff.1 hequals
    have hstart : isNameStart '=' = false := by decide
    have htail := head?_spellNamesFrom_eq_equals (isWord '=') t
    rw [spellNamesFrom, if_neg (by simp [hstart])]
    simp only [beginsLoose, List.tail_cons, List.head?_cons, bne, htail]
  · have hother : (t.head? == some '=') = false := by simpa using hequals
    rw [beginsLoose, beginsLoose, hhead, hother]
    rfl

/-- **Names and comparisons can be written in either order.** -/
lemma spellNamesFrom_strictEqualityFrom (inWord : Bool) (previous : Option Char) (t : Text) :
    spellNamesFrom inWord (strictEqualityFrom previous t) =
      strictEqualityFrom previous (spellNamesFrom inWord t) := by
  fun_induction spellNamesFrom inWord t generalizing previous with
  | case1 => simp [spellNamesFrom, strictEqualityFrom]
  | case2 inWord c t h ih =>
    obtain ⟨rfl, hc⟩ : inWord = false ∧ isNameStart c = true := by simpa using h
    have hname := isName_cons_takeWhile hc t
    have hrest : ∀ d ∈ (strictEquality (t.dropWhile isNameChar)).head?, isNameChar d = false := by
      rw [strictEquality, head?_strictEqualityFrom]
      exact isNameChar_head?_dropWhile t
    calc spellNamesFrom false (strictEqualityFrom previous (c :: t))
        = spellNamesFrom false ((c :: t.takeWhile isNameChar) ++
            strictEquality (t.dropWhile isNameChar)) := by
          rw [← hname.strictEqualityFrom_append previous, List.cons_append,
            List.takeWhile_append_dropWhile]
      _ = spellName (c :: t.takeWhile isNameChar) ++
            spellNamesFrom true (strictEquality (t.dropWhile isNameChar)) :=
          hname.spellNamesFrom_append hrest
      _ = spellName (c :: t.takeWhile isNameChar) ++
            strictEquality (spellNamesFrom true (t.dropWhile isNameChar)) := by
          rw [strictEquality, ih none, strictEquality]
      _ = strictEqualityFrom previous (spellName (c :: t.takeWhile isNameChar) ++
            spellNamesFrom true (t.dropWhile isNameChar)) :=
          (hname.spellName.strictEqualityFrom_append previous _).symm
  | case3 inWord c t h ih =>
    rw [strictEqualityFrom_cons_eq, strictEqualityFrom_cons_eq, beginsLoose_spellNamesFrom,
      spellNamesFrom, if_neg h]
    cases hloose : beginsLoose previous c t with
    | true =>
      obtain ⟨hword, -, -⟩ := sign_of_beginsLoose hloose
      have hequals : isWord '=' = false := by decide
      have hstart : isNameStart '=' = false := by decide
      rw [if_pos rfl, if_pos rfl, spellNamesFrom, if_neg (by simp [hstart]), hequals, ← hword, ih]
    | false => rw [if_neg (by simp), if_neg (by simp), ih]

/-! ### The pass -/

/-- The lexical pass leaves a line alone that it has written before. -/
lemma convertLexical_convertLexical (line : Text) :
    convertLexical (convertLexical line) = convertLexical line := by
  calc convertLexical (convertLexical line)
      = strictEquality (strictEquality (spellNames (spellNames line))) :=
        congrArg strictEquality (spellNamesFrom_strictEqualityFrom false none _)
    _ = strictEquality (strictEquality (spellNames line)) :=
        congrArg (strictEquality ∘ strictEquality) (spellNamesFrom_spellNamesFrom false line)
    _ = convertLexical line := strictEqualityFrom_strictEqualityFrom none _

/-- A word is spelled up to its first character beyond ASCII, unless a digit stands in front. -/
lemma spellNames_of_isWord {word : Text} (hword : ∀ c ∈ word, isWord c = true)
    (hcamel : IsCamelCase word) :
    spellNames word = (lookup? nameTable (word.takeWhile isNameChar)).getD
      (word.takeWhile isNameChar) ++ word.dropWhile isNameChar := by
  cases word with
  | nil => simp [spellNames, spellNamesFrom, lookup?, nameTable]
  | cons c t =>
    by_cases hc : isNameStart c = true
    · have hrest : ∀ d ∈ (c :: t).dropWhile isNameChar, isWord d = true :=
        fun d hd => hword d ((List.dropWhile_sublist isNameChar).subset hd)
      have hpart := hcamel.of_infix (List.takeWhile_prefix isNameChar).isInfix
      rw [spellNames_of_isNameStart hc, spellNamesFrom_true_of_isWord hrest, hpart.spellName_eq]
    · -- The word is kept as a whole, and no name of the table starts like it.
      have htable : ∀ entry ∈ nameTable, entry.1.head?.any isNameStart = true := by decide
      have hnone : lookup? nameTable ((c :: t).takeWhile isNameChar) = none := by
        rw [lookup?, Option.map_eq_none_iff, List.find?_eq_none]
        intro entry hmem hentry
        have hstart := htable entry hmem
        rw [beq_iff_eq.1 hentry, List.takeWhile_cons] at hstart
        split at hstart
        · exact hc (by simpa using hstart)
        · cases hstart
      rw [hnone, Option.getD_none, List.takeWhile_append_dropWhile, spellNames, spellNamesFrom,
        if_neg (by simp [hc]), hword c List.mem_cons_self,
        spellNamesFrom_true_of_isWord fun d hd => hword d (List.mem_cons_of_mem _ hd)]

/-- The lexical pass changes a word in camel case only where it starts with a name that has a
spelling of its own. -/
lemma convertLexical_of_isWord {word : Text} (hword : ∀ c ∈ word, isWord c = true)
    (hcamel : IsCamelCase word) :
    convertLexical word = (lookup? nameTable (word.takeWhile isNameChar)).getD
      (word.takeWhile isNameChar) ++ word.dropWhile isNameChar := by
  by_cases hnil : word = []
  · rw [hnil]
    simp [lookup?, nameTable]
  · have hsign : ∀ c ∈ word, isComparisonSign c = false := by
      intro c hc
      rw [← Bool.not_eq_true]
      intro hsign
      simp only [isComparisonSign, Bool.or_eq_true, beq_iff_eq] at hsign
      have hchar := hword c hc
      rcases hsign with ((rfl | rfl) | rfl) | rfl <;> exact absurd hchar (by decide)
    -- Names and comparisons can be written in either order, and there are no comparisons.
    have hstrict := strictEqualityFrom_append hnil hsign none []
    rw [List.append_nil, ← strictEquality] at hstrict
    rw [convertLexical, ← spellNames_of_isWord hword hcamel, spellNames, strictEquality,
      ← spellNamesFrom_strictEqualityFrom, ← strictEquality, hstrict]
    simp [strictEquality, strictEqualityFrom]

/-- A word in camel case is left alone exactly if it does not start with a name that has a spelling
of its own. -/
lemma convertLexical_eq_iff_of_isWord {word : Text} (hword : ∀ c ∈ word, isWord c = true)
    (hcamel : IsCamelCase word) :
    convertLexical word = word ↔ lookup? nameTable (word.takeWhile isNameChar) = none := by
  have hparts := List.takeWhile_append_dropWhile (p := isNameChar) (l := word)
  rw [convertLexical_of_isWord hword hcamel]
  conv_lhs => rhs; rw [← hparts]
  rw [List.append_cancel_right_eq]
  cases hlookup : lookup? nameTable (word.takeWhile isNameChar) with
  | none => simp
  | some target =>
    -- No name is spelled by a name that has a spelling of its own.
    have htable : ∀ entry ∈ nameTable, lookup? nameTable entry.2 = none := by decide
    obtain ⟨entry, hmem, rfl⟩ := exists_mem_of_lookup? hlookup
    refine iff_of_false (fun heq => ?_) (by simp)
    rw [← heq, Option.getD_some, htable entry hmem] at hlookup
    cases hlookup

/-- The lexical pass leaves a name alone that is in camel case and has no spelling of its own. -/
lemma convertLexical_eq_self {name : Text} (hchars : ∀ c ∈ name, isNameChar c = true)
    (hcamel : IsCamelCase name) (htable : lookup? nameTable name = none) :
    convertLexical name = name := by
  refine (convertLexical_eq_iff_of_isWord (fun c hc => isWord_of_isNameChar (hchars c hc))
    hcamel).2 ?_
  rwa [List.takeWhile_eq_self_iff.2 hchars]

/-- A name that camel case changes is left alone by the lexical pass afterwards. -/
lemma convertLexical_camelCase {name : Text} (hchars : ∀ c ∈ name, isNameChar c = true)
    (hnew : camelCase name ≠ name) : convertLexical (camelCase name) = camelCase name :=
  convertLexical_eq_self (fun _ hc => isNameChar_of_mem_camelCaseFrom hchars hc)
    (isCamelCase_camelCase name) (lookup?_nameTable_eq_none hnew).2

/-- A name that is changed for a function header is left alone by the lexical pass afterwards. -/
lemma convertLexical_spellMethod {name : Text} (hchars : ∀ c ∈ name, isNameChar c = true)
    (hnew : spellMethod name ≠ name) : convertLexical (spellMethod name) = spellMethod name := by
  unfold spellMethod at hnew ⊢
  cases hlookup : lookup? methodTable name with
  | none =>
    rw [hlookup, Option.getD_none] at hnew
    exact convertLexical_camelCase hchars hnew
  | some target =>
    have htable : ∀ entry ∈ methodTable, entry.2.all isNameChar = true ∧
        camelCase entry.2 = entry.2 ∧ lookup? nameTable entry.2 = none := by decide
    obtain ⟨entry, hmem, rfl⟩ := exists_mem_of_lookup? hlookup
    obtain ⟨hentry, hcamel, hother⟩ := htable entry hmem
    exact convertLexical_eq_self (List.all_eq_true.1 hentry) (camelCase_eq_self_iff.1 hcamel) hother

/-- **The lexical pass is stable.**  A second run changes nothing, names and comparisons can be
written in either order, and camel case is written once and for all: of a word in camel case, the
pass changes at most a start that has a spelling of its own.  In ASCII the start is the whole name,
so that the pass does not change a name again that was changed for a function header; where a letter
beyond ASCII follows such a start, it does. -/
theorem convertLexical_stable (line name : Text) (widths : Widths) (lines : List Text) :
    convertLexical (convertLexical line) = convertLexical line ∧
      spellNames (strictEquality line) = strictEquality (spellNames line) ∧
      camelCase (camelCase name) = camelCase name ∧
      Pass.run widths (Pass.run widths lines .lexical).lines .lexical =
        Pass.run widths lines .lexical ∧
      ((∀ c ∈ name, isWord c = true) →
        convertLexical (camelCase name) =
            (lookup? nameTable ((camelCase name).takeWhile isNameChar)).getD
              ((camelCase name).takeWhile isNameChar) ++ (camelCase name).dropWhile isNameChar ∧
          (convertLexical (camelCase name) = camelCase name ↔
            lookup? nameTable ((camelCase name).takeWhile isNameChar) = none)) ∧
      ((∀ c ∈ name, isNameChar c = true) →
        (camelCase name ≠ name → convertLexical (camelCase name) = camelCase name) ∧
          (spellMethod name ≠ name → convertLexical (spellMethod name) = spellMethod name)) := by
  refine ⟨convertLexical_convertLexical line, spellNamesFrom_strictEqualityFrom false none line,
    camelCase_camelCase name, ?_, fun hword => ?_, fun hchars => ?_⟩
  · simp [Pass.run, convertLexical_convertLexical]
  · have hcamel := isCamelCase_camelCase name
    have hwordCamel : ∀ c ∈ camelCase name, isWord c = true :=
      fun c hc => isWord_of_mem_camelCaseFrom hword hc
    exact ⟨convertLexical_of_isWord hwordCamel hcamel,
      convertLexical_eq_iff_of_isWord hwordCamel hcamel⟩
  · exact ⟨convertLexical_camelCase hchars, convertLexical_spellMethod hchars⟩

/-- Digits and runs of underscores behind the start of a name of the table, and a letter beyond
ASCII. -/
theorem convertLexical_stable_digits :
    camelCase "self_2_d__x_y" = "self2D__xY".toList ∧
      convertLexical "self2D__xY" = "self2D__xY".toList ∧
      camelCase "max_année" = "maxAnnée".toList ∧
      convertLexical "maxAnnée" = "maxAnnée".toList := by
  have hcamel : camelCase "self_2_d__x_y" = "self2D__xY".toList := by decide
  have hbeyond : camelCase "max_année" = "maxAnnée".toList := by decide
  obtain ⟨-, -, -, -, -, hnames⟩ := convertLexical_stable [] "self_2_d__x_y" {} []
  obtain ⟨-, -, -, -, hwords, -⟩ := convertLexical_stable [] "max_année" {} []
  have hkept := (hnames (forall_mem_of_all (by decide))).1 (by decide)
  have hword := (hwords (forall_mem_of_all (by decide))).2
  rw [hcamel] at hkept
  rw [hbeyond] at hword
  exact ⟨hcamel, hkept, hbeyond, hword.2 (by decide)⟩

/-- A letter beyond ASCII behind the start of a parameter: the name is in camel case in the header
of the function, and then its start is taken for a name of its own. -/
theorem convertLexical_ne_of_accent :
    (Param.parse "selfé_a_b").name = "selfé_aB".toList ∧
      convertLexical (Param.parse "selfé_a_b").name = "thisé_aB".toList := by
  have hname : (Param.parse "selfé_a_b").name = "selfé_aB".toList := by decide
  refine ⟨hname, ?_⟩
  rw [hname, convertLexical_of_isWord (forall_mem_of_all (by decide))
    (camelCase_eq_self_iff.1 (by decide))]
  decide

end Rebrace
