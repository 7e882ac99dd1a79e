import Mathlib
import Rebrace.Proofs.LocalSpelling
import Rebrace.Proofs.SignatureReading

/-!
# Parameter names in signatures and bodies

A parameter is spelled twice.  In the signature its whole name is written in camel case, and the
lexical pass goes over the result; in the body only the lexical pass goes over the name.  The
lexical pass takes a name to end at its first character beyond ASCII, so the two agree exactly if
camel case would not change what follows from there on: `spellNames_param_eq_iff`.

For that `camelCase_camelCase` says that camel case is written once and for all, and
`spellName_camelCase` that names with a spelling of their own are not mixed up with others.
-/

namespace Rebrace

open Text

/-! ### Camel case -/

/-- A character other than an underscore is kept. -/
lemma camelCaseFrom_cons {c : Char} (hc : c ≠ '_') (joins : Bool) (t : Text) :
    camelCaseFrom joins (c :: t) = c :: camelCaseFrom (isLowerOrDigit c) t := by
  cases t with
  | nil => rfl
  | cons d t => rw [camelCaseFrom, if_neg (by simp [hc])]

/-- An underscore behind another one, or at the start of a text, is kept. -/
lemma camelCaseFrom_false_cons (c : Char) (t : Text) :
    camelCaseFrom false (c :: t) = c :: camelCaseFrom (isLowerOrDigit c) t := by
  cases t with
  | nil => rfl
  | cons d t => rw [camelCaseFrom, if_neg (by simp)]

/-- The upper case of a letter or digit is no underscore. -/
lemma toUpper_ne_underscore {c : Char} (h : isLowerOrDigit c = true) : c.toUpper ≠ '_' := by
  have halphanum : c.toUpper.isAlphanum = true := by
    by_cases hlower : c.isLower
    · simp [Char.isAlphanum, Char.isAlpha, hlower]
    · have hdigit : c.isDigit = true := by simpa [isLowerOrDigit, hlower] using h
      rw [Char.toUpper_eq_of_not_isLower hlower]
      simp [Char.isAlphanum, hdigit]
  intro hunderscore
  rw [hunderscore] at halphanum
  exact absurd halphanum (by decide)

/-- Camel case is not changed when it is written again. -/
lemma camelCaseFrom_camelCaseFrom {joins joins' : Bool} (h : joins' = true → joins = true)
    (t : Text) : camelCaseFrom joins' (camelCaseFrom joins t) = camelCaseFrom joins t := by
  fun_induction camelCaseFrom joins t generalizing joins' with
  | case1 => rfl
  | case2 => rfl
  | case3 joins c d t hjoins ih =>
    rw [camelCaseFrom_cons (toUpper_ne_underscore hjoins.2.2), ih fun _ => rfl]
  | case4 joins c d t hjoins ih =>
    by_cases hc : c = '_'
    · subst hc
      have hlower : isLowerOrDigit '_' = false := by decide
      rw [hlower, camelCaseFrom_false_cons] at ih ⊢
      rw [camelCaseFrom, if_neg fun hnow => hjoins ⟨rfl, h hnow.2.1, hnow.2.2⟩, hlower,
        ih (by simp)]
    · rw [camelCaseFrom_cons hc, ih id]

/-- Camel case of camel case is camel case. -/
lemma camelCase_camelCase (name : Text) : camelCase (camelCase name) = camelCase name :=
  camelCaseFrom_camelCaseFrom id name

/-- A name is written in camel case on both sides of a character that is in no name. -/
lemma camelCaseFrom_append {c : Char} (hc : isNameChar c = false) (joins : Bool) (s t : Text) :
    camelCaseFrom joins (s ++ c :: t) = camelCaseFrom joins s ++ camelCase (c :: t) := by
  have hunderscore : c ≠ '_' := by
    rintro rfl
    exact absurd hc (by decide)
  have hlower : isLowerOrDigit c = false := by
    rw [← Bool.not_eq_true]
    intro hlower
    simp only [isLowerOrDigit, Bool.or_eq_true] at hlower
    simp only [isNameChar, Char.isAlphanum, Char.isAlpha, Bool.or_eq_false_iff] at hc
    rcases hlower with hlower | hlower
    · exact absurd hlower (by simp [hc.1.1.2])
    · exact absurd hlower (by simp [hc.1.2])
  fun_induction camelCaseFrom joins s with
  | case1 => rw [List.nil_append, camelCaseFrom_cons hunderscore, camelCase,
      camelCaseFrom_cons hunderscore, List.nil_append]
  | case2 joins d =>
    rw [List.singleton_append, camelCaseFrom, if_neg (by simp [hlower]),
      camelCaseFrom_cons hunderscore, camelCase, camelCaseFrom_cons hunderscore,
      List.singleton_append]
  | case3 joins d e s hjoins ih =>
    rw [List.cons_append, List.cons_append, camelCaseFrom, if_pos hjoins, ih, List.cons_append]
  | case4 joins d e s hjoins ih =>
    rw [List.cons_append, List.cons_append, camelCaseFrom, if_neg hjoins, ← List.cons_append, ih,
      List.cons_append]

/-- Camel case whose letters behind the first character are lower-case has left the name as it
was. -/
lemma camelCase_eq_self {name : Text} (h : ∀ c ∈ (camelCase name).tail, c.isLower = true) :
    camelCase name = name := by
  cases name with
  | nil => rfl
  | cons c t =>
    rw [camelCase, camelCaseFrom_false_cons, List.tail_cons] at h
    rw [camelCase, camelCaseFrom_false_cons, camelCaseFrom_eq_self h]

/-- A name that camel case changes has no spelling of its own, neither before nor afterwards. -/
lemma lookup?_nameTable_eq_none {name : Text} (h : camelCase name ≠ name) :
    lookup? nameTable name = none ∧ lookup? nameTable (camelCase name) = none := by
  have htable : ∀ entry ∈ nameTable, camelCase entry.1 = entry.1 ∧
      entry.1.tail.all Char.isLower = true := by decide
  have hlookup : ∀ {t : Text}, t = name ∨ t = camelCase name → lookup? nameTable t = none := by
    intro t ht
    rw [lookup?, Option.map_eq_none_iff, List.find?_eq_none]
    intro entry hmem hentry
    obtain ⟨hkept, hlower⟩ := htable entry hmem
    rw [beq_iff_eq] at hentry
    refine h ?_
    rcases ht with rfl | rfl
    · rw [← hentry, hkept]
    · exact camelCase_eq_self (hentry ▸ List.all_eq_true.1 hlower)
  exact ⟨hlookup (Or.inl rfl), hlookup (Or.inr rfl)⟩

/-- A name is spelled like the same name in camel case. -/
lemma spellName_camelCase (name : Text) : spellName (camelCase name) = spellName name := by
  by_cases hsame : camelCase name = name
  · rw [hsame]
  · -- A name with a spelling of its own is in camel case, and no other name becomes one of these.
    obtain ⟨hname, hcamel⟩ := lookup?_nameTable_eq_none hsame
    rw [spellName, spellName, hcamel, hname, Option.getD_none, Option.getD_none,
      camelCase_camelCase]

/-- Camel case is made of word characters. -/
lemma isWord_of_mem_camelCaseFrom {joins : Bool} {t : Text} (ht : ∀ c ∈ t, isWord c = true)
    {c : Char} (hc : c ∈ camelCaseFrom joins t) : isWord c = true :=
  (mem_or_isNameChar_of_mem_camelCaseFrom hc).elim (ht c) isWord_of_isNameChar

/-! ### Names of the source

A name of the source is made of word characters, in ASCII or beyond.  Only the part in front of the
first character beyond ASCII is a name for the lexical pass. -/

/-- Is the text a name of the source: word characters of which the first is no digit? -/
def isSourceName : Text → Bool
  | [] => false
  | c :: t => isWord c && !c.isDigit && t.all isWord

section SourceName

variable {name : Text}

/-- A name of the source is made of word characters. -/
lemma isWord_of_isSourceName (h : isSourceName name = true) : ∀ c ∈ name, isWord c = true := by
  cases name with
  | nil => cases h
  | cons c t =>
    simp only [isSourceName, Bool.and_eq_true] at h
    intro d hd
    rcases List.mem_cons.1 hd with rfl | hd
    · exact h.1.1
    · exact List.all_eq_true.1 h.2 d hd

/-- Camel case of a name is a name. -/
lemma isSourceName_camelCase (h : isSourceName name = true) :
    isSourceName (camelCase name) = true := by
  cases name with
  | nil => cases h
  | cons c t =>
    simp only [isSourceName, Bool.and_eq_true] at h
    simp only [camelCase, camelCaseFrom_false_cons, isSourceName, Bool.and_eq_true]
    refine ⟨h.1, List.all_eq_true.2 ?_⟩
    intro d hd
    exact isWord_of_mem_camelCaseFrom (List.all_eq_true.1 h.2) hd

/-- Behind a word, further word characters are kept. -/
lemma spellNamesFrom_true_of_isWord {t : Text} (h : ∀ c ∈ t, isWord c = true) :
    spellNamesFrom true t = t := by
  induction t with
  | nil => simp [spellNamesFrom]
  | cons c t ih =>
    rw [spellNamesFrom, if_neg (by simp), h c List.mem_cons_self,
      ih fun d hd => h d (List.mem_cons_of_mem _ hd)]

/-- The lexical pass spells a name up to its first character beyond ASCII and keeps the rest. -/
lemma spellNames_of_isSourceName (h : isSourceName name = true) :
    spellNames name = spellName (name.takeWhile isNameChar) ++ name.dropWhile isNameChar := by
  have hword := isWord_of_isSourceName h
  cases name with
  | nil => cases h
  | cons c t =>
    by_cases hstart : isNameStart c = true
    · rw [spellNames_of_isNameStart hstart, spellNamesFrom_true_of_isWord]
      intro d hd
      exact hword d ((List.dropWhile_sublist isNameChar).subset hd)
    · -- The name starts beyond ASCII, so that it is kept as a whole.
      have hchar : isNameChar c = false := by
        simp only [isSourceName, Bool.and_eq_true, Bool.not_eq_true'] at h
        simp only [isNameStart, Bool.or_eq_true, not_or, Bool.not_eq_true] at hstart
        simp [isNameChar, Char.isAlphanum, hstart, h.1.2]
      have hempty : spellName [] = [] := by decide
      rw [List.takeWhile_cons_of_neg (by simp [hchar]),
        List.dropWhile_cons_of_neg (by simp [hchar]), hempty, List.nil_append, spellNames,
        spellNamesFrom, if_neg (by simp [hstart]), hword c List.mem_cons_self,
        spellNamesFrom_true_of_isWord fun d hd => hword d (List.mem_cons_of_mem _ hd)]

/-- Camel case is written on both sides of the first character beyond ASCII. -/
lemma camelCase_eq_append (name : Text) :
    camelCase name =
      camelCase (name.takeWhile isNameChar) ++ camelCase (name.dropWhile isNameChar) := by
  cases hrest : name.dropWhile isNameChar with
  | nil =>
    have hall := List.takeWhile_append_dropWhile (p := isNameChar) (l := name)
    rw [hrest, List.append_nil] at hall
    rw [hall]
    simp [camelCase, camelCaseFrom]
  | cons c t =>
    have hc : isNameChar c = false := by
      have hnot := List.head?_dropWhile_not isNameChar name
      simpa [hrest] using hnot
    rw [← List.takeWhile_append_dropWhile (p := isNameChar) (l := name), hrest, camelCase,
      camelCaseFrom_append hc, ← camelCase, List.takeWhile_append_of_pos
        fun d hd => List.mem_takeWhile_imp hd, List.takeWhile_cons_of_neg (by simp [hc]),
      List.append_nil]

/-- A name in camel case is cut where the name was cut. -/
lemma takeWhile_dropWhile_camelCase (name : Text) :
    (camelCase name).takeWhile isNameChar = camelCase (name.takeWhile isNameChar) ∧
      (camelCase name).dropWhile isNameChar = camelCase (name.dropWhile isNameChar) := by
  rw [camelCase_eq_append]
  refine takeWhile_dropWhile_append ?_ ?_
  · intro c hc
    exact isNameChar_of_mem_camelCaseFrom (fun d hd => List.mem_takeWhile_imp hd) hc
  · intro c hc
    rw [head?_camelCase] at hc
    have hnot := List.head?_dropWhile_not isNameChar name
    rw [Option.mem_def.1 hc] at hnot
    simpa using hnot

/-! ### The two spellings -/

/-- A parameter that is only a name is called by it in camel case. -/
lemma name_parse_of_isSourceName (h : isSourceName name = true) :
    (Param.parse name).name = camelCase name := by
  have hword := isWord_of_isSourceName h
  have hne : name ≠ [] := by
    rintro rfl
    cases h
  have hnotMem : ∀ {c : Char}, isWord c = false → c ∉ name := by
    intro c hc hmem
    rw [hword c hmem] at hc
    cases hc
  have hwhite : ∀ c ∈ name, isWhite c = false := by
    intro c hc
    rw [← Bool.not_eq_true]
    intro hwhite
    exact hnotMem (isWord_eq_false_of_isWhite hwhite) hc
  have htrimmed : IsTrimmed name := by
    refine ⟨hne, ?_, ?_⟩
    · exact fun c hc => hwhite c (List.mem_of_head? hc)
    · exact fun c hc => hwhite c (List.mem_of_getLast? hc)
  have hdefault : cutDefault? name = none := by
    have hstop : ∀ c ∈ Scan.exposed nestAll {} name, ∀ previous following,
        isLoneEquals previous c following = false := by
      intro c hc previous following
      have hequals : c ≠ '=' := by
        rintro rfl
        exact hnotMem (by decide) (Scan.mem_of_mem_exposed hc)
      simp [isLoneEquals, hequals]
    have hcut := cutExposedFrom?_append hstop none []
    rw [List.append_nil] at hcut
    exact hcut
  have hcolon : cutAtChar? ':' name = none := cutAtChar?_eq_none (hnotMem (by decide))
  rw [Param.parse_eq, htrimmed.trim_eq, hdefault]
  simp only [Param.ofHead, hcolon, htrimmed.trim_eq]

/-- In a signature, the lexical pass meets a name that is in camel case also beyond ASCII. -/
lemma spellNames_param (h : isSourceName name = true) :
    spellNames (Param.parse name).name =
      spellName (name.takeWhile isNameChar) ++ camelCase (name.dropWhile isNameChar) := by
  obtain ⟨htake, hdrop⟩ := takeWhile_dropWhile_camelCase name
  rw [name_parse_of_isSourceName h, spellNames_of_isSourceName (isSourceName_camelCase h), htake,
    hdrop, spellName_camelCase]

/-- **A parameter has one spelling in the signature and in the body exactly if camel case does not
change what follows its ASCII part.** -/
theorem spellNames_param_eq_iff (h : isSourceName name = true) :
    spellNames (Param.parse name).name = spellNames name ↔
      camelCase (name.dropWhile isNameChar) = name.dropWhile isNameChar := by
  rw [spellNames_param h, spellNames_of_isSourceName h, List.append_cancel_left_eq]

/-- The condition holds for a name with letters beyond ASCII whose underscores stand in front of
them. -/
theorem spellNames_param_eq_of_late_accent :
    isSourceName "max_année" = true ∧
      spellNames (Param.parse "max_année").name = spellNames "max_année" :=
  have hname : isSourceName "max_année" = true := by decide
  ⟨hname, (spellNames_param_eq_iff hname).2 (by decide)⟩

/-- An underscore behind a letter beyond ASCII is dropped in the signature and kept in the body. -/
theorem spellNames_param_ne_of_early_accent :
    isSourceName "naïve_name" = true ∧
      spellNames (Param.parse "naïve_name").name = "naïveName".toList ∧
      spellNames "naïve_name" = "naïve_name".toList := by
  have hname : isSourceName "naïve_name" = true := by decide
  refine ⟨hname, ?_, ?_⟩
  · rw [spellNames_param hname]
    decide
  · rw [spellNames_of_isSourceName hname]
    decide

end SourceName

end Rebrace
