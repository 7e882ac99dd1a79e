import Mathlib
import Rebrace.Proofs.Lexical
import Rebrace.Proofs.Scanning

/-!
# The lexical pass works piece by piece

Names and comparisons end at *breaks*: characters that are no word characters and none of the signs
`=`, `!`, `<` and `>`.  All characters that structure a line are breaks: white space, brackets,
quotation marks, colons and commas.  The lexical pass keeps them and spells what stands between two
of them without looking any further; this is `convertLexical_append_break`, from which everything
else here is derived.

So it does not matter whether a text is cut at its structure before the pass or after it:
`trim_convertLexical`, `split_convertLexical` and `cutColonFrom?_convertLexical` say so for the ways
in which the text of a clause is cut, and `ofStart?_convertLexical` for its keyword.
-/

namespace Rebrace

open Text

/-! ### Breaks -/

/-- The characters that may stand inside a comparison. -/
def isComparisonSign (c : Char) : Bool :=
  c == '=' || c == '!' || c == '<' || c == '>'

/-- The characters at which names and comparisons end. -/
def isBreak (c : Char) : Bool :=
  !isWord c && !isComparisonSign c

/-- A white-space character is no word character. -/
lemma isWord_eq_false_of_isWhite {c : Char} (h : isWhite c = true) : isWord c = false := by
  -- There are 25 white-space characters.
  have hall : ∀ range ∈ whiteRanges, ∀ n ∈ List.range' range.1 (range.2 + 1 - range.1),
      isWord (Char.ofNat n) = false := by decide +kernel
  obtain ⟨range, hrange, hbounds⟩ := List.any_eq_true.1 h
  simp only [Bool.and_eq_true, decide_eq_true_eq] at hbounds
  have hmem : c.toNat ∈ List.range' range.1 (range.2 + 1 - range.1) := by
    rw [List.mem_range'_1]
    omega
  have hword := hall range hrange c.toNat hmem
  rwa [Char.ofNat_toNat] at hword

/-- White space breaks. -/
lemma isBreak_of_isWhite {c : Char} (h : isWhite c = true) : isBreak c = true := by
  have hword := isWord_eq_false_of_isWhite h
  have hsign : isComparisonSign c = false := by
    rw [← Bool.not_eq_true]
    intro hsign
    simp only [isComparisonSign, Bool.or_eq_true, beq_iff_eq] at hsign
    rcases hsign with ((rfl | rfl) | rfl) | rfl <;> exact absurd h (by decide)
  simp [isBreak, hword, hsign]

/-- A break is no character of a name. -/
lemma isNameChar_eq_false_of_isBreak {c : Char} (h : isBreak c = true) : isNameChar c = false := by
  rw [← Bool.not_eq_true]
  intro hname
  rw [isBreak, isWord_of_isNameChar hname] at h
  cases h

/-- A break is no sign of a comparison. -/
lemma ne_of_isBreak {c : Char} (h : isBreak c = true) : c ≠ '=' ∧ c ≠ '!' := by
  constructor
  · rintro rfl
    exact absurd h (by decide)
  · rintro rfl
    exact absurd h (by decide)

/-- A character that does not break is none of the characters that structure a line. -/
lemma ne_of_isBreak_eq_false {c : Char} (h : isBreak c = false) (mark : Char)
    (hmark : isBreak mark = true) : c ≠ mark := by
  rintro rfl
  rw [h] at hmark
  cases hmark

/-- A *piece* is a text without breaks. -/
def IsPiece (t : Text) : Prop :=
  ∀ c ∈ t, isBreak c = false

/-- What holds of pieces, and of a piece in front of a break and a text if it holds of every end of
that text, holds of every text. -/
@[elab_as_elim]
lemma break_induction {motive : Text → Prop} (piece : ∀ w, IsPiece w → motive w)
    (cons : ∀ w c t, IsPiece w → isBreak c = true → (∀ u, u <:+ t → motive u) →
      motive (w ++ c :: t)) (t : Text) : motive t := by
  induction h : t.length using Nat.strong_induction_on generalizing t with
  | _ n ih =>
    have hwhole := List.takeWhile_append_dropWhile (p := fun c => !isBreak c) (l := t)
    have hpiece : IsPiece (t.takeWhile fun c => !isBreak c) := by
      intro c hc
      simpa using List.mem_takeWhile_imp hc
    cases hrest : t.dropWhile fun c => !isBreak c with
    | nil =>
      rw [hrest, List.append_nil] at hwhole
      rw [← hwhole]
      exact piece _ hpiece
    | cons c rest =>
      rw [hrest] at hwhole
      have hbreak : isBreak c = true := by
        have hnot := List.head?_dropWhile_not (fun c => !isBreak c) t
        simpa [hrest] using hnot
      have hlength := congrArg List.length hwhole
      rw [List.length_append, List.length_cons] at hlength
      rw [← hwhole]
      refine cons _ c rest hpiece hbreak fun u hu => ih u.length ?_ u rfl
      have hle := hu.length_le
      omega

/-! ### Names and comparisons between breaks -/

/-- Names are spelled on both sides of a break. -/
lemma spellNamesFrom_append_break {c : Char} (hc : isBreak c = true) (inWord : Bool) (u v : Text) :
    spellNamesFrom inWord (u ++ c :: v) = spellNamesFrom inWord u ++ c :: spellNames v := by
  have hname := isNameChar_eq_false_of_isBreak hc
  have hstart : isNameStart c = false := by
    rw [← Bool.not_eq_true]
    intro hstart
    rw [isNameChar_of_isNameStart hstart] at hname
    cases hname
  have hword : isWord c = false := by
    simp only [isBreak, Bool.and_eq_true, Bool.not_eq_eq_eq_not, Bool.not_true] at hc
    exact hc.1
  fun_induction spellNamesFrom inWord u with
  | case1 inWord => rw [List.nil_append, spellNamesFrom, if_neg (by simp [hstart]), hword]; rfl
  | case2 inWord d t h ih =>
    -- The name ends at the break at the latest.
    have htake : (t ++ c :: v).takeWhile isNameChar = t.takeWhile isNameChar := by
      rw [List.takeWhile_append]
      split
      · rw [List.takeWhile_cons_of_neg (by simp [hname]), List.append_nil]
        rename_i hall
        exact (List.takeWhile_prefix _).eq_of_length hall |>.symm
      · rfl
    have hdrop : (t ++ c :: v).dropWhile isNameChar = t.dropWhile isNameChar ++ c :: v := by
      rw [List.dropWhile_append]
      split
      · rename_i hnil
        rw [List.isEmpty_iff.1 hnil, List.dropWhile_cons_of_neg (by simp [hname]), List.nil_append]
      · rfl
    rw [List.cons_append, spellNamesFrom, if_pos h, htake, hdrop, ih, List.append_assoc]
  | case3 inWord d t h ih => rw [List.cons_append, spellNamesFrom, if_neg h, ih, List.cons_append]

/-- What stands in front of a text does not matter for its comparisons, unless it is a sign. -/
lemma strictEqualityFrom_eq {previous : Option Char} (h : previous.any isComparisonSign = false)
    (t : Text) : strictEqualityFrom previous t = strictEquality t := by
  have hbegins : ∀ c, beginsComparison previous c = beginsComparison none c := by
    intro c
    cases previous with
    | none => rfl
    | some p =>
      simp only [Option.any_some, isComparisonSign] at h
      simp [beginsComparison, h]
  unfold strictEquality
  rcases t with _ | ⟨c, _ | ⟨d, t⟩⟩
  · rfl
  · rfl
  · simp only [strictEqualityFrom, hbegins]

/-- Comparisons are made strict on both sides of a break. -/
lemma strictEqualityFrom_append_break {c : Char} (hc : isBreak c = true) (previous : Option Char)
    (u v : Text) :
    strictEqualityFrom previous (u ++ c :: v) =
      strictEqualityFrom previous u ++ c :: strictEquality v := by
  obtain ⟨hequals, hnot⟩ := ne_of_isBreak hc
  have hsign : (some c).any isComparisonSign = false := by
    simp only [isBreak, Bool.and_eq_true, Bool.not_eq_eq_eq_not, Bool.not_true] at hc
    exact hc.2
  fun_induction strictEqualityFrom previous u with
  | case1 previous =>
    rw [List.nil_append, strictEqualityFrom_cons hequals hnot, strictEqualityFrom_eq hsign]
    rfl
  | case2 previous d =>
    rw [List.singleton_append, strictEqualityFrom, if_neg (by simp [hequals]),
      strictEqualityFrom_cons hequals hnot, strictEqualityFrom_eq hsign]
    rfl
  | case3 previous d e t h ih =>
    have hhead : (t ++ c :: v).head? ≠ some '=' := by
      cases t with
      | nil => simpa using hequals
      | cons a t => exact h.2.1
    rw [List.cons_append, List.cons_append, strictEqualityFrom, if_pos ⟨h.1, hhead, h.2.2⟩, ih]
    rfl
  | case4 previous d e t h ih =>
    have hkept : ¬(e = '=' ∧ (t ++ c :: v).head? ≠ some '=' ∧ beginsComparison previous d) := by
      rintro ⟨he, hhead, hbegins⟩
      refine h ⟨he, ?_, hbegins⟩
      cases t with
      | nil => simp
      | cons a t => exact hhead
    rw [List.cons_append, List.cons_append, strictEqualityFrom, if_neg hkept, ← List.cons_append,
      ih, List.cons_append]

/-- **The lexical pass works piece by piece**: it keeps a break, and what stands in front of the
break has no influence on what stands behind it. -/
lemma convertLexical_append_break {c : Char} (hc : isBreak c = true) (u v : Text) :
    convertLexical (u ++ c :: v) = convertLexical u ++ c :: convertLexical v := by
  rw [convertLexical, spellNames, spellNamesFrom_append_break hc, strictEquality,
    strictEqualityFrom_append_break hc]
  rfl

@[simp] lemma convertLexical_nil : convertLexical [] = [] := by
  simp [convertLexical, spellNames, spellNamesFrom, strictEquality, strictEqualityFrom]

/-- A break at the start is kept. -/
lemma convertLexical_cons_break {c : Char} (hc : isBreak c = true) (t : Text) :
    convertLexical (c :: t) = c :: convertLexical t := by
  simpa using convertLexical_append_break hc [] t

/-- A break at the end is kept. -/
lemma convertLexical_concat_break {c : Char} (hc : isBreak c = true) (t : Text) :
    convertLexical (t ++ [c]) = convertLexical t ++ [c] := by
  simpa using convertLexical_append_break hc t []

/-! ### Pieces -/

/-- A character that the lexical pass may replace does not break. -/
lemma isBreak_eq_false_of_isInert {c : Char} (h : isInert c = true) : isBreak c = false := by
  simp only [isInert, Bool.or_eq_true, beq_iff_eq] at h
  rcases h with (h | rfl) | rfl
  · simp [isBreak, isWord_of_isNameChar h]
  · decide
  · decide

/-- Texts that are alike are both pieces or none is. -/
lemma Alike.isPiece {s t : Text} (h : Alike s t) (hs : IsPiece s) : IsPiece t := by
  induction h with
  | nil => exact hs
  | cons c _ ih =>
    rw [IsPiece, List.forall_mem_cons] at hs ⊢
    exact ⟨hs.1, ih hs.2⟩
  | run _ _ _ hv _ ih =>
    rw [IsPiece, List.forall_mem_append] at hs ⊢
    exact ⟨fun c hc => isBreak_eq_false_of_isInert (hv c hc), ih hs.2⟩

/-- Pieces become pieces. -/
lemma IsPiece.convertLexical {w : Text} (hw : IsPiece w) : IsPiece (convertLexical w) :=
  (alike_strictEquality _).isPiece ((alike_spellNames w).isPiece hw)

/-- Only the empty text becomes empty. -/
@[simp] lemma convertLexical_eq_nil_iff {t : Text} : convertLexical t = [] ↔ t = [] := by
  rw [convertLexical, ← (alike_strictEquality _).eq_nil_iff, ← (alike_spellNames t).eq_nil_iff]

/-- A text starts with a break after the pass exactly if it did before. -/
lemma head?_convertLexical_eq_some_iff {c : Char} (hc : isBreak c = true) (t : Text) :
    (convertLexical t).head? = some c ↔ t.head? = some c := by
  have hpiece : ∀ {w : Text}, IsPiece w → w.head? ≠ some c := by
    intro w hw hhead
    rw [hw c (List.mem_of_head? hhead)] at hc
    cases hc
  induction t using break_induction with
  | piece w hw => exact iff_of_false (hpiece hw.convertLexical) (hpiece hw)
  | cons w d t hw hd _ =>
    rw [convertLexical_append_break hd]
    cases w with
    | nil => simp
    | cons e w =>
      rw [List.head?_append_of_ne_nil _ (by simp), List.head?_append_of_ne_nil _ (by simp)]
      exact iff_of_false (hpiece hw.convertLexical) (hpiece hw)

/-- A text ends with a break after the pass exactly if it did before. -/
lemma getLast?_convertLexical_eq_some_iff {c : Char} (hc : isBreak c = true) (t : Text) :
    (convertLexical t).getLast? = some c ↔ t.getLast? = some c := by
  have hpiece : ∀ {w : Text}, IsPiece w → w.getLast? ≠ some c := by
    intro w hw hlast
    rw [hw c (List.mem_of_getLast? hlast)] at hc
    cases hc
  induction t using break_induction with
  | piece w hw => exact iff_of_false (hpiece hw.convertLexical) (hpiece hw)
  | cons w d t hw hd ih =>
    rw [convertLexical_append_break hd, List.getLast?_append_of_ne_nil _ (by simp),
      List.getLast?_append_of_ne_nil _ (by simp)]
    by_cases ht : t = []
    · simp [ht]
    · rw [List.getLast?_cons_of_ne_nil ht, List.getLast?_cons_of_ne_nil (by simpa using ht)]
      exact ih t List.suffix_rfl

/-! ### White space at the ends -/

/-- White space at the start can be taken off before the pass or after it. -/
lemma trimStart_convertLexical (t : Text) :
    trimStart (convertLexical t) = convertLexical (trimStart t) := by
  unfold trimStart
  induction t with
  | nil => simp
  | cons c t ih =>
    by_cases hc : isWhite c
    · rw [convertLexical_cons_break (isBreak_of_isWhite hc), List.dropWhile_cons_of_pos hc,
        List.dropWhile_cons_of_pos hc, ih]
    · rw [List.dropWhile_cons_of_neg hc]
      cases hconverted : convertLexical (c :: t) with
      | nil => rfl
      | cons d rest =>
        refine List.dropWhile_cons_of_neg fun hd => hc ?_
        have hhead := (head?_convertLexical_eq_some_iff (isBreak_of_isWhite hd) (c :: t)).1
          (by rw [hconverted, List.head?_cons])
        rw [List.head?_cons, Option.some.injEq] at hhead
        rwa [hhead]

/-- White space at the end can be taken off before the pass or after it. -/
lemma trimEnd_convertLexical (t : Text) :
    trimEnd (convertLexical t) = convertLexical (trimEnd t) := by
  have hkept : ∀ {u : Text}, (∀ d ∈ u.getLast?, isWhite d = false) → trimEnd u = u := by
    intro u hu
    have htrim := trimEnd_append (List.forall_mem_nil _) hu
    rwa [List.append_nil] at htrim
  induction t using List.reverseRecOn with
  | nil => simp [trimEnd]
  | append_singleton t c ih =>
    by_cases hc : isWhite c
    · have hcut : ∀ u : Text, trimEnd (u ++ [c]) = trimEnd u := by
        intro u
        simp [trimEnd, hc]
      rw [convertLexical_concat_break (isBreak_of_isWhite hc), hcut, hcut, ih]
    · rw [hkept (u := t ++ [c]) (by simpa using hc), hkept]
      intro d hd
      rw [← Bool.not_eq_true]
      intro hwhite
      have hlast := (getLast?_convertLexical_eq_some_iff (isBreak_of_isWhite hwhite) _).1 hd
      rw [List.getLast?_concat, Option.some.injEq] at hlast
      exact hc (hlast ▸ hwhite)

/-- White space at both ends can be taken off before the pass or after it. -/
lemma trim_convertLexical (t : Text) : trim (convertLexical t) = convertLexical (trim t) := by
  rw [trim, trimStart_convertLexical, trimEnd_convertLexical]
  rfl

/-! ### Words that are spelled as before -/

/-- Camel case changes nothing in a text without underscores. -/
lemma camelCaseFrom_of_notMem (joins : Bool) {t : Text} (h : '_' ∉ t) :
    camelCaseFrom joins t = t := by
  fun_induction camelCaseFrom joins t with
  | case1 => rfl
  | case2 => rfl
  | case3 joins c d t hjoins _ => exact absurd (by simp [hjoins.1]) h
  | case4 joins c d t _ ih =>
    rw [List.mem_cons, not_or] at h
    rw [ih h.2]

/-- A character that is no word character is in no name. -/
lemma isNameChar_eq_false_of_head? {t : Text} (h : t.head?.any isWord = false) :
    ∀ c ∈ t.head?, isNameChar c = false := by
  intro c hc
  rw [Option.mem_def.1 hc, Option.any_some] at h
  rw [← Bool.not_eq_true]
  intro hname
  rw [isWord_of_isNameChar hname] at h
  cases h

/-- Behind a word, names are spelled as at the start of a text that does not continue the word. -/
lemma spellNamesFrom_true {t : Text} (h : t.head?.any isWord = false) :
    spellNamesFrom true t = spellNames t := by
  cases t with
  | nil => simp [spellNames, spellNamesFrom]
  | cons c t =>
    have hname := isNameChar_eq_false_of_head? h c rfl
    have hstart : isNameStart c = false := by
      rw [← Bool.not_eq_true]
      intro hstart
      rw [isNameChar_of_isNameStart hstart] at hname
      cases hname
    rw [spellNames, spellNamesFrom, spellNamesFrom, if_neg (by simp), if_neg (by simp [hstart])]

/-- A text without signs of comparisons has no influence on the comparisons behind it. -/
lemma strictEqualityFrom_append {u : Text} (hne : u ≠ [])
    (hu : ∀ c ∈ u, isComparisonSign c = false) (previous : Option Char) (t : Text) :
    strictEqualityFrom previous (u ++ t) = u ++ strictEquality t := by
  induction u generalizing previous with
  | nil => exact absurd rfl hne
  | cons c u ih =>
    rw [List.forall_mem_cons] at hu
    have hequals : c ≠ '=' ∧ c ≠ '!' := by
      constructor <;> rintro rfl <;> cases hu.1
    rw [List.cons_append, strictEqualityFrom_cons hequals.1 hequals.2, List.cons_append]
    by_cases hnil : u = []
    · rw [hnil, List.nil_append, List.nil_append, strictEqualityFrom_eq (by simpa using hu.1)]
    · rw [ih hnil hu.2]

/-- A character of a name is no sign of a comparison. -/
lemma isComparisonSign_eq_false_of_isNameChar {c : Char} (h : isNameChar c = true) :
    isComparisonSign c = false := by
  rw [← Bool.not_eq_true]
  intro hsign
  simp only [isComparisonSign, Bool.or_eq_true, beq_iff_eq] at hsign
  rcases hsign with ((rfl | rfl) | rfl) | rfl <;> exact absurd h (by decide)

/-- Letters in front of a text have no influence on its comparisons. -/
lemma strictEquality_append_of_isLower {letters : Text} (h : ∀ c ∈ letters, c.isLower = true)
    (t : Text) : strictEquality (letters ++ t) = letters ++ strictEquality t := by
  by_cases hnil : letters = []
  · rw [hnil, List.nil_append, List.nil_append]
  · refine strictEqualityFrom_append hnil (fun c hc => ?_) none t
    exact isComparisonSign_eq_false_of_isNameChar
      (isNameChar_of_isNameStart (isNameStart_of_isLower (h c hc)))

/-- A word of lower-case letters that has no spelling of its own and is not the spelling of another
name. -/
def isPlainWord (k : Text) : Bool :=
  !k.isEmpty && k.all Char.isLower && nameTable.all fun entry => entry.1 != k && entry.2 != k

section PlainWord

variable {k : Text} (hk : isPlainWord k = true)

include hk

lemma isLower_of_isPlainWord : ∀ c ∈ k, c.isLower = true := by
  simp only [isPlainWord, Bool.and_eq_true] at hk
  exact List.all_eq_true.1 hk.1.2

/-- A plain word is made of characters of names. -/
lemma isNameChar_of_isPlainWord : ∀ c ∈ k, isNameChar c = true := fun c hc =>
  isNameChar_of_isNameStart (isNameStart_of_isLower (isLower_of_isPlainWord hk c hc))

lemma exists_cons_of_isPlainWord : ∃ c rest, k = c :: rest ∧ isNameStart c = true := by
  have hne : k ≠ [] := by
    rintro rfl
    exact absurd hk (by decide)
  obtain ⟨c, rest, rfl⟩ := List.exists_cons_of_ne_nil hne
  exact ⟨c, rest, rfl, isNameStart_of_isLower (isLower_of_isPlainWord hk c (by simp))⟩

/-- A plain word is spelled as before, and no other name is spelled so. -/
lemma spellName_eq_iff_of_isPlainWord {name : Text} : spellName name = k ↔ name = k := by
  have hlower := isLower_of_isPlainWord hk
  have htable : ∀ entry ∈ nameTable, entry.1 ≠ k ∧ entry.2 ≠ k := by
    simp only [isPlainWord, Bool.and_eq_true] at hk
    simpa using List.all_eq_true.1 hk.2
  constructor
  · intro h
    unfold spellName at h
    cases hlookup : lookup? nameTable name with
    | none =>
      rw [hlookup, Option.getD_none] at h
      rw [← h] at hlower ⊢
      exact (camelCaseFrom_eq_self hlower).symm
    | some target =>
      obtain ⟨entry, hmem, rfl⟩ := exists_mem_of_lookup? hlookup
      rw [hlookup] at h
      exact absurd h (htable entry hmem).2
  · rintro rfl
    have hlookup : lookup? nameTable name = none := by
      rw [lookup?, Option.map_eq_none_iff, List.find?_eq_none]
      intro entry hmem
      simpa using (htable entry hmem).1
    rw [spellName, hlookup, Option.getD_none]
    refine camelCaseFrom_of_notMem false fun hmem => ?_
    exact absurd (hlower _ hmem) (by decide)

/-- A plain word in front of a text that does not continue it is kept. -/
lemma convertLexical_append_of_isPlainWord {rest : Text} (hrest : rest.head?.any isWord = false) :
    convertLexical (k ++ rest) = k ++ convertLexical rest := by
  have hname := isNameChar_of_isPlainWord hk
  obtain ⟨c, letters, hcons, hstart⟩ := exists_cons_of_isPlainWord hk
  obtain ⟨htake, hdrop⟩ := takeWhile_dropWhile_append hname (isNameChar_eq_false_of_head? hrest)
  have hspell : spellNames (k ++ rest) = k ++ spellNames rest := by
    have hall := spellNames_of_isNameStart hstart (letters ++ rest)
    rw [← List.cons_append, ← hcons, htake, hdrop, spellNamesFrom_true hrest,
      (spellName_eq_iff_of_isPlainWord hk).2 rfl] at hall
    exact hall
  rw [convertLexical, hspell, strictEquality_append_of_isLower (isLower_of_isPlainWord hk)]
  rfl

/-- A text that the pass makes start with a plain word has started with it before. -/
lemma exists_eq_append_of_convertLexical {t rest : Text}
    (h : convertLexical t = k ++ rest) (hrest : rest.head?.any isWord = false) :
    ∃ rest', t = k ++ rest' ∧ rest'.head?.any isWord = false := by
  have hlower := isLower_of_isPlainWord hk
  have hname := isNameChar_of_isPlainWord hk
  obtain ⟨c, letters, hcons, hstart⟩ := exists_cons_of_isPlainWord hk
  obtain ⟨spelled, hspelled⟩ := exists_eq_append_of_strictEqualityFrom hlower h
  have hhead : spelled.head?.any isWord = false := by
    rw [convertLexical, hspelled, strictEquality_append_of_isLower hlower,
      List.append_cancel_left_eq] at h
    rwa [← h, strictEquality, head?_strictEqualityFrom] at hrest
  cases t with
  | nil =>
    rw [hcons] at hspelled
    simp [spellNames, spellNamesFrom] at hspelled
  | cons d t =>
    have hd : isNameStart d = true := by
      by_contra hd
      rw [hcons, spellNames, spellNamesFrom, if_neg (by simpa using hd), List.cons_append,
        List.cons.injEq] at hspelled
      exact hd (hspelled.1 ▸ hstart)
    have hne : (d :: t).takeWhile isNameChar ≠ [] := by simp [isNameChar_of_isNameStart hd]
    have hstops : ∀ e ∈ ((d :: t).dropWhile isNameChar).head?, isNameChar e = false := by
      intro e he
      have hnot := List.head?_dropWhile_not isNameChar (d :: t)
      rw [Option.mem_def.1 he] at hnot
      simpa using hnot
    rw [spellNames_of_isNameStart hd] at hspelled
    -- The name at the start of the text is spelled like the word.
    have hword : (d :: t).takeWhile isNameChar = k := by
      have htake := congrArg (List.takeWhile isNameChar) hspelled
      rw [(takeWhile_dropWhile_append hname (isNameChar_eq_false_of_head? hhead)).1,
        (takeWhile_dropWhile_append (spellName_isName hne fun e he => List.mem_takeWhile_imp he).2
          (by rwa [head?_spellNamesFrom_true])).1] at htake
      exact (spellName_eq_iff_of_isPlainWord hk).1 htake
    rw [hword, (spellName_eq_iff_of_isPlainWord hk).2 rfl, List.append_cancel_left_eq] at hspelled
    refine ⟨(d :: t).dropWhile isNameChar, ?_, ?_⟩
    · rw [← hword, List.takeWhile_append_dropWhile]
    · rwa [← hspelled, head?_spellNamesFrom_true] at hhead

/-- A text becomes a plain word only if it is this word. -/
lemma convertLexical_eq_iff_of_isPlainWord {t : Text} : convertLexical t = k ↔ t = k := by
  constructor
  · intro h
    have hspelled := h
    rw [← List.append_nil k] at hspelled
    obtain ⟨rest, rfl, hrest⟩ := exists_eq_append_of_convertLexical hk hspelled rfl
    rw [convertLexical_append_of_isPlainWord hk hrest] at h
    have hnil : rest = [] := by simpa using h
    rw [hnil, List.append_nil]
  · rintro rfl
    have hnil : ([] : Text).head?.any isWord = false := rfl
    simpa using convertLexical_append_of_isPlainWord hk hnil

end PlainWord

/-- The first character of a text stays if it is no word character. -/
lemma head?_convertLexical {t : Text} (h : t.head?.any isWord = false) :
    (convertLexical t).head? = t.head? := by
  rw [convertLexical, strictEquality, head?_strictEqualityFrom, ← spellNamesFrom_true h,
    head?_spellNamesFrom_true]

/-- The keyword at the start of a text can be read before the pass or after it. -/
lemma ofStart?_convertLexical (t : Text) :
    Keyword.ofStart? (convertLexical t) =
      (Keyword.ofStart? t).map fun start => (start.1, convertLexical start.2) := by
  have hplain : ∀ k : Keyword, isPlainWord k.source = true := by
    intro k
    cases k <;> decide
  cases hstart : Keyword.ofStart? t with
  | some start =>
    obtain ⟨k, rest⟩ := start
    obtain ⟨rfl, hrest⟩ := Keyword.ofStart?_eq_some hstart
    rw [convertLexical_append_of_isPlainWord (hplain k) hrest, k.ofStart?_source_append]
    · rfl
    · rw [head?_convertLexical hrest, hrest]
  | none =>
    cases hconverted : Keyword.ofStart? (convertLexical t) with
    | none => rfl
    | some start =>
      obtain ⟨k, rest⟩ := start
      obtain ⟨happend, hrest⟩ := Keyword.ofStart?_eq_some hconverted
      obtain ⟨rest', rfl, hrest'⟩ := exists_eq_append_of_convertLexical (hplain k) happend hrest
      rw [k.ofStart?_source_append hrest'] at hstart
      cases hstart

/-! ### Cutting a text -/

/-- Taking a text off the start gives the same before the pass and after it. -/
def IsKept (start : Text) : Prop :=
  ∀ t, strip? start (convertLexical t) = (strip? start t).map convertLexical

/-- A break in front of a text that is kept. -/
lemma IsKept.cons {c : Char} (hc : isBreak c = true) {start : Text} (h : IsKept start) :
    IsKept (c :: start) := by
  intro t
  cases t with
  | nil => simp [strip?]
  | cons d t =>
    by_cases hd : c = d
    · subst hd
      rw [convertLexical_cons_break hc, strip?, strip?, if_pos rfl, if_pos rfl, h]
    · rw [strip?, if_neg hd, Option.map_none]
      have hhead := (head?_convertLexical_eq_some_iff hc (d :: t)).not.2 (by simpa using Ne.symm hd)
      cases hconverted : convertLexical (d :: t) with
      | nil => rfl
      | cons e rest =>
        rw [hconverted, List.head?_cons, Option.some.injEq] at hhead
        rw [strip?, if_neg (Ne.symm hhead)]

/-- A plain word in front of a text that is kept and starts with a break. -/
lemma IsKept.append {k : Text} (hk : isPlainWord k = true) {c : Char} (hc : isBreak c = true)
    {start : Text} (h : IsKept (c :: start)) : IsKept (k ++ c :: start) := by
  have hword : isWord c = false := by
    simp only [isBreak, Bool.and_eq_true, Bool.not_eq_eq_eq_not, Bool.not_true] at hc
    exact hc.1
  have hhead : ∀ rest : Text, (c :: start ++ rest).head?.any isWord = false := by
    intro rest
    simp [hword]
  intro t
  ext rest
  simp only [strip?_eq_some_iff, Option.map_eq_some_iff, List.append_assoc]
  constructor
  · intro hconverted
    obtain ⟨rest', rfl, hrest'⟩ := exists_eq_append_of_convertLexical hk hconverted (hhead rest)
    rw [convertLexical_append_of_isPlainWord hk hrest', List.append_cancel_left_eq,
      ← strip?_eq_some_iff, h, Option.map_eq_some_iff] at hconverted
    obtain ⟨old, hold, rfl⟩ := hconverted
    exact ⟨old, congrArg _ (strip?_eq_some_iff.1 hold), rfl⟩
  · rintro ⟨old, rfl, rfl⟩
    rw [convertLexical_append_of_isPlainWord hk (hhead old), List.append_cancel_left_eq,
      ← strip?_eq_some_iff, h, strip?_eq_some_iff.2 rfl, Option.map_some]

lemma isKept_comma : IsKept "," :=
  IsKept.cons (by decide) fun _ => rfl

lemma isKept_membership : IsKept " in " :=
  IsKept.cons (by decide) (IsKept.append (k := "in") (by decide) (by decide)
    (IsKept.cons (by decide) fun _ => rfl))

section Scanner

variable {nest : Char → Int} (hnest : ∀ c, isBreak c = false → nest c = 0)

include hnest

/-- A piece does no more to a scanner than take an escape. -/
lemma run_of_isPiece {s : Scan} (hs : s.quote.IsOpened) {w : Text} (hw : IsPiece w) :
    Scan.run nest s w = if w = [] then s else ⟨s.quote.settled, s.depth⟩ := by
  induction w generalizing s with
  | nil => rfl
  | cons c w ih =>
    rw [IsPiece, List.forall_mem_cons] at hw
    have hnext : s.next nest c = ⟨s.quote.settled, s.depth⟩ := by
      have hmark : isQuoteMark c = false := by
        simp [isQuoteMark, ne_of_isBreak_eq_false hw.1 '\x27' (by decide),
          ne_of_isBreak_eq_false hw.1 '\x22' (by decide)]
      have hescape := ne_of_isBreak_eq_false hw.1 '\\' (by decide)
      obtain ⟨quote, depth⟩ := s
      cases quote with
      | outside => simp [Scan.next, QuoteState.next, QuoteState.settled, hmark, hnest c hw.1]
      | inside mark escaped =>
        have hother : c ≠ mark := by
          rintro rfl
          exact absurd hs (by simp [QuoteState.IsOpened, hmark])
        cases escaped <;>
          simp [Scan.next, QuoteState.next, QuoteState.settled, QuoteState.isCode, hescape, hother]
    rw [Scan.run_cons, hnext, ih hs.settled hw.2]
    simp

/-- Before the pass and after it, a piece leaves a scanner in the same state. -/
lemma run_convertLexical_of_isPiece {s : Scan} (hs : s.quote.IsOpened) {w : Text}
    (hw : IsPiece w) : Scan.run nest s (convertLexical w) = Scan.run nest s w := by
  rw [run_of_isPiece hnest hs hw.convertLexical, run_of_isPiece hnest hs hw]
  simp only [convertLexical_eq_nil_iff]

end Scanner

/-- Only quotation marks open literals. -/
lemma isOpened_run (nest : Char → Int) {s : Scan} (hs : s.quote.IsOpened) (t : Text) :
    (Scan.run nest s t).quote.IsOpened := by
  induction t generalizing s with
  | nil => exact hs
  | cons c t ih => exact ih (hs.next c)

namespace BracketPair

variable {pair : BracketPair} {c : Char} {start : Text}

/-- A piece is passed over in the search for a delimiter that starts with a break. -/
lemma cutFrom_append_of_isPiece (hc : isBreak c = true) (s : Scan) {w : Text} (hw : IsPiece w)
    (t : Text) :
    pair.cutFrom (c :: start) s 0 (w ++ t) =
      (w ++ (pair.cutFrom (c :: start) (Scan.run pair.nest s w) 0 t).1,
        (pair.cutFrom (c :: start) (Scan.run pair.nest s w) 0 t).2) := by
  induction w generalizing s with
  | nil => rfl
  | cons d w ih =>
    rw [IsPiece, List.forall_mem_cons] at hw
    have hstarts : startsWith (c :: start) (d :: (w ++ t)) = false := by
      simp [startsWith, strip?, Ne.symm (ne_of_isBreak_eq_false hw.1 c hc)]
    rw [List.cons_append, cutFrom, hstarts, Bool.and_false, if_neg (by simp), ih _ hw.2]
    rfl

/-- The rest of a delimiter is passed over. -/
lemma cutFrom_length_append (delimiter : Text) (s : Scan) (u t : Text) :
    pair.cutFrom delimiter s u.length (u ++ t) = pair.cutFrom delimiter s 0 t := by
  induction u with
  | nil => rfl
  | cons d u ih => rw [List.length_cons, List.cons_append, cutFrom, ih]

/-- A delimiter at an exposed character ends a piece, and the next one starts behind it. -/
lemma cutFrom_delimiter_append {s : Scan} (h : s.exposes pair.nest c = true) (t : Text) :
    pair.cutFrom (c :: start) s 0 (c :: (start ++ t)) =
      ([], (pair.cutFrom (c :: start) s 0 t).1 :: (pair.cutFrom (c :: start) s 0 t).2) := by
  have hstarts : startsWith (c :: start) (c :: (start ++ t)) = true :=
    Option.isSome_iff_exists.2 ⟨t, strip?_eq_some_iff.2 rfl⟩
  rw [cutFrom, hstarts, h, if_pos (by simp), List.length_cons, Nat.add_sub_cancel,
    cutFrom_length_append]

variable (hopener : isBreak pair.opener = true) (hcloser : isBreak pair.closer = true)

include hopener hcloser

/-- The pieces between the delimiters can be cut out before the pass or after it. -/
lemma cutFrom_convertLexical (hc : isBreak c = true) (hkept : IsKept (c :: start)) {s : Scan}
    (hs : s.quote.IsOpened) (t : Text) :
    pair.cutFrom (c :: start) s 0 (convertLexical t) =
      (convertLexical (pair.cutFrom (c :: start) s 0 t).1,
        (pair.cutFrom (c :: start) s 0 t).2.map convertLexical) := by
  have hnest : ∀ d, isBreak d = false → pair.nest d = 0 := by
    intro d hd
    simp [nest, ne_of_isBreak_eq_false hd _ hopener, ne_of_isBreak_eq_false hd _ hcloser]
  induction t using break_induction generalizing s with
  | piece w hw =>
    have hcut : ∀ {v : Text}, IsPiece v → pair.cutFrom (c :: start) s 0 v = (v, []) := by
      intro v hv
      rw [← List.append_nil v, cutFrom_append_of_isPiece hc s hv]
      simp [cutFrom]
    rw [hcut hw, hcut hw.convertLexical]
    rfl
  | cons w d t hw hd ih =>
    have hstate := isOpened_run pair.nest hs w
    rw [convertLexical_append_break hd, cutFrom_append_of_isPiece hc s hw,
      cutFrom_append_of_isPiece hc s hw.convertLexical, run_convertLexical_of_isPiece hnest hs hw]
    generalize Scan.run pair.nest s w = state at hstate
    have hstrip := hkept (d :: t)
    rw [convertLexical_cons_break hd] at hstrip
    have hstarts : startsWith (c :: start) (d :: convertLexical t) =
        startsWith (c :: start) (d :: t) := by
      simp [startsWith, hstrip]
    rw [cutFrom, cutFrom, hstarts]
    by_cases hcut : (state.exposes pair.nest d && !(c :: start).isEmpty &&
        startsWith (c :: start) (d :: t)) = true
    · simp only [hcut, ↓reduceIte, List.length_cons, Nat.add_sub_cancel, List.append_nil,
        List.map_cons]
      -- Behind the delimiter the search goes on in the same state.
      simp only [Bool.and_eq_true] at hcut
      obtain ⟨rest, hrest⟩ := Option.isSome_iff_exists.1 hcut.2
      rw [hrest, Option.map_some, strip?_eq_some_iff, List.cons_append, List.cons.injEq] at hstrip
      rw [strip?_eq_some_iff, List.cons_append, List.cons.injEq] at hrest
      rw [hstrip.2, hrest.2, cutFrom_length_append, cutFrom_length_append,
        ih rest ⟨start, hrest.2.symm⟩ hstate]
    · simp only [hcut, Bool.false_eq_true, ↓reduceIte]
      rw [ih t List.suffix_rfl (hstate.next d), convertLexical_append_break hd]

/-- A text can be split before the pass or after it. -/
lemma split_convertLexical (hc : isBreak c = true) (hkept : IsKept (c :: start)) (t : Text) :
    pair.split (c :: start) (convertLexical t) =
      (pair.split (c :: start) t).map convertLexical := by
  have hblank : ∀ ts : List Text,
      dropBlankLast (ts.map convertLexical) = (dropBlankLast ts).map convertLexical := by
    intro ts
    fun_induction dropBlankLast ts with
    | case1 => rfl
    | case2 u hu => simp [dropBlankLast, hu]
    | case3 u hu => simp [dropBlankLast, hu]
    | case4 u v ts ih => simpa [dropBlankLast] using ih
  have hcut := cutFrom_convertLexical (s := {}) hopener hcloser hc hkept trivial t
  unfold split pieces
  rw [hcut, ← hblank]
  rfl

lemma splitTrim_convertLexical (hc : isBreak c = true) (hkept : IsKept (c :: start)) (t : Text) :
    pair.splitTrim (c :: start) (convertLexical t) =
      (pair.splitTrim (c :: start) t).map convertLexical := by
  unfold splitTrim
  rw [split_convertLexical hopener hcloser hc hkept, List.map_map, List.map_map]
  exact List.map_congr_left fun piece _ => trim_convertLexical piece

end BracketPair

/-- A piece is passed over in the search for a colon. -/
lemma cutColonFrom?_append_of_isPiece (s : Scan) {w : Text} (hw : IsPiece w) (t : Text) :
    cutColonFrom? s (w ++ t) =
      (cutColonFrom? (Scan.run nestAll s w) t).map fun parts => (w ++ parts.1, parts.2) := by
  induction w generalizing s with
  | nil => simp
  | cons c w ih =>
    rw [IsPiece, List.forall_mem_cons] at hw
    have hcolon := ne_of_isBreak_eq_false hw.1 ':' (by decide)
    rw [List.cons_append, cutColonFrom?_cons, if_neg (by simp [hcolon]), ih _ hw.2, Option.map_map]
    rfl

/-- A header can be cut at its colon before the pass or after it. -/
lemma cutColonFrom?_convertLexical {s : Scan} (hs : s.quote.IsOpened) (t : Text) :
    cutColonFrom? s (convertLexical t) =
      (cutColonFrom? s t).map fun parts => (convertLexical parts.1, convertLexical parts.2) := by
  have hnest : ∀ c, isBreak c = false → nestAll c = 0 := by
    intro c hc
    have hne := ne_of_isBreak_eq_false hc
    simp [nestAll, hne '(' (by decide), hne '[' (by decide), hne '\x7b' (by decide),
      hne ')' (by decide), hne ']' (by decide), hne '\x7d' (by decide)]
  induction t using break_induction generalizing s with
  | piece w hw =>
    have hcut := cutColonFrom?_append_of_isPiece s hw []
    have hcut' := cutColonFrom?_append_of_isPiece s hw.convertLexical []
    rw [List.append_nil] at hcut hcut'
    rw [hcut, hcut']
    rfl
  | cons w c t hw hc ih =>
    have hstate := isOpened_run nestAll hs w
    rw [convertLexical_append_break hc, cutColonFrom?_append_of_isPiece s hw,
      cutColonFrom?_append_of_isPiece s hw.convertLexical,
      run_convertLexical_of_isPiece hnest hs hw]
    generalize Scan.run nestAll s w = state at hstate
    rw [cutColonFrom?_cons, cutColonFrom?_cons]
    split
    · simp
    · rw [ih t List.suffix_rfl (hstate.next c)]
      simp only [Option.map_map]
      refine congrArg (Option.map · _) (funext fun parts => ?_)
      simp [convertLexical_append_break hc]

end Rebrace
