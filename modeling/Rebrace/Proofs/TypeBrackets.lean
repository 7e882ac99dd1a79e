import Mathlib
import Rebrace.Proofs.Pieces
import Rebrace.Proofs.TypeReading

/-!
# Brackets of type annotations

A type annotation is accepted only if every square bracket that it opens is closed: a bracket span
has to end the text in which it is found, and the members of a union are read one by one.  Nothing
looks for a bracket that closes what was never opened, in a name or in front of the first bracket.
So the brackets of an accepted annotation are balanced exactly if it does not close more brackets
than it opens: `TypeExpr.isBalanced_iff_of_convert`.
-/

namespace Rebrace

open Text

/-! ### Texts that close what they open -/

/-- Everything that a text opens is closed in it: no end of the text opens more brackets than it
closes.  It may close brackets that it did not open. -/
def ClosesAll (nest : Char → Int) (t : Text) : Prop :=
  ∀ u, u <:+ t → level nest u ≤ 0

namespace ClosesAll

variable {nest : Char → Int} {s t : Text}

/-- A text that opens nothing. -/
lemma of_forall (h : ∀ c ∈ t, nest c ≤ 0) : ClosesAll nest t := by
  intro u hu
  have hle : ∀ n ∈ u.map nest, n ≤ 0 := by
    intro n hn
    obtain ⟨c, hc, rfl⟩ := List.mem_map.1 hn
    exact h c (hu.subset hc)
  simpa [level] using List.sum_le_card_nsmul _ 0 hle

/-- Texts one after the other. -/
lemma append (hs : ClosesAll nest s) (ht : ClosesAll nest t) : ClosesAll nest (s ++ t) := by
  intro u hu
  rcases List.suffix_or_suffix_of_suffix hu (List.suffix_append s t) with hut | ⟨v, rfl⟩
  · exact ht u hut
  · obtain ⟨front, hfront⟩ := hu
    rw [← List.append_assoc] at hfront
    have hv : level nest v ≤ 0 := hs v ⟨front, List.append_cancel_right hfront⟩
    have ht' : level nest t ≤ 0 := ht t List.suffix_rfl
    rw [level_append]
    omega

/-- Joined texts, with a text between them that opens nothing. -/
lemma join {separator : Text} (hseparator : ClosesAll nest separator) {ts : List Text}
    (h : ∀ t ∈ ts, ClosesAll nest t) : ClosesAll nest (Text.join separator ts) := by
  induction ts with
  | nil => exact of_forall (by simp [Text.join])
  | cons t ts ih =>
    rw [List.forall_mem_cons] at h
    by_cases hts : ts = []
    · simpa [Text.join, hts] using h.1
    · rw [Text.join, List.intercalate_cons_of_ne_nil hts]
      exact (h.1.append hseparator).append (ih h.2)

/-- Balanced brackets are closed. -/
lemma of_isBalanced (h : IsBalanced nest t) : ClosesAll nest t := by
  rintro u ⟨front, rfl⟩
  have hfront := h.nonneg front (List.prefix_append _ _)
  have hlevel := h.level_eq
  rw [level_append] at hlevel
  omega

/-- If everything that is opened is closed, the brackets are balanced unless more are closed. -/
lemma isBalanced_iff (h : ClosesAll nest t) : IsBalanced nest t ↔ 0 ≤ level nest t := by
  constructor
  · exact fun hbalanced => hbalanced.level_eq.ge
  · intro hlevel
    refine ⟨?_, le_antisymm (h t List.suffix_rfl) hlevel⟩
    rintro u ⟨rest, rfl⟩
    have hrest := h rest (List.suffix_append _ _)
    rw [level_append] at hlevel
    omega

section White

variable (hwhite : ∀ c, isWhite c = true → nest c = 0)
include hwhite

/-- White space at the ends does not matter. -/
lemma of_trim (h : ClosesAll nest (trim t)) : ClosesAll nest t := by
  have hblank : ∀ {u : Text}, (∀ c ∈ u, isWhite c = true) → ClosesAll nest u :=
    fun hu => of_forall fun c hc => (hwhite c (hu c hc)).le
  obtain ⟨lead, tail, heq, hlead, htail⟩ := exists_eq_append_trim_append t
  rw [heq]
  exact (hblank hlead).append (h.append (hblank htail))

/-- A text closes what it opens if all of its pieces do. -/
lemma of_splitTrim (pair : BracketPair) {delimiter : Text} (hdelimiter : ClosesAll nest delimiter)
    (h : ∀ piece ∈ pair.splitTrim delimiter t, ClosesAll nest piece) : ClosesAll nest t := by
  have hkept : ∀ raw ∈ dropBlankLast (pair.pieces delimiter t), ClosesAll nest raw :=
    fun raw hraw => of_trim hwhite (h _ (List.mem_map_of_mem hraw))
  rw [← BracketPair.join_pieces pair delimiter t]
  refine join hdelimiter ?_
  rcases dropBlankLast_eq_or (pair.pieces delimiter t) with hall | ⟨last, hblank, hall⟩
  · rwa [hall] at hkept
  · rw [hall]
    intro raw hraw
    rcases List.mem_append.1 hraw with hraw | hraw
    · exact hkept raw hraw
    · rw [List.mem_singleton.1 hraw]
      exact of_forall fun c hc => (hwhite c (List.all_eq_true.1 hblank c hc)).le

end White

end ClosesAll

/-! ### Partners -/

namespace BracketPair

/-- One character of the search for a partner: it closes the last bracket, or the search goes on
with the depth that it leaves. -/
lemma enclosed?_cons_cases (pair : BracketPair) (depth : Nat) (c : Char) (t : Text) :
    (depth = 0 ∧ pair.enclosed? depth (c :: t) = some ([], t)) ∨
      ∃ d : Nat, (d : Int) = depth + pair.nest c ∧
        pair.enclosed? depth (c :: t) =
          (pair.enclosed? d t).map fun parts => (c :: parts.1, parts.2) := by
  rw [enclosed?.eq_def, nest]
  by_cases hopener : c = pair.opener
  · exact Or.inr ⟨depth + 1, by simp [hopener], by simp [hopener]⟩
  · by_cases hcloser : c = pair.closer
    · subst hcloser
      rcases depth with _ | depth
      · exact Or.inl ⟨rfl, by simp [hopener]⟩
      · exact Or.inr ⟨depth, by simp [hopener], by simp [hopener]⟩
    · exact Or.inr ⟨depth, by simp [hopener, hcloser], by simp [hopener, hcloser]⟩

/-- Between an opening bracket and its partner, the depth returns to zero and does not fall below;
where `depth` more brackets are open, it falls by as much. -/
lemma level_of_enclosed? {pair : BracketPair} {depth : Nat} {t inner after : Text}
    (h : pair.enclosed? depth t = some (inner, after)) :
    level pair.nest inner = -depth ∧ ∀ u, u <+: inner → -(depth : Int) ≤ level pair.nest u := by
  induction t generalizing depth inner with
  | nil => cases h
  | cons c t ih =>
    rcases enclosed?_cons_cases pair depth c t with ⟨rfl, hclosed⟩ | ⟨d, hd, hnext⟩
    · obtain ⟨rfl, rfl⟩ : [] = inner ∧ t = after := by simpa [hclosed] using h
      simp
    · rw [hnext] at h
      obtain ⟨⟨rest, behind⟩, hrest, hparts⟩ := Option.map_eq_some_iff.1 h
      obtain ⟨rfl, rfl⟩ : c :: rest = inner ∧ behind = after := by simpa using hparts
      obtain ⟨hlevel, hle⟩ := ih hrest
      refine ⟨by rw [level_cons, hlevel]; omega, fun u hu => ?_⟩
      rcases List.prefix_cons_iff.1 hu with rfl | ⟨v, rfl, hv⟩
      · simp
      · have hv' := hle v hv
        rw [level_cons]
        omega

/-- What stands between an opening bracket and its partner is balanced. -/
lemma isBalanced_of_enclosed? {pair : BracketPair} {t inner after : Text}
    (h : pair.enclosed? 0 t = some (inner, after)) : IsBalanced pair.nest inner := by
  obtain ⟨hlevel, hle⟩ := level_of_enclosed? h
  exact ⟨by simpa using hle, by simpa using hlevel⟩

/-- A character other than the opening bracket opens nothing. -/
lemma square_nest_le_zero {c : Char} (h : c ≠ '[') : square.nest c ≤ 0 := by
  have hopener : c ≠ square.opener := h
  rw [nest, if_neg hopener]
  split <;> decide

/-- The brackets of a text, counted. -/
lemma level_nest {pair : BracketPair} (hne : pair.opener ≠ pair.closer) (t : Text) :
    level pair.nest t = t.count pair.opener - t.count pair.closer := by
  induction t with
  | nil => rfl
  | cons c t ih =>
    rw [level_cons, ih, nest]
    by_cases hopen : c = pair.opener
    · rw [if_pos hopen, hopen, List.count_cons_self, List.count_cons_of_ne hne]
      omega
    · rw [if_neg hopen, List.count_cons_of_ne hopen]
      by_cases hclose : c = pair.closer
      · rw [if_pos hclose, hclose, List.count_cons_self]
        omega
      · rw [if_neg hclose, List.count_cons_of_ne hclose]
        omega

/-- The square brackets of a text, counted. -/
lemma level_square (t : Text) : level square.nest t = t.count '[' - t.count ']' :=
  level_nest (by decide) t

end BracketPair

/-- A text that ends with the partner of its first square bracket. -/
lemma closesAll_of_first {t : Text} {span : BracketSpan} (h : BracketSpan.first t true = .ok span) :
    ClosesAll BracketPair.square.nest t := by
  unfold BracketSpan.first at h
  split at h
  · cases h
  · rename_i before rest hcut
    split at h
    · cases h
    · rename_i inner after henclosed
      split at h
      · cases h
      · rename_i hafter
        obtain ⟨rfl, hbefore⟩ := cutAtChar?_eq_some hcut
        have hnil : after = [] := by simpa using hafter
        have hinner := BracketPair.isBalanced_of_enclosed? henclosed
        have hclosed : ClosesAll BracketPair.square.nest (inner ++ [']']) :=
          (ClosesAll.of_isBalanced hinner).append (.of_forall (forall_mem_of_all (by decide)))
        have hspan : ClosesAll BracketPair.square.nest ('[' :: (inner ++ [']'])) := by
          intro u hu
          rcases List.suffix_cons_iff.1 hu with rfl | hu
          · have hlevel : level BracketPair.square.nest ('[' :: (inner ++ [']'])) = 0 := by
              rw [level_cons, level_append, hinner.level_eq]
              rfl
            exact hlevel.le
          · exact hclosed u hu
        have hopens : ∀ c ∈ before, BracketPair.square.nest c ≤ 0 := by
          intro c hc
          refine BracketPair.square_nest_le_zero ?_
          rintro rfl
          exact hbefore hc
        rw [BracketPair.enclosed?_eq_some henclosed, hnil]
        exact (ClosesAll.of_forall hopens).append hspan

/-! ### Annotations -/

/-- What is accepted as a type is a text without opening brackets, a text that ends with the partner
of its first bracket, or a union of the pieces between bars. -/
lemma Shape.cases_of_classify {expr : Text} {shape : Shape} (h : classify expr = .ok shape) :
    '[' ∉ trim expr ∨ (∃ span, BracketSpan.first (trim expr) true = .ok span) ∨
      shape = .union (BracketPair.square.splitTrim "|" (trim expr)) ∧
        1 < (BracketPair.square.splitTrim "|" (trim expr)).length := by
  unfold classify classifyTrimmed at h
  split at h
  · rename_i hprimitive
    have hname := isDotted_of_isSome_lookup? (Option.isSome_of_mem hprimitive)
    exact Or.inl (notMem_of_isDotted hname (by decide) (by decide))
  · split at h
    · rename_i hnone
      rw [hnone]
      exact Or.inl (by decide)
    · simp only at h
      split at h
      · rename_i hmany
        cases h
        exact Or.inr (Or.inr ⟨rfl, hmany⟩)
      · split at h
        · rename_i hbracket
          exact Or.inl hbracket
        · split at h
          · cases h
          · rename_i span hspan
            exact Or.inr (Or.inl ⟨span, hspan⟩)

/-- Every step for the members of a list succeeds if all together do. -/
lemma exists_eq_ok_of_mapM {α β : Type} {f : α → Except Error β} {l : List α} {bs : List β}
    (h : l.mapM f = .ok bs) : ∀ a ∈ l, ∃ b, f a = .ok b := by
  induction l generalizing bs with
  | nil => simp
  | cons a l ih =>
    rw [List.mapM_cons] at h
    obtain ⟨b, hb, hrest⟩ := bind_eq_ok_iff.1 h
    obtain ⟨rest, hl, -⟩ := bind_eq_ok_iff.1 hrest
    exact List.forall_mem_cons.2 ⟨⟨b, hb⟩, ih hl⟩

/-- **An annotation that is read closes every bracket that it opens.** -/
lemma closesAll_of_parse {expr : Text} {e : TypeExpr} (h : TypeExpr.parse expr = .ok e) :
    ClosesAll BracketPair.square.nest expr := by
  have hwhite : ∀ c, isWhite c = true → BracketPair.square.nest c = 0 :=
    BracketPair.nest_of_isWhite (by decide) (by decide)
  induction hn : expr.length using Nat.strong_induction_on generalizing expr e with
  | _ n ih =>
    subst hn
    rw [TypeExpr.parse_eq] at h
    obtain ⟨shape, hshape, hread⟩ := bind_eq_ok_iff.1 h
    refine ClosesAll.of_trim hwhite ?_
    rcases Shape.cases_of_classify hshape with hbracket | ⟨span, hspan⟩ | ⟨rfl, hmany⟩
    · refine ClosesAll.of_forall fun c hc => BracketPair.square_nest_le_zero ?_
      rintro rfl
      exact hbracket hc
    · exact closesAll_of_first hspan
    · obtain ⟨members, hmembers, -⟩ := map_eq_ok_iff.1 hread
      have hbar : ClosesAll BracketPair.square.nest ['|'] :=
        .of_forall (forall_mem_of_all (by decide))
      refine ClosesAll.of_splitTrim hwhite .square hbar fun piece hpiece => ?_
      obtain ⟨member, hmember⟩ := exists_eq_ok_of_mapM hmembers piece hpiece
      exact ih piece.length (Shape.length_lt_of_mem_parts hshape hpiece) hmember rfl

/-- **An annotation that is accepted closes every square bracket that it opens, and its brackets are
balanced exactly if it does not close more than it opens.** -/
theorem TypeExpr.isBalanced_iff_of_convert {place : Place} {expr target : Text}
    (h : convert place expr = .ok target) :
    (∀ u, u <:+ expr → u.count '[' ≤ u.count ']') ∧
      (IsBalanced BracketPair.square.nest expr ↔ expr.count ']' ≤ expr.count '[') := by
  obtain ⟨e, hparse, -⟩ := map_eq_ok_iff.1 h
  have hcloses := closesAll_of_parse hparse
  refine ⟨fun u hu => ?_, ?_⟩
  · have hlevel := hcloses u hu
    rw [BracketPair.level_square] at hlevel
    omega
  · rw [hcloses.isBalanced_iff, BracketPair.level_square]
    omega

/-- A mapping to lists, or nothing. -/
theorem TypeExpr.isBalanced_iff_of_convert_mapping :
    convert .value "Dict[str, List[int]] | None" = .ok "Map<string, Array<number>> | null" ∧
      IsBalanced BracketPair.square.nest "Dict[str, List[int]] | None" := by
  let t : TypeTree :=
    .bars
      [.apply (.mapping "Dict") [.primitive "str", .apply (.sequence "List") [.primitive "int"]],
        .absent]
  have hconvert : convert .value "Dict[str, List[int]] | None" =
      .ok "Map<string, Array<number>> | null" :=
    t.convert_eq_ok (by decide) (by decide) .value
  exact ⟨hconvert, (isBalanced_iff_of_convert hconvert).2.2 (by decide)⟩

/-- A closing bracket behind a name is accepted as a part of the name. -/
theorem TypeExpr.not_isBalanced_of_convert :
    convert .value "int]" = .ok "int]" ∧ ¬ IsBalanced BracketPair.square.nest "int]" := by
  refine ⟨?_, by decide⟩
  rw [convert, parse_eq]
  rfl

end Rebrace
