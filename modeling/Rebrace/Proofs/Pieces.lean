import Mathlib
import Rebrace.Proofs.LocalSpelling
import Rebrace.Proofs.Scanning
import Rebrace.Proofs.Seam

/-!
# Pieces of a text and its brackets

A text that is cut into pieces, trimmed and joined again has the visible characters that it had,
and so its brackets are balanced exactly if they were: `isBalanced_visible_iff`.  Parts of which
only the white space is changed are joined to the same text only if none of them is changed:
`join_map_eq_iff`.  Closed parts with commas between them are cut one by one, and a part is passed
over if no delimiter begins in it.
-/

namespace Rebrace

open Text

/-! ### Visible characters

Cutting, trimming and joining changes the white space of a text, but not its visible characters. -/

/-- The characters of a text that are no white space. -/
def visible (t : Text) : Text :=
  t.filter fun c => !isWhite c

lemma visible_append (s t : Text) : visible (s ++ t) = visible s ++ visible t :=
  List.filter_append ..

lemma visible_eq_nil_of_forall {t : Text} (h : ∀ c ∈ t, isWhite c = true) : visible t = [] := by
  simpa [visible] using h

lemma visible_trimStart (t : Text) : visible (trimStart t) = visible t := by
  have hlead : visible (t.takeWhile isWhite) = [] :=
    visible_eq_nil_of_forall fun c hc => List.mem_takeWhile_imp hc
  have hparts := congrArg visible (List.takeWhile_append_dropWhile (p := isWhite) (l := t))
  rwa [visible_append, hlead, List.nil_append] at hparts

lemma visible_trimEnd (t : Text) : visible (trimEnd t) = visible t := by
  obtain ⟨tail, ht, htail⟩ := exists_eq_trimEnd_append t
  have hparts := congrArg visible ht
  rw [visible_append, visible_eq_nil_of_forall htail, List.append_nil] at hparts
  exact hparts.symm

lemma visible_trim (t : Text) : visible (trim t) = visible t := by
  rw [trim, visible_trimEnd, visible_trimStart]

/-- A text is blank if it has no visible characters. -/
lemma isBlank_eq_true_iff_visible {t : Text} : isBlank t = true ↔ visible t = [] := by
  simp [isBlank, visible]

/-- Whether a text is blank can be told from its visible characters. -/
lemma isBlank_eq_of_visible {s t : Text} (h : visible s = visible t) : isBlank s = isBlank t := by
  rw [Bool.eq_iff_iff, isBlank_eq_true_iff_visible, isBlank_eq_true_iff_visible, h]

lemma visible_join (separator : Text) (ts : List Text) :
    visible (join separator ts) = join (visible separator) (ts.map visible) := by
  induction ts with
  | nil => rfl
  | cons t ts ih =>
    cases ts with
    | nil => simp [join]
    | cons u ts =>
      simp only [join, List.map_cons, List.intercalate_cons_cons, visible_append] at ih ⊢
      rw [ih]

/-- A last piece is left out only if it is blank. -/
lemma dropBlankLast_eq_or (ts : List Text) :
    dropBlankLast ts = ts ∨ ∃ last, isBlank last = true ∧ ts = dropBlankLast ts ++ [last] := by
  fun_induction dropBlankLast ts with
  | case1 => exact Or.inl rfl
  | case2 t hblank => exact Or.inr ⟨t, hblank, rfl⟩
  | case3 => exact Or.inl rfl
  | case4 t u ts ih =>
    rcases ih with heq | ⟨last, hblank, heq⟩
    · exact Or.inl (congrArg _ heq)
    · exact Or.inr ⟨last, hblank, congrArg _ heq⟩

/-- Only the last of some pieces can be left out. -/
lemma dropBlankLast_append {ts us : List Text} (h : us ≠ []) :
    dropBlankLast (ts ++ us) = ts ++ dropBlankLast us := by
  induction ts with
  | nil => rfl
  | cons t ts ih =>
    obtain ⟨v, vs, hcons⟩ := List.exists_cons_of_ne_nil (show ts ++ us ≠ [] by simp [h])
    rw [List.cons_append, hcons, dropBlankLast, ← hcons, ih, List.cons_append]

/-- Pieces that are trimmed and joined with spaces have the visible characters of the pieces. -/
lemma visible_join_map_trim (ts : List Text) :
    visible (join ", " (ts.map trim)) = visible (join "," ts) := by
  have htrim : (ts.map trim).map visible = ts.map visible := by
    simp [visible_trim, Function.comp_def]
  rw [visible_join, visible_join, htrim]
  rfl

/-- Pieces that are trimmed and joined again have the visible characters of the text, except for a
comma at its end. -/
lemma visible_join_splitTrim (pair : BracketPair) (t : Text) :
    visible (join ", " (pair.splitTrim "," t)) = visible t ∨
      visible (join ", " (pair.splitTrim "," t)) ++ [','] = visible t := by
  have hpieces := BracketPair.join_pieces pair "," t
  rw [BracketPair.splitTrim, BracketPair.split, visible_join_map_trim]
  generalize pair.pieces "," t = ts at hpieces
  rcases dropBlankLast_eq_or ts with hall | ⟨last, hblank, hts⟩
  · rw [hall, hpieces]
    exact Or.inl rfl
  · have hlast : visible last = [] := visible_eq_nil_of_forall (List.all_eq_true.1 hblank)
    rw [hts] at hpieces
    by_cases hnil : dropBlankLast ts = []
    · rw [hnil] at hpieces ⊢
      have ht : last = t := by simpa [join] using hpieces
      rw [← ht, hlast]
      exact Or.inl rfl
    · have hsingle : join "," [last] = last := by simp [join]
      rw [join_append _ hnil (by simp), hsingle] at hpieces
      rw [← hpieces, visible_append, visible_append, hlast, List.append_nil]
      exact Or.inr rfl

/-! ### Balanced brackets -/

/-- The number of brackets that a text opens less the number of those that it closes. -/
def level (nest : Char → Int) (t : Text) : Int :=
  (t.map nest).sum

/-- The brackets of a text are balanced. -/
structure IsBalanced (nest : Char → Int) (t : Text) : Prop where
  /-- Nothing is closed before it was opened. -/
  nonneg : ∀ u, u <+: t → 0 ≤ level nest u
  /-- Everything is closed. -/
  level_eq : level nest t = 0

section Level

variable {nest : Char → Int}

instance (t : Text) : Decidable (IsBalanced nest t) :=
  decidable_of_iff ((∀ u ∈ t.inits, 0 ≤ level nest u) ∧ level nest t = 0)
    ⟨fun h => ⟨fun u hu => h.1 u ((List.mem_inits u t).2 hu), h.2⟩,
      fun h => ⟨fun u hu => h.nonneg u ((List.mem_inits u t).1 hu), h.level_eq⟩⟩

@[simp] lemma level_append (s t : Text) : level nest (s ++ t) = level nest s + level nest t := by
  simp [level]

@[simp] lemma level_cons (c : Char) (t : Text) : level nest (c :: t) = nest c + level nest t := by
  simp [level]

@[simp] lemma level_nil : level nest [] = 0 := rfl

/-- White space is none of the other characters. -/
lemma ne_of_isWhite {c : Char} (h : isWhite c = true) (mark : Char) (hmark : isWhite mark = false) :
    c ≠ mark := by
  rintro rfl
  rw [h] at hmark
  cases hmark

/-- White space is no bracket. -/
lemma BracketPair.nest_of_isWhite {pair : BracketPair} (hopener : isWhite pair.opener = false)
    (hcloser : isWhite pair.closer = false) (c : Char) (h : isWhite c = true) :
    pair.nest c = 0 := by
  rw [nest, if_neg (ne_of_isWhite h _ hopener), if_neg (ne_of_isWhite h _ hcloser)]

/-- All kinds of brackets are counted by counting each kind. -/
lemma nestAll_eq_add (c : Char) :
    nestAll c =
      BracketPair.round.nest c + BracketPair.square.nest c + BracketPair.curly.nest c := by
  by_cases hmem : c ∈ ['(', ')', '[', ']', '\x7b', '\x7d']
  · simp only [List.mem_cons, List.not_mem_nil, or_false] at hmem
    rcases hmem with rfl | rfl | rfl | rfl | rfl | rfl <;> decide
  · simp only [List.mem_cons, List.not_mem_nil, or_false, not_or] at hmem
    simp [nestAll, BracketPair.nest, BracketPair.round, BracketPair.square, BracketPair.curly, hmem]

/-- White space is no bracket of any kind. -/
lemma nestAll_eq_zero_of_isWhite {c : Char} (h : isWhite c = true) : nestAll c = 0 := by
  have hnest : ∀ pair ∈ [BracketPair.round, BracketPair.square, BracketPair.curly],
      pair.nest c = 0 := by
    intro pair hpair
    have hvisible : ∀ pair ∈ [BracketPair.round, BracketPair.square, BracketPair.curly],
        isWhite pair.opener = false ∧ isWhite pair.closer = false := by decide
    exact pair.nest_of_isWhite (hvisible pair hpair).1 (hvisible pair hpair).2 c h
  rw [nestAll_eq_add, hnest _ (by decide), hnest _ (by decide), hnest _ (by decide)]
  rfl

/-- White space is no quotation mark. -/
lemma isQuoteMark_eq_false_of_isWhite {c : Char} (h : isWhite c = true) :
    isQuoteMark c = false := by
  simp [isQuoteMark, ne_of_isWhite h '\x27' (by decide), ne_of_isWhite h '\x22' (by decide)]

/-- Without quotation marks, a scanner only counts brackets. -/
lemma run_of_forall {t : Text} (h : ∀ c ∈ t, isQuoteMark c = false) (d : Int) :
    Scan.run nest ⟨.outside, d⟩ t = ⟨.outside, d + level nest t⟩ := by
  induction t generalizing d with
  | nil => simp
  | cons c t ih =>
    rw [List.forall_mem_cons] at h
    have hnext : Scan.next nest ⟨.outside, d⟩ c = ⟨.outside, d + nest c⟩ := by
      simp [Scan.next, QuoteState.next, QuoteState.isCode, h.1]
    rw [Scan.run_cons, hnext, ih h.2, level_cons, add_assoc]

lemma IsBalanced.append {s t : Text} (hs : IsBalanced nest s) (ht : IsBalanced nest t) :
    IsBalanced nest (s ++ t) := by
  refine ⟨fun u hu => ?_, by rw [level_append, hs.level_eq, ht.level_eq, add_zero]⟩
  rcases List.prefix_or_prefix_of_prefix hu (List.prefix_append s t) with hus | ⟨v, rfl⟩
  · exact hs.nonneg u hus
  · have hv := ht.nonneg v ((List.prefix_append_right_inj s).1 hu)
    rwa [level_append, hs.level_eq, zero_add]

lemma isBalanced_of_forall {t : Text} (h : ∀ c ∈ t, nest c = 0) : IsBalanced nest t := by
  have hzero : ∀ {u : Text}, u <+: t → level nest u = 0 := by
    intro u hu
    refine List.sum_eq_zero fun n hn => ?_
    obtain ⟨c, hc, rfl⟩ := List.mem_map.1 hn
    exact h c (hu.subset hc)
  exact ⟨fun u hu => (hzero hu).ge, hzero List.prefix_rfl⟩

lemma IsBalanced.join {separator : Text} (hseparator : IsBalanced nest separator) {ts : List Text}
    (h : ∀ t ∈ ts, IsBalanced nest t) : IsBalanced nest (join separator ts) := by
  induction ts with
  | nil => exact isBalanced_of_forall (by simp [Text.join])
  | cons t ts ih =>
    rw [List.forall_mem_cons] at h
    cases ts with
    | nil => simpa [Text.join] using h.1
    | cons u ts =>
      rw [Text.join, List.intercalate_cons_cons]
      exact (h.1.append hseparator).append (ih h.2)

variable (hwhite : ∀ c, isWhite c = true → nest c = 0)
include hwhite

lemma level_visible (t : Text) : level nest (visible t) = level nest t := by
  induction t with
  | nil => rfl
  | cons c t ih =>
    by_cases hc : isWhite c = true
    · rw [visible, List.filter_cons_of_neg (by simp [hc]), level_cons, hwhite c hc, zero_add]
      exact ih
    · rw [visible, List.filter_cons_of_pos (by simp [hc]), level_cons, level_cons]
      exact congrArg _ ih

/-- White space does not matter for the brackets of a text. -/
lemma isBalanced_visible_iff {t : Text} : IsBalanced nest (visible t) ↔ IsBalanced nest t := by
  constructor
  · intro h
    refine ⟨fun u hu => ?_, level_visible hwhite t ▸ h.level_eq⟩
    exact level_visible hwhite u ▸ h.nonneg _ (hu.filter _)
  · intro h
    refine ⟨fun u hu => ?_, (level_visible hwhite t).trans h.level_eq⟩
    obtain ⟨v, hv, rfl⟩ := List.prefix_filter_iff.1 hu
    exact (h.nonneg v hv).trans_eq (level_visible hwhite v).symm

end Level

/-! ### Joining -/

/-- Lists of parts can be joined one by one. -/
lemma join_flatMap {α : Type} (separator : Text) {f : α → List Text} {l : List α}
    (h : ∀ a ∈ l, f a ≠ []) :
    join separator (l.flatMap f) = join separator (l.map fun a => join separator (f a)) := by
  induction l with
  | nil => rfl
  | cons a l ih =>
    rw [List.forall_mem_cons] at h
    cases l with
    | nil => simp [join]
    | cons b l =>
      have hrest : (b :: l).flatMap f ≠ [] := by
        simp [h.2 b List.mem_cons_self]
      rw [List.flatMap_cons, join_append _ h.1 hrest, ih h.2]
      simp [join, List.intercalate_cons_cons]

/-- Parts of which only the white space is changed are joined to the same text only if they are not
changed at all. -/
lemma join_map_eq_iff {f : Text → Text} {ts : List Text}
    (h : ∀ t ∈ ts, visible (f t) = visible t) :
    join ", " (ts.map f) = join ", " ts ↔ ∀ t ∈ ts, f t = t := by
  -- A part that is longer than the other one would hold the comma behind it.
  have hlonger : ∀ {s t rest more : Text}, visible s = visible t →
      s ++ ',' :: rest = t ++ ',' :: more → t <+: s → s = t := by
    rintro s t rest more hvisible heq ⟨u, rfl⟩
    cases u with
    | nil => exact List.append_nil t
    | cons c u =>
      obtain ⟨rfl, -⟩ : c = ',' ∧ _ := by simpa using heq
      have hlength := congrArg List.length hvisible
      have hcomma : visible (',' :: u) = ',' :: visible u := rfl
      rw [visible_append, hcomma] at hlength
      simp at hlength
  induction ts with
  | nil => simp
  | cons t ts ih =>
    rw [List.forall_mem_cons] at h
    cases ts with
    | nil => simp [join]
    | cons u ts =>
      have hjoin : ∀ v w, join ", " (v :: w :: ts) = v ++ ',' :: ' ' :: join ", " (w :: ts) := by
        simp [join, List.intercalate_cons_cons]
      have hjoin' : ∀ v w, join ", " (v :: w :: ts.map f) =
          v ++ ',' :: ' ' :: join ", " (w :: ts.map f) := by
        simp [join, List.intercalate_cons_cons]
      rw [List.map_cons, List.map_cons, hjoin, hjoin', ← List.map_cons, List.forall_mem_cons]
      constructor
      · intro heq
        have hfirst : f t = t := by
          rcases List.prefix_or_prefix_of_prefix (List.prefix_append (f t) _)
            (heq ▸ List.prefix_append t _) with hle | hle
          · exact (hlonger h.1.symm heq.symm hle).symm
          · exact hlonger h.1 heq hle
        rw [hfirst] at heq
        exact ⟨hfirst, (ih h.2).1 (by simpa using heq)⟩
      · rintro ⟨hfirst, hrest⟩
        rw [hfirst, (ih h.2).2 hrest]

/-! ### Cutting at a delimiter -/

/-- A space in front does not matter for the trimmed pieces. -/
lemma Scan.split_cons_space {nest : Char → Int} {separator : Char} (hspace : nest ' ' = 0)
    (hne : separator ≠ ' ') (t : Text) :
    Scan.split nest separator (' ' :: t) = Scan.split nest separator t := by
  have hcut : Scan.cut nest separator {} (' ' :: t) = _ :=
    Scan.cut_append_of_passes (Scan.passes_spaces hspace hne 1) t
  have hwhite : isWhite ' ' = true := by decide
  have htrim : ∀ u : Text, trim (spaces 1 ++ u) = trim u := fun u => by
    rw [trim, trimStart, spaces, List.replicate_one, List.singleton_append,
      List.dropWhile_cons_of_pos hwhite]
    rfl
  have hblank : ∀ u : Text, isBlank (spaces 1 ++ u) = isBlank u := fun u => by
    simp [isBlank, spaces, hwhite]
  rw [Scan.split, Scan.split, hcut]
  cases (Scan.cut nest separator {} t).2 with
  | nil =>
    simp only [dropBlankLast, hblank]
    split <;> simp [htrim]
  | cons v vs => simp [dropBlankLast, htrim]

namespace BracketPair

variable {pair : BracketPair}

/-- A part in which no delimiter begins outside of brackets is passed over. -/
lemma cutFrom_append_of_forall {delimiter : Text} {s : Scan} {u t : Text}
    (h : ∀ before c after, u = before ++ c :: after →
      (Scan.run pair.nest s before).exposes pair.nest c = true →
        ¬ delimiter <+: c :: (after ++ t)) :
    pair.cutFrom delimiter s 0 (u ++ t) =
      (u ++ (pair.cutFrom delimiter (Scan.run pair.nest s u) 0 t).1,
        (pair.cutFrom delimiter (Scan.run pair.nest s u) 0 t).2) := by
  induction u generalizing s with
  | nil => rfl
  | cons c u ih =>
    have hnot : (s.exposes pair.nest c && !delimiter.isEmpty &&
        startsWith delimiter (c :: (u ++ t))) = false := by
      rw [Bool.eq_false_iff]
      intro htrue
      simp only [Bool.and_eq_true] at htrue
      obtain ⟨rest, hrest⟩ := Option.isSome_iff_exists.1 htrue.2
      exact h [] c u rfl htrue.1.1 ⟨rest, (strip?_eq_some_iff.1 hrest).symm⟩
    have hrest := ih fun before d after hu => h (c :: before) d after (congrArg _ hu)
    rw [List.cons_append, cutFrom, hnot, if_neg (by simp), hrest, Scan.run_cons]
    rfl

/-- A text is cut at a comma behind a closed part. -/
lemma cutFrom_append_comma {s : Scan} {u : Text}
    (h : (Scan.run pair.nest s u).exposes pair.nest ',' = true) (t : Text) :
    pair.cutFrom [','] s 0 (u ++ ',' :: t) =
      ((pair.cutFrom [','] s 0 u).1, (pair.cutFrom [','] s 0 u).2 ++
        (pair.cutFrom [','] (Scan.run pair.nest s u) 0 t).1 ::
          (pair.cutFrom [','] (Scan.run pair.nest s u) 0 t).2) := by
  induction u generalizing s with
  | nil =>
    rw [Scan.run_nil] at h
    simp [cutFrom, h, startsWith, strip?]
  | cons c u ih =>
    have hstarts : startsWith [','] (c :: (u ++ ',' :: t)) = startsWith [','] (c :: u) := by
      rcases eq_or_ne ',' c with rfl | hc
      · simp [startsWith, strip?]
      · simp [startsWith, strip?, hc]
    rw [List.cons_append, cutFrom, cutFrom, hstarts]
    split
    · rename_i hcut
      simp only [Bool.and_eq_true] at hcut
      -- The state rests at the comma that is found here.
      have hnext := Scan.next_of_exposes hcut.1.1
      rw [Scan.run_cons, hnext] at h ⊢
      simp [ih h]
    · rw [Scan.run_cons] at h ⊢
      simp [ih h]

/-- The pieces of two closed parts with a comma between them are those of both parts. -/
lemma pieces_append_comma (hcomma : pair.nest ',' = 0) {u : Text}
    (hu : Scan.run pair.nest {} u = {}) (t : Text) :
    pair.pieces [','] (u ++ ',' :: t) = pair.pieces [','] u ++ pair.pieces [','] t := by
  have hexposes : (Scan.run pair.nest {} u).exposes pair.nest ',' = true := by
    simp [hu, Scan.exposes, hcomma, QuoteState.isCode, isQuoteMark]
  simp only [pieces, cutFrom_append_comma hexposes, hu]
  rfl

lemma splitTrim_cons_space (hspace : pair.nest ' ' = 0) (t : Text) :
    pair.splitTrim [','] (' ' :: t) = pair.splitTrim [','] t := by
  rw [Scan.splitTrim_eq_split, Scan.splitTrim_eq_split,
    Scan.split_cons_space hspace (by decide)]

end BracketPair

/-- In front of a comma, the pieces of a text have its visible characters. -/
lemma visible_isPrefix_join_splitTrim (pair : BracketPair) (s t : Text) :
    visible s <+: visible (join ", " (pair.splitTrim "," (s ++ ',' :: t))) := by
  have hvisible : visible (s ++ ',' :: t) = visible s ++ ',' :: visible t := visible_append ..
  rcases visible_join_splitTrim pair (s ++ ',' :: t) with heq | heq
  · rw [heq, hvisible]
    exact List.prefix_append _ _
  · rw [hvisible] at heq
    refine List.prefix_of_prefix_length_le (List.prefix_append _ _) ⟨_, heq⟩ ?_
    have hlength := congrArg List.length heq
    simp only [List.length_append, List.length_cons, List.length_nil] at hlength
    omega

/-! ### Texts inside a joined text -/

/-- A text without the separator that occurs in a joined text occurs in one of its parts. -/
lemma infix_of_infix_append_cons {w s t : Text} {c : Char} (hc : c ∉ w)
    (h : w <:+: s ++ c :: t) : w <:+: s ∨ w <:+: t := by
  rcases List.infix_append_iff.1 h with h | h | ⟨u, v, rfl, hu, hv⟩
  · exact Or.inl h
  · rcases List.infix_cons_iff.1 h with h | h
    · obtain rfl : w = [] := by
        rcases List.prefix_cons_iff.1 h with rfl | ⟨v, rfl, -⟩
        · rfl
        · exact absurd List.mem_cons_self hc
      exact Or.inl List.nil_infix
    · exact Or.inr h
  · rcases List.prefix_cons_iff.1 hv with rfl | ⟨v, rfl, -⟩
    · exact Or.inl (by simpa using hu.isInfix)
    · exact absurd (by simp) hc

end Rebrace
