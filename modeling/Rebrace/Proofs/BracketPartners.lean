import Mathlib
import Rebrace.Proofs.Offsets
import Rebrace.Proofs.TypeBrackets

/-!
# Brackets and their partners

The partner of a bracket is found by counting its kind of brackets while the text is read.  It is
the first place at which as many brackets have been closed as opened: `BracketPair.IsPartner` says
this about the slices of the text that start at the bracket, and all offsets are numbers of bytes.
What the counter has read is a part of the text whose level is known, `level_of_enclosed?`, so that
its answer is the partner, `isPartner_of_enclosed?`, and a slice has this level exactly if its
brackets are counted even, `mem_evenOffsets_iff`.

For every text and every offset, `matchingBracket` gives the partner, or the error that says why
there is none, and `BracketSpan.first` gives the first square brackets, or the error for the first
condition that does not hold: `matchingBracket_and_first_exact`.
-/

namespace Rebrace

open Text

/-! ### Places in a text -/

/-- The character `c` stands at an offset of a text. -/
def CharAt (c : Char) (text : Text) (offset : Nat) : Prop :=
  ∃ front rest, text = front ++ c :: rest ∧ utf8Size front = offset

/-- The first place of a character in a text. -/
def IsFirst (c : Char) (text : Text) (offset : Nat) : Prop :=
  IsLeast {i | CharAt c text i} offset

/-- Of two first parts of a text, the one of fewer bytes is a first part of the other. -/
lemma prefix_of_utf8Size_le {text u v : Text} (hu : u <+: text) (hv : v <+: text)
    (hle : utf8Size u ≤ utf8Size v) : u <+: v := by
  rcases List.prefix_or_prefix_of_prefix hu hv with huv | ⟨w, rfl⟩
  · exact huv
  · rcases w with _ | ⟨c, w⟩
    · rw [List.append_nil]
    · have hpos := c.utf8Size_pos
      rw [utf8Size_append, utf8Size_cons] at hle
      omega

lemma isFirst_of_cutAtChar? {c : Char} {text before after : Text}
    (h : cutAtChar? c text = some (before, after)) : IsFirst c text (utf8Size before) := by
  obtain ⟨rfl, hnot⟩ := cutAtChar?_eq_some h
  refine ⟨⟨before, after, rfl, rfl⟩, ?_⟩
  rintro i ⟨front, rest, htext, rfl⟩
  have hfront : front <+: before ++ c :: after := ⟨c :: rest, htext.symm⟩
  rcases List.prefix_or_prefix_of_prefix hfront (List.prefix_append before _) with
    ⟨v, rfl⟩ | ⟨v, rfl⟩
  · rcases v with _ | ⟨d, v⟩
    · simp
    · obtain ⟨rfl, -⟩ : d = c ∧ _ := by simpa using htext
      simp at hnot
  · simp

lemma not_charAt_of_cutAtChar? {c : Char} {text : Text} (h : cutAtChar? c text = none)
    (offset : Nat) : ¬ CharAt c text offset := by
  have hnot : c ∉ text := by
    intro hmem
    obtain ⟨front, rest, rfl, hfront⟩ := List.eq_append_cons_of_mem hmem
    simp [cutAtChar?_append hfront] at h
  rintro ⟨front, rest, rfl, -⟩
  simp at hnot

/-! ### Partners -/

namespace BracketPair

/-- A bracket of one of the three kinds is opened at an offset of a text. -/
structure OpensAt (pair : BracketPair) (text : Text) (offset : Nat) : Prop where
  /-- The brackets are square, round or curly. -/
  kind : pair ∈ [square, round, curly]
  /-- The opening bracket stands at the offset. -/
  charAt : CharAt pair.opener text offset

/-- The offsets behind `start` up to which, from `start` on, as many brackets are closed as opened;
the character at the offset is included. -/
def evenOffsets (pair : BracketPair) (text : Text) (start : Nat) : Set Nat :=
  {stop | start < stop ∧ ∃ part, Positional.slice text start (stop + 1) = some part ∧
    part.count pair.closer = part.count pair.opener}

/-- The partner of the bracket at `start` stands at `stop`. -/
def IsPartner (pair : BracketPair) (text : Text) (start stop : Nat) : Prop :=
  IsLeast (pair.evenOffsets text start) stop

variable {pair : BracketPair} {text : Text} {start stop : Nat}

/-- The two brackets of a pair differ and are one byte long each, and the first one tells the
kind. -/
lemma facts_of_kind (h : pair ∈ [square, round, curly]) :
    pair.opener ≠ pair.closer ∧ pair.opener.utf8Size = 1 ∧ pair.closer.utf8Size = 1 ∧
      ofOpener? pair.opener = some pair := by
  have hall : ∀ pair ∈ [square, round, curly],
      pair.opener ≠ pair.closer ∧ pair.opener.utf8Size = 1 ∧ pair.closer.utf8Size = 1 ∧
        ofOpener? pair.opener = some pair := by decide
  exact hall pair h

/-- A slice that starts at an opening bracket. -/
lemma slice_opener_iff (hopener : pair.opener.utf8Size = 1) {front rest part : Text}
    (hstop : utf8Size front < stop) :
    Positional.slice (front ++ pair.opener :: rest) (utf8Size front) stop = some part ↔
      ∃ u, u <+: rest ∧ part = pair.opener :: u ∧ stop = utf8Size front + 1 + utf8Size u := by
  rw [Positional.slice_eq_some_iff]
  constructor
  · rintro ⟨before, w, htext, hbefore, rfl⟩
    obtain ⟨rfl, hpart⟩ := Positional.append_inj_of_utf8Size htext hbefore.symm
    rcases part with _ | ⟨c, u⟩
    · simp at hstop
    · obtain ⟨rfl, rfl⟩ := List.cons.inj hpart
      exact ⟨u, List.prefix_append u w, rfl, by simp [hopener, Nat.add_assoc]⟩
  · rintro ⟨u, ⟨w, rfl⟩, rfl, rfl⟩
    exact ⟨front, w, rfl, rfl, by simp [hopener, Nat.add_assoc]⟩

/-- As many brackets are closed as opened where what follows the opening bracket closes one more
than it opens. -/
lemma mem_evenOffsets_iff (hkind : pair ∈ [square, round, curly]) {front rest : Text} :
    stop ∈ pair.evenOffsets (front ++ pair.opener :: rest) (utf8Size front) ↔
      ∃ u, u <+: rest ∧ level pair.nest u = -1 ∧ stop = utf8Size front + utf8Size u := by
  obtain ⟨hne, hopener, -, -⟩ := facts_of_kind hkind
  have hlevel : ∀ u : Text, (pair.opener :: u).count pair.closer =
      (pair.opener :: u).count pair.opener ↔ level pair.nest u = -1 := by
    intro u
    rw [level_nest hne, List.count_cons_self, List.count_cons_of_ne hne]
    omega
  constructor
  · rintro ⟨hlt, part, hslice, hcount⟩
    obtain ⟨u, hu, rfl, hstop⟩ := (slice_opener_iff hopener (by omega)).1 hslice
    exact ⟨u, hu, (hlevel u).1 hcount, by omega⟩
  · rintro ⟨u, hu, hclosed, rfl⟩
    have hpos : 0 < utf8Size u := by
      refine Positional.utf8Size_pos_of_ne_nil ?_
      rintro rfl
      simp at hclosed
    have hslice : Positional.slice (front ++ pair.opener :: rest) (utf8Size front)
        (utf8Size front + utf8Size u + 1) = some (pair.opener :: u) :=
      (slice_opener_iff hopener (by omega)).2 ⟨u, hu, rfl, by omega⟩
    exact ⟨by omega, pair.opener :: u, hslice, (hlevel u).2 hclosed⟩

/-- Without a partner, the brackets that are open are never all closed. -/
lemma le_level_of_enclosed?_eq_none {depth : Nat} {t u : Text}
    (h : pair.enclosed? depth t = none) (hu : u <+: t) : -(depth : Int) ≤ level pair.nest u := by
  induction t generalizing depth u with
  | nil => simp [List.prefix_nil.1 hu]
  | cons c t ih =>
    rcases enclosed?_cons_cases pair depth c t with ⟨-, hclosed⟩ | ⟨d, hd, hnext⟩
    · simp [hclosed] at h
    · rw [hnext, Option.map_eq_none_iff] at h
      rcases List.prefix_cons_iff.1 hu with rfl | ⟨v, rfl, hv⟩
      · simp
      · have hle := ih h hv
        rw [level_cons]
        omega

section Counter

variable {front rest inner after : Text} (hkind : pair ∈ [square, round, curly])
include hkind

/-- What the counter finds is the partner. -/
lemma isPartner_of_enclosed? (h : pair.enclosed? 0 rest = some (inner, after)) :
    pair.IsPartner (front ++ pair.opener :: rest) (utf8Size front)
      (utf8Size front + 1 + utf8Size inner) := by
  obtain ⟨hne, -, hcloser, -⟩ := facts_of_kind hkind
  have hbalanced := isBalanced_of_enclosed? h
  obtain rfl := enclosed?_eq_some h
  constructor
  · refine (mem_evenOffsets_iff hkind).2 ⟨inner ++ [pair.closer], ⟨after, by simp⟩, ?_, ?_⟩
    · rw [level_append, hbalanced.level_eq, level_nest hne]
      simp [hne.symm]
    · rw [utf8Size_append, utf8Size_cons, hcloser, utf8Size_nil]
      omega
  · intro stop hstop
    obtain ⟨u, hu, hlevel, rfl⟩ := (mem_evenOffsets_iff hkind).1 hstop
    rcases List.prefix_or_prefix_of_prefix hu (List.prefix_append inner _) with hle | ⟨v, rfl⟩
    · -- inside of the brackets, no more is closed than was opened
      have hnonneg := hbalanced.nonneg u hle
      omega
    · rcases List.prefix_cons_iff.1 ((List.prefix_append_right_inj inner).1 hu) with
        rfl | ⟨w, rfl, -⟩
      · rw [List.append_nil, hbalanced.level_eq] at hlevel
        omega
      · rw [utf8Size_append, utf8Size_cons, hcloser]
        omega

/-- Where the counter finds nothing, there is no partner. -/
lemma not_isPartner_of_enclosed? (h : pair.enclosed? 0 rest = none) (stop : Nat) :
    ¬ pair.IsPartner (front ++ pair.opener :: rest) (utf8Size front) stop := by
  rintro ⟨hstop, -⟩
  obtain ⟨u, hu, hlevel, -⟩ := (mem_evenOffsets_iff hkind).1 hstop
  have hle := le_level_of_enclosed?_eq_none h hu
  omega

end Counter

/-- Up to its partner, a bracket is open. -/
lemma count_lt_of_isPartner (h : pair.OpensAt text start)
    (hpartner : pair.IsPartner text start stop) {k : Nat} (hstart : start < k) (hk : k ≤ stop)
    {part : Text} (hslice : Positional.slice text start k = some part) :
    part.count pair.closer < part.count pair.opener := by
  obtain ⟨hkind, front, rest, rfl, rfl⟩ := h
  obtain ⟨hne, hopener, -, -⟩ := facts_of_kind hkind
  obtain ⟨u, hu, rfl, rfl⟩ := (slice_opener_iff hopener hstart).1 hslice
  rcases hrest : pair.enclosed? 0 rest with _ | ⟨inner, after⟩
  · exact absurd hpartner (not_isPartner_of_enclosed? hkind hrest stop)
  · obtain rfl := hpartner.unique (isPartner_of_enclosed? hkind hrest)
    have hinner : u <+: inner := by
      refine prefix_of_utf8Size_le hu ?_ (by omega)
      rw [enclosed?_eq_some hrest]
      exact List.prefix_append inner _
    have hnonneg := (isBalanced_of_enclosed? hrest).nonneg u hinner
    rw [level_nest hne] at hnonneg
    rw [List.count_cons_self, List.count_cons_of_ne hne]
    omega

/-! ### The search for a partner -/

/-- At an opening bracket, the search finds the partner if there is one. -/
lemma matchingBracket_cases (h : pair.OpensAt text start) :
    (∃ stop, pair.IsPartner text start stop ∧ matchingBracket text start = .ok stop) ∨
      (∀ stop, ¬ pair.IsPartner text start stop) ∧
        matchingBracket text start = .error (.unmatchedBracket text start) := by
  obtain ⟨hkind, front, rest, rfl, rfl⟩ := h
  obtain ⟨-, hopener, -, hpair⟩ := facts_of_kind hkind
  simp only [matchingBracket, Positional.splitAtByte?_append, hpair, hopener]
  rcases hrest : pair.enclosed? 0 rest with _ | ⟨inner, after⟩
  · exact Or.inr ⟨not_isPartner_of_enclosed? hkind hrest, rfl⟩
  · exact Or.inl ⟨_, isPartner_of_enclosed? hkind hrest, rfl⟩

/-- Where no bracket is opened, none is found: outside of the text, inside a character, and at any
other character. -/
lemma matchingBracket_of_not_opensAt (h : ∀ pair : BracketPair, ¬ pair.OpensAt text start) :
    matchingBracket text start = .error (.noBracketFound text) := by
  unfold matchingBracket
  rcases hcut : splitAtByte? start text with _ | ⟨front, _ | ⟨c, rest⟩⟩
  · rfl
  · rfl
  · rcases hpair : ofOpener? c with _ | pair
    · simp [hpair]
    · obtain ⟨htext, hfront⟩ := Positional.splitAtByte?_eq_some_iff.1 hcut
      have hfound := List.find?_some hpair
      have hopener : pair.opener = c := beq_iff_eq.1 hfound
      exact absurd ⟨List.mem_of_find?_eq_some hpair, front, rest, by rw [hopener, htext], hfront⟩
        (h pair)

lemma matchingBracket_eq_noBracketFound_iff :
    matchingBracket text start = .error (.noBracketFound text) ↔
      ∀ pair : BracketPair, ¬ pair.OpensAt text start := by
  refine ⟨fun h pair hopens => ?_, matchingBracket_of_not_opensAt⟩
  rcases matchingBracket_cases hopens with ⟨stop, -, hfound⟩ | ⟨-, herror⟩
  · simp [hfound] at h
  · simp [herror] at h

lemma matchingBracket_eq_ok_iff :
    matchingBracket text start = .ok stop ↔
      ∃ pair : BracketPair, pair.OpensAt text start ∧ pair.IsPartner text start stop := by
  constructor
  · intro h
    by_cases hopens : ∃ pair : BracketPair, pair.OpensAt text start
    · obtain ⟨pair, hopens⟩ := hopens
      rcases matchingBracket_cases hopens with ⟨i, hi, hfound⟩ | ⟨-, herror⟩
      · obtain rfl : i = stop := by simpa [hfound] using h
        exact ⟨pair, hopens, hi⟩
      · simp [herror] at h
    · simp [matchingBracket_of_not_opensAt (not_exists.1 hopens)] at h
  · rintro ⟨pair, hopens, hstop⟩
    rcases matchingBracket_cases hopens with ⟨i, hi, hfound⟩ | ⟨hnone, -⟩
    · rw [hfound, hi.unique hstop]
    · exact absurd hstop (hnone stop)

lemma matchingBracket_eq_unmatched_iff :
    matchingBracket text start = .error (.unmatchedBracket text start) ↔
      ∃ pair : BracketPair, pair.OpensAt text start ∧
        ∀ stop, ¬ pair.IsPartner text start stop := by
  constructor
  · intro h
    by_cases hopens : ∃ pair : BracketPair, pair.OpensAt text start
    · obtain ⟨pair, hopens⟩ := hopens
      rcases matchingBracket_cases hopens with ⟨i, -, hfound⟩ | ⟨hnone, -⟩
      · simp [hfound] at h
      · exact ⟨pair, hopens, hnone⟩
    · simp [matchingBracket_of_not_opensAt (not_exists.1 hopens)] at h
  · rintro ⟨pair, hopens, hnone⟩
    rcases matchingBracket_cases hopens with ⟨i, hi, -⟩ | ⟨-, herror⟩
    · exact absurd hi (hnone i)
    · exact herror

end BracketPair

/-! ### The first square brackets -/

namespace BracketSpan

/-- What the search for the first square brackets of a text gives: the span of the brackets, or the
error for the first condition that does not hold. -/
inductive Outcome (text : Text) (atEnd : Bool) : Except Error BracketSpan → Prop where
  /-- No bracket is opened. -/
  | noBracket (hnone : ∀ offset, ¬ CharAt '[' text offset) :
    Outcome text atEnd (.error (.noBracketFound text))
  /-- The first bracket has no partner. -/
  | unmatched {start : Nat} (hstart : IsFirst '[' text start)
      (hnone : ∀ stop, ¬ BracketPair.square.IsPartner text start stop) :
    Outcome text atEnd (.error (.unmatchedBracket text start))
  /-- The partner has to be the last character and is not. -/
  | trailing {start stop : Nat} (hstart : IsFirst '[' text start)
      (hstop : BracketPair.square.IsPartner text start stop) (hatEnd : atEnd = true)
      (hne : stop + 1 ≠ utf8Size text) :
    Outcome text atEnd (.error (.trailingContent text))
  /-- The text is cut at the first bracket and its partner. -/
  | found {span : BracketSpan} (htext : span.text = text)
      (hstart : IsFirst '[' text span.openOffset)
      (hstop : BracketPair.square.IsPartner text span.openOffset span.closeOffset)
      (hend : atEnd = true → span.closeOffset + 1 = utf8Size text) :
    Outcome text atEnd (.ok span)

/-- A span is known by its text and the offsets of its brackets. -/
lemma ext_of_offsets {a b : BracketSpan} (htext : a.text = b.text)
    (hopen : a.openOffset = b.openOffset) (hclose : a.closeOffset = b.closeOffset) : a = b := by
  obtain ⟨hbefore, hrest⟩ := Positional.append_inj_of_utf8Size htext hopen
  have hsize : utf8Size a.inner = utf8Size b.inner := by
    rw [closeOffset, closeOffset] at hclose
    omega
  obtain ⟨hinner, hafter⟩ := Positional.append_inj_of_utf8Size (List.cons.inj hrest).2 hsize
  obtain ⟨before, inner, after⟩ := a
  rw [BracketSpan.mk.injEq]
  exact ⟨hbefore, hinner, (List.cons.inj hafter).2⟩

variable {text : Text} {atEnd : Bool}

/-- There is one outcome only. -/
lemma Outcome.unique {r r' : Except Error BracketSpan} (h : Outcome text atEnd r)
    (h' : Outcome text atEnd r') : r = r' := by
  rcases h with hnone | ⟨hstart, hnone⟩ | ⟨hstart, hstop, hatEnd, hne⟩ |
    ⟨htext, hstart, hstop, hend⟩
  · rcases h' with - | ⟨hstart, -⟩ | ⟨hstart, -⟩ | ⟨-, hstart⟩
    · rfl
    all_goals exact absurd hstart.1 (hnone _)
  · rcases h' with hnone' | ⟨hstart', -⟩ | ⟨hstart', hstop', -⟩ | ⟨-, hstart', hstop'⟩
    · exact absurd hstart.1 (hnone' _)
    · rw [hstart.unique hstart']
    all_goals
      rw [hstart.unique hstart'] at hnone
      exact absurd hstop' (hnone _)
  · rcases h' with hnone' | ⟨hstart', hnone'⟩ | - | ⟨-, hstart', hstop', hend'⟩
    · exact absurd hstart.1 (hnone' _)
    · rw [hstart'.unique hstart] at hnone'
      exact absurd hstop (hnone' _)
    · rfl
    · rw [← hstart.unique hstart'] at hstop'
      rw [← hstop.unique hstop'] at hend'
      exact absurd (hend' hatEnd) hne
  · rcases h' with hnone' | ⟨hstart', hnone'⟩ | ⟨hstart', hstop', hatEnd', hne'⟩ |
      ⟨htext', hstart', hstop'⟩
    · exact absurd hstart.1 (hnone' _)
    · rw [hstart'.unique hstart] at hnone'
      exact absurd hstop (hnone' _)
    · rw [← hstart.unique hstart'] at hstop'
      rw [← hstop.unique hstop'] at hne'
      exact absurd (hend hatEnd') hne'
    · have hopen := hstart.unique hstart'
      rw [← hopen] at hstop'
      rw [ext_of_offsets (htext.trans htext'.symm) hopen (hstop.unique hstop')]

lemma outcome_first (text : Text) (atEnd : Bool) : Outcome text atEnd (first text atEnd) := by
  have hkind : BracketPair.square ∈ [BracketPair.square, .round, .curly] := by decide
  rcases hcut : cutAtChar? '[' text with _ | ⟨before, rest⟩
  · simp only [first, hcut]
    exact .noBracket (not_charAt_of_cutAtChar? hcut)
  · have hstart := isFirst_of_cutAtChar? hcut
    obtain ⟨rfl, -⟩ := cutAtChar?_eq_some hcut
    rcases hrest : BracketPair.square.enclosed? 0 rest with _ | ⟨inner, after⟩
    · simp only [first, hcut, hrest]
      exact .unmatched hstart (BracketPair.not_isPartner_of_enclosed? hkind hrest)
    · have hstop : BracketPair.square.IsPartner (before ++ '[' :: rest) (utf8Size before) _ :=
        BracketPair.isPartner_of_enclosed? hkind hrest
      obtain rfl := BracketPair.enclosed?_eq_some hrest
      -- the partner is the last character exactly if nothing follows it
      have hsize : utf8Size (before ++ '[' :: (inner ++ BracketPair.square.closer :: after)) =
          utf8Size before + 1 + utf8Size inner + 1 + utf8Size after := by
        have hopener : '['.utf8Size = 1 := rfl
        have hcloser : BracketPair.square.closer.utf8Size = 1 := rfl
        simp only [utf8Size_append, utf8Size_cons, hopener, hcloser]
        omega
      simp only [first, hcut, hrest]
      split
      · rename_i hend
        obtain ⟨hatEnd, hafter⟩ : atEnd = true ∧ after ≠ [] := by simpa using hend
        have hpos := Positional.utf8Size_pos_of_ne_nil hafter
        exact .trailing hstart hstop hatEnd (by omega)
      · rename_i hend
        refine .found rfl hstart hstop fun hatEnd => ?_
        have hafter : after = [] := by simpa [hatEnd] using hend
        rw [hsize, hafter]
        rfl

/-- **The search for the first square brackets gives its outcome.** -/
lemma first_eq_iff {r : Except Error BracketSpan} :
    first text atEnd = r ↔ Outcome text atEnd r := by
  constructor
  · rintro rfl
    exact outcome_first text atEnd
  · exact fun h => (outcome_first text atEnd).unique h

end BracketSpan

/-- **Brackets are matched exactly.** For every text and every offset, no bracket is found exactly
if none is opened at the offset; the result is the offset of the partner exactly if the bracket
there has one, up to which more brackets are opened than closed; and the bracket is reported as
unmatched exactly if it has no partner.  For the first square bracket of a text, the result is the
span that it has with its partner, or the error for the first condition that does not hold. -/
theorem matchingBracket_and_first_exact (text : Text) :
    (∀ start,
      (matchingBracket text start = .error (.noBracketFound text) ↔
        ∀ pair : BracketPair, ¬ pair.OpensAt text start) ∧
      (∀ stop, matchingBracket text start = .ok stop ↔
        ∃ pair : BracketPair, pair.OpensAt text start ∧ pair.IsPartner text start stop) ∧
      (matchingBracket text start = .error (.unmatchedBracket text start) ↔
        ∃ pair : BracketPair, pair.OpensAt text start ∧
          ∀ stop, ¬ pair.IsPartner text start stop) ∧
      ∀ (pair : BracketPair) (stop : Nat), pair.OpensAt text start →
        pair.IsPartner text start stop →
          ∀ k part, start < k → k ≤ stop → Positional.slice text start k = some part →
            part.count pair.closer < part.count pair.opener) ∧
    ∀ atEnd r, BracketSpan.first text atEnd = r ↔ BracketSpan.Outcome text atEnd r := by
  refine ⟨fun start => ⟨BracketPair.matchingBracket_eq_noBracketFound_iff,
    fun stop => BracketPair.matchingBracket_eq_ok_iff,
    BracketPair.matchingBracket_eq_unmatched_iff, ?_⟩, fun atEnd r => BracketSpan.first_eq_iff⟩
  intro pair stop hopens hpartner k part hstart hk hslice
  exact BracketPair.count_lt_of_isPartner hopens hpartner hstart hk hslice

/-- A text with brackets of another kind inside, and with one that is left open behind. -/
theorem matchingBracket_and_first_exact_of_open_bracket :
    (∃ pair : BracketPair, pair.OpensAt "é[a)]([b" 2 ∧ pair.IsPartner "é[a)]([b" 2 5 ∧
        "[a)".toList.count pair.closer < "[a)".toList.count pair.opener) ∧
      (∃ pair : BracketPair, pair.OpensAt "é[a)]([b" 6 ∧
        ∀ stop, ¬ pair.IsPartner "é[a)]([b" 6 stop) ∧
      (∀ pair : BracketPair, ¬ pair.OpensAt "é[a)]([b" 1) ∧
      BracketSpan.Outcome "é[a)]([b" true (.error (.trailingContent "é[a)]([b")) := by
  obtain ⟨hmatching, hfirst⟩ := matchingBracket_and_first_exact "é[a)]([b"
  obtain ⟨pair, hopens, hpartner⟩ := ((hmatching 2).2.1 5).1 (by decide)
  have hslice : Positional.slice "é[a)]([b" 2 5 = some "[a)" := by decide
  have hopen := (hmatching 2).2.2.2 pair 5 hopens hpartner 5 "[a)" (by decide) (by decide) hslice
  exact ⟨⟨pair, hopens, hpartner, hopen⟩, (hmatching 6).2.2.1.1 (by decide),
    (hmatching 1).1.1 (by decide), (hfirst true _).1 (by decide)⟩

end Rebrace
