import Mathlib
import Rebrace.Line.Comment
import Rebrace.Proofs.ParameterJoin

/-!
# Readers that keep track of literals

Lists are split at the top level, where all brackets count, types are split outside square brackets,
and comments are marked in lines whose brackets do not count at all.  All three follow string
literals, each along its own walk.  On a text whose brackets they count alike they stand in the same
state at each character, whatever escapes it has and whatever literals or brackets it leaves open:
without round and curly brackets the two ways to split a text give the same pieces, and without any
brackets a `#` starts a comment exactly if it is the first of its run and exposed:
`splitTop_and_slashComments_agree`.
-/

namespace Rebrace

open Text Scan

/-! ### Texts without brackets -/

namespace BracketPair

/-- A text without the brackets of a pair. -/
def IsFree (pair : BracketPair) (t : Text) : Prop :=
  pair.opener ∉ t ∧ pair.closer ∉ t

instance (pair : BracketPair) (t : Text) : Decidable (pair.IsFree t) :=
  inferInstanceAs (Decidable (_ ∧ _))

/-- A text without the brackets of a pair never changes their depth. -/
lemma IsFree.nest_eq_zero {pair : BracketPair} {t : Text} (h : pair.IsFree t) {c : Char}
    (hc : c ∈ t) : pair.nest c = 0 := by
  have hopener : c ≠ pair.opener := fun heq => h.1 (heq ▸ hc)
  have hcloser : c ≠ pair.closer := fun heq => h.2 (heq ▸ hc)
  rw [nest, if_neg hopener, if_neg hcloser]

end BracketPair

/-- The state with respect to literals after a whole text. -/
def QuoteState.run (q : QuoteState) (t : Text) : QuoteState :=
  t.foldl QuoteState.next q

namespace Scan

variable {nest nest' : Char → Int} {t : Text}

/-- Scanners that count the characters of a text alike cut it into the same pieces. -/
lemma cut_congr (h : ∀ c ∈ t, nest c = nest' c) (separator : Char) (s : Scan) :
    cut nest separator s t = cut nest' separator s t := by
  induction t generalizing s with
  | nil => rfl
  | cons c t ih =>
    rw [List.forall_mem_cons] at h
    have hnext : s.next nest c = s.next nest' c := by rw [next, next, h.1]
    have hexposes : s.exposes nest c = s.exposes nest' c := by rw [exposes, exposes, h.1]
    rw [cut, cut, hnext, hexposes, ih h.2]

/-- Without brackets, a scanner only follows literals. -/
lemma run_of_forall_zero (h : ∀ c ∈ t, nest c = 0) (s : Scan) :
    run nest s t = ⟨s.quote.run t, s.depth⟩ := by
  induction t generalizing s with
  | nil => rfl
  | cons c t ih =>
    rw [List.forall_mem_cons] at h
    have hdepth : (s.next nest c).depth = s.depth := by simp [next, h.1]
    rw [run_cons, ih h.2, hdepth]
    rfl

end Scan

/-! ### Splitting -/

/-- A text without round and curly brackets is split at the top level as it is outside square
brackets. -/
lemma splitTop_eq_splitTrim_square {t : Text} (hround : BracketPair.round.IsFree t)
    (hcurly : BracketPair.curly.IsFree t) (separator : Char) :
    splitTop separator t = BracketPair.square.splitTrim [separator] t := by
  have hnest : ∀ c ∈ t, nestAll c = BracketPair.square.nest c := by
    intro c hc
    rw [nestAll_eq_add, hround.nest_eq_zero hc, hcurly.nest_eq_zero hc, zero_add, add_zero]
  rw [splitTop_eq_split, splitTrim_eq_split, split, split, cut_congr hnest]

/-! ### Exposed characters at their offsets -/

/-- The exposed characters with their offsets are the ones that the scanner exposes where they
stand. -/
lemma Positional.mem_exposedFrom_iff {s : Scan} {offset i : Nat} {t : Text} {c : Char} :
    (i, c) ∈ exposedFrom s offset t ↔
      ∃ u v, t = u ++ c :: v ∧ i = offset + utf8Size u ∧
        (Scan.run nestAll s u).exposes nestAll c = true := by
  constructor
  · intro h
    induction t generalizing s offset with
    | nil => cases h
    | cons d t ih =>
      have hcases : (s.exposes nestAll d = true ∧ (i, c) = (offset, d)) ∨
          (i, c) ∈ exposedFrom (s.next nestAll d) (offset + d.utf8Size) t := by
        rw [exposedFrom] at h
        split at h
        · rename_i hexposes
          exact (List.mem_cons.1 h).imp_left fun heq => ⟨hexposes, heq⟩
        · exact Or.inr h
      rcases hcases with ⟨hexposes, ⟨⟩⟩ | hrest
      · exact ⟨[], t, rfl, rfl, hexposes⟩
      · obtain ⟨u, v, rfl, rfl, hexposes⟩ := ih hrest
        exact ⟨d :: u, v, rfl, by rw [utf8Size_cons, Nat.add_assoc], hexposes⟩
  · rintro ⟨u, v, rfl, rfl, hexposes⟩
    rw [exposedFrom_append, exposedFrom, if_pos hexposes]
    simp

/-- Behind a text without brackets, a `#` is exposed exactly if it stands outside literals. -/
lemma marker_mem_exposedFrom_iff {u : Text} (h : ∀ c ∈ u, nestAll c = 0) (v : Text) :
    (utf8Size u, '#') ∈ Positional.exposedFrom {} 0 (u ++ '#' :: v) ↔
      QuoteState.outside.run u = .outside := by
  have hexposes : (run nestAll {} u).exposes nestAll '#' = true ↔
      QuoteState.outside.run u = .outside := by
    simp [run_of_forall_zero h, exposes, QuoteState.isCode, isQuoteMark, nestAll]
  rw [Positional.mem_exposedFrom_iff, ← hexposes]
  constructor
  · -- no other part of the text has the same size
    rintro ⟨u', v', htext, hsize, hexposes'⟩
    rw [Nat.zero_add] at hsize
    rwa [(Positional.append_inj_of_utf8Size htext hsize).1]
  · exact fun hexposes' => ⟨u, v, rfl, (Nat.zero_add _).symm, hexposes'⟩

/-! ### Comments -/

/-- What is written for the character `c` behind `front`: two slashes if it starts a comment. -/
def commentMark (front : Text) (c : Char) : Text :=
  if c = '#' ∧ front.getLast? ≠ some '#' ∧ QuoteState.outside.run front = .outside then "//"
  else [c]

/-- **Comments are marked character by character**, where the text `front` before them is
finished. -/
lemma slashCommentsFrom_eq_flatten (front t : Text) :
    slashCommentsFrom front.getLast? (QuoteState.outside.run front) t =
      (t.mapIdx fun i c => commentMark (front ++ t.take i) c).flatten := by
  induction t generalizing front with
  | nil => rfl
  | cons c t ih =>
    have hstate : QuoteState.outside.run (front ++ [c]) = (QuoteState.outside.run front).next c :=
      List.foldl_concat ..
    have hrest := ih (front ++ [c])
    rw [hstate, List.getLast?_concat] at hrest
    simp only [List.append_assoc, List.singleton_append] at hrest
    simp only [List.mapIdx_cons, List.take_zero, List.append_nil, List.take_succ_cons,
      List.flatten_cons]
    rw [← hrest, slashCommentsFrom, commentMark]
    by_cases hmark : c = '#' ∧ front.getLast? ≠ some '#' ∧ QuoteState.outside.run front = .outside
    · -- a `#` opens no literal, so the state that is kept is also the next one
      obtain ⟨rfl, hlast, hrun⟩ := hmark
      rw [if_pos ⟨hrun, rfl, hlast⟩, if_pos ⟨rfl, hlast, hrun⟩, hrun]
      rfl
    · rw [if_neg hmark, if_neg fun h => hmark ⟨h.2.1, h.2.2, h.1⟩]
      rfl

/-- In a text without brackets, comments are marked at the first `#` of a run if it is exposed. -/
lemma slashComments_eq_flatten {t : Text} (hround : BracketPair.round.IsFree t)
    (hsquare : BracketPair.square.IsFree t) (hcurly : BracketPair.curly.IsFree t) :
    slashComments t = (t.mapIdx fun i c =>
      if c = '#' ∧ (t.take i).getLast? ≠ some '#' ∧
          (utf8Size (t.take i), '#') ∈ Positional.exposedFrom {} 0 t then "//".toList
      else [c]).flatten := by
  have hnest : ∀ c ∈ t, nestAll c = 0 := by
    intro c hc
    rw [nestAll_eq_add, hround.nest_eq_zero hc, hsquare.nest_eq_zero hc, hcurly.nest_eq_zero hc]
    rfl
  refine (slashCommentsFrom_eq_flatten [] t).trans (congrArg List.flatten ?_)
  refine List.mapIdx_eq_mapIdx_iff.2 fun i hi => ?_
  rw [List.nil_append, commentMark]
  by_cases hc : t[i] = '#'
  · have ht : t.take i ++ '#' :: t.drop (i + 1) = t := by
      rw [← hc, List.getElem_cons_drop, List.take_append_drop]
    have hfront : ∀ c ∈ t.take i, nestAll c = 0 :=
      fun c hmem => hnest c (List.mem_of_mem_take hmem)
    have hexposed := marker_mem_exposedFrom_iff hfront (t.drop (i + 1))
    rw [ht] at hexposed
    simp only [hexposed]
  · rw [if_neg fun h => hc h.1, if_neg fun h => hc h.1]

/-- **The readers that keep track of literals agree.** A text without round and curly brackets is
split at the top level as it is outside square brackets, by every separator.  In a text without any
brackets, two slashes are written for exactly those `#` that follow no other `#` and are among the
exposed characters at their offsets; every other character is kept. -/
theorem splitTop_and_slashComments_agree :
    (∀ (t : Text) (separator : Char), BracketPair.round.IsFree t → BracketPair.curly.IsFree t →
      splitTop separator t = BracketPair.square.splitTrim [separator] t) ∧
    ∀ t : Text, BracketPair.round.IsFree t → BracketPair.square.IsFree t →
      BracketPair.curly.IsFree t →
      slashComments t = (t.mapIdx fun i c =>
        if c = '#' ∧ (t.take i).getLast? ≠ some '#' ∧
            (utf8Size (t.take i), '#') ∈ Positional.exposedFrom {} 0 t then "//".toList
        else [c]).flatten :=
  ⟨fun _ separator hround hcurly => splitTop_eq_splitTrim_square hround hcurly separator,
    fun _ hround hsquare hcurly => slashComments_eq_flatten hround hsquare hcurly⟩

/-- A text with an escaped quotation mark and a bracket that is closed before it is opened; and a
line with a `#` in a literal, a run of them outside, and a literal that is left open. -/
theorem splitTop_and_slashComments_agree_of_escapes :
    (BracketPair.round.IsFree "é, \x27\\\x27,[\x27 ,,],a[, b" ∧
      BracketPair.curly.IsFree "é, \x27\\\x27,[\x27 ,,],a[, b" ∧
      splitTop ',' "é, \x27\\\x27,[\x27 ,,],a[, b" =
        BracketPair.square.splitTrim [','] "é, \x27\\\x27,[\x27 ,,],a[, b") ∧
    BracketPair.round.IsFree "é\x22\\\x22#\x22##\x27#" ∧
      BracketPair.square.IsFree "é\x22\\\x22#\x22##\x27#" ∧
      BracketPair.curly.IsFree "é\x22\\\x22#\x22##\x27#" ∧
      slashComments "é\x22\\\x22#\x22##\x27#" =
        (("é\x22\\\x22#\x22##\x27#" : Text).mapIdx fun i c =>
          if c = '#' ∧ (("é\x22\\\x22#\x22##\x27#" : Text).take i).getLast? ≠ some '#' ∧
              (utf8Size (("é\x22\\\x22#\x22##\x27#" : Text).take i), '#') ∈
                Positional.exposedFrom {} 0 "é\x22\\\x22#\x22##\x27#" then "//".toList
          else [c]).flatten := by
  have hround : BracketPair.round.IsFree "é, \x27\\\x27,[\x27 ,,],a[, b" := by decide
  have hcurly : BracketPair.curly.IsFree "é, \x27\\\x27,[\x27 ,,],a[, b" := by decide
  have hround' : BracketPair.round.IsFree "é\x22\\\x22#\x22##\x27#" := by decide
  have hsquare' : BracketPair.square.IsFree "é\x22\\\x22#\x22##\x27#" := by decide
  have hcurly' : BracketPair.curly.IsFree "é\x22\\\x22#\x22##\x27#" := by decide
  exact ⟨⟨hround, hcurly, splitTop_and_slashComments_agree.1 _ ',' hround hcurly⟩, hround',
    hsquare', hcurly', splitTop_and_slashComments_agree.2 _ hround' hsquare' hcurly'⟩

end Rebrace
