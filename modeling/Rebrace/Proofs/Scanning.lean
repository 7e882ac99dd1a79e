import Mathlib.Data.List.Basic
import Mathlib.Data.List.TakeWhile
import Rebrace.Scan.TopLevel

/-!
# Scanning a text in parts

A text made of parts is scanned part by part.  What matters of a part is the state in which it
leaves the scanner, `Scan.run`, and the characters that it exposes, `Scan.exposed`.  A part that
leaves the scanner as it was and does not expose the separator is passed over by every search, so
that texts joined by a separator are found again when their join is split: `Scan.split_join`.

The searches for the first exposed character of some sort pass over such parts as well.
-/

namespace Rebrace

open Text

/-! ### White space at the ends -/

/-- A text without white space at its ends. -/
structure IsTrimmed (t : Text) : Prop where
  /-- The text is not empty. -/
  ne_nil : t ≠ []
  /-- The first character is visible. -/
  head : ∀ c ∈ t.head?, isWhite c = false
  /-- The last character is visible. -/
  last : ∀ c ∈ t.getLast?, isWhite c = false

/-- White space in front of a text is trimmed. -/
lemma trimStart_append {lead t : Text} (hlead : ∀ c ∈ lead, isWhite c = true)
    (ht : ∀ c ∈ t.head?, isWhite c = false) : trimStart (lead ++ t) = t := by
  unfold trimStart
  rw [List.dropWhile_append_of_pos hlead]
  cases t with
  | nil => rfl
  | cons c t => exact List.dropWhile_cons_of_neg (by simp [ht c rfl])

/-- White space behind a text is trimmed. -/
lemma trimEnd_append {t tail : Text} (htail : ∀ c ∈ tail, isWhite c = true)
    (ht : ∀ c ∈ t.getLast?, isWhite c = false) : trimEnd (t ++ tail) = t := by
  have hstart : trimStart (tail.reverse ++ t.reverse) = t.reverse := by
    refine trimStart_append ?_ ?_
    · exact fun c hc => htail c (List.mem_reverse.1 hc)
    · rwa [List.head?_reverse]
  unfold trimEnd
  unfold trimStart at hstart
  rw [List.reverse_append, hstart, List.reverse_reverse]

/-- A text is what trimming its end leaves of it, with white space behind. -/
lemma exists_eq_trimEnd_append (t : Text) :
    ∃ tail, t = trimEnd t ++ tail ∧ ∀ c ∈ tail, isWhite c = true := by
  refine ⟨(t.reverse.takeWhile isWhite).reverse, ?_, ?_⟩
  · rw [trimEnd, ← List.reverse_append, List.takeWhile_append_dropWhile, List.reverse_reverse]
  · exact fun c hc => List.mem_takeWhile_imp (List.mem_reverse.1 hc)

/-- A text is what trimming leaves of it, with white space around it. -/
lemma exists_eq_append_trim_append (t : Text) :
    ∃ lead tail, t = lead ++ (trim t ++ tail) ∧ (∀ c ∈ lead, isWhite c = true) ∧
      ∀ c ∈ tail, isWhite c = true := by
  obtain ⟨tail, htail, hwhite⟩ := exists_eq_trimEnd_append (trimStart t)
  refine ⟨t.takeWhile isWhite, tail, ?_, fun c hc => List.mem_takeWhile_imp hc, hwhite⟩
  rw [trim, ← htail, trimStart, List.takeWhile_append_dropWhile]

/-- A character that is no white space keeps what stands on its two sides apart. -/
lemma trim_append_cons {c : Char} (hc : isWhite c = false) (x y : Text) :
    trim (x ++ c :: y) = trimStart x ++ c :: trimEnd y := by
  have hstart : ∀ u v : Text, (u ++ c :: v).dropWhile isWhite = u.dropWhile isWhite ++ c :: v := by
    intro u v
    rw [List.dropWhile_append]
    split
    · rename_i hnil
      rw [List.isEmpty_iff.1 hnil, List.dropWhile_cons_of_neg (by simp [hc]), List.nil_append]
    · rfl
  rw [trim, trimStart, hstart, trimEnd, List.reverse_append, List.reverse_cons, List.append_assoc,
    List.singleton_append, hstart]
  simp [trimStart, trimEnd]

namespace IsTrimmed

variable {t : Text}

/-- White space around a trimmed text is trimmed. -/
lemma trim_append (h : IsTrimmed t) {lead tail : Text} (hlead : ∀ c ∈ lead, isWhite c = true)
    (htail : ∀ c ∈ tail, isWhite c = true) : trim (lead ++ (t ++ tail)) = t := by
  unfold trim
  rw [trimStart_append hlead, trimEnd_append htail h.last]
  intro c hc
  rw [List.head?_append_of_ne_nil _ h.ne_nil] at hc
  exact h.head c hc

/-- A trimmed text is not changed any more. -/
lemma trim_eq (h : IsTrimmed t) : trim t = t := by
  have htrim := h.trim_append (List.forall_mem_nil _) (List.forall_mem_nil _)
  rwa [List.nil_append, List.append_nil] at htrim

/-- A text that is not changed by trimming has no white space at its ends. -/
lemma of_trim_eq (hne : t ≠ []) (h : trim t = t) : IsTrimmed t := by
  have hstart : trimStart t = t := by
    refine (List.dropWhile_suffix isWhite).eq_of_length_le ?_
    have hlength := length_trimEnd_le (trimStart t)
    rw [← trim, h] at hlength
    exact hlength
  have hend : trimEnd t = t := by rwa [trim, hstart] at h
  refine ⟨hne, ?_, ?_⟩
  · intro c hc
    have hnot := List.head?_dropWhile_not isWhite t
    rw [show t.dropWhile isWhite = t from hstart, Option.mem_def.1 hc] at hnot
    simpa using hnot
  · intro c hc
    have hnot := List.head?_dropWhile_not isWhite t.reverse
    have hreverse : t.reverse.dropWhile isWhite = t.reverse := by
      rw [← List.reverse_reverse (t.reverse.dropWhile isWhite)]
      exact congrArg List.reverse hend
    rw [hreverse, List.head?_reverse, Option.mem_def.1 hc] at hnot
    simpa using hnot

/-- What trimming leaves of a text has no white space at its ends. -/
lemma of_trim_ne_nil (h : trim t ≠ []) : IsTrimmed (trim t) := by
  refine ⟨h, ?_, ?_⟩
  · intro c hc
    obtain ⟨tail, htail, -⟩ := exists_eq_trimEnd_append (trimStart t)
    have hsplit : trimStart t = trim t ++ tail := htail
    have hhead : (trimStart t).head? = some c := by
      rw [hsplit, List.head?_append_of_ne_nil _ h]
      exact hc
    have hnot := List.head?_dropWhile_not isWhite t
    rw [show t.dropWhile isWhite = trimStart t from rfl, hhead] at hnot
    simpa using hnot
  · intro c hc
    have hnot := List.head?_dropWhile_not isWhite (trimStart t).reverse
    rw [trim, trimEnd, List.getLast?_reverse] at hc
    rw [Option.mem_def.1 hc] at hnot
    simpa using hnot

/-- A text that starts like one trimmed text and ends like another is trimmed. -/
lemma of_ends {u v : Text} (hu : IsTrimmed u) (hv : IsTrimmed v) (hstart : u <+: t)
    (hend : v <:+ t) : IsTrimmed t := by
  obtain ⟨rest, rfl⟩ := hstart
  obtain ⟨front, hfront⟩ := hend
  refine ⟨by simp [hu.ne_nil], ?_, ?_⟩
  · intro c hc
    rw [List.head?_append_of_ne_nil _ hu.ne_nil] at hc
    exact hu.head c hc
  · intro c hc
    rw [← hfront, List.getLast?_append_of_ne_nil _ hv.ne_nil] at hc
    exact hv.last c hc

/-- Trimmed texts that are joined give a trimmed text. -/
lemma join {separator u : Text} {us : List Text} (hus : ∀ v ∈ u :: us, IsTrimmed v) :
    IsTrimmed (Text.join separator (u :: us)) := by
  have hu := hus u List.mem_cons_self
  induction us generalizing u with
  | nil => simpa [Text.join] using hu
  | cons v us ih =>
    have hrest := ih (fun w hw => hus w (List.mem_cons_of_mem _ hw)) (hus v (by simp))
    rw [Text.join, List.intercalate_cons_cons, List.append_assoc]
    exact hu.of_ends hrest (List.prefix_append _ _) ((List.suffix_append _ _).trans
      (List.suffix_append _ _))

end IsTrimmed

/-- A condition on the characters of a text can be evaluated. -/
lemma forall_mem_of_all {p : Char → Prop} [DecidablePred p] {t : Text}
    (h : (t.all fun c => decide (p c)) = true) : ∀ c ∈ t, p c := by
  simpa [List.all_eq_true] using h

/-- Nothing is left of a blank text. -/
lemma trim_eq_nil_of_isBlank {t : Text} (h : isBlank t = true) : trim t = [] := by
  have hstart : trimStart t = [] := List.dropWhile_eq_nil_iff.2 (List.all_eq_true.1 h)
  rw [trim, hstart]
  rfl

/-- A text is trimmed away exactly if it is blank. -/
lemma trim_eq_nil_iff {t : Text} : trim t = [] ↔ isBlank t = true := by
  refine ⟨fun h => ?_, trim_eq_nil_of_isBlank⟩
  obtain ⟨lead, tail, heq, hlead, htail⟩ := exists_eq_append_trim_append t
  rw [h, List.nil_append] at heq
  rw [heq, isBlank, List.all_eq_true]
  intro c hc
  exact (List.mem_append.1 hc).elim (hlead c) (htail c)

/-- Pieces of which the last one is not blank lose nothing. -/
lemma dropBlankLast_eq_self {ts : List Text}
    (h : ∀ last ∈ ts.getLast?, isBlank last = false) : dropBlankLast ts = ts := by
  fun_induction dropBlankLast ts with
  | case1 => rfl
  | case2 t hblank => exact absurd (h t rfl) (by simp [hblank])
  | case3 => rfl
  | case4 t u ts ih => rw [ih (by simpa using h)]

/-- Spaces are white. -/
lemma isWhite_of_mem_spaces {n : Nat} {c : Char} (h : c ∈ spaces n) : isWhite c = true := by
  rw [List.eq_of_mem_replicate h]
  decide

/-- A text is cut at the first of some characters. -/
lemma cutAtChar?_append {c : Char} {before : Text} (h : c ∉ before) (after : Text) :
    cutAtChar? c (before ++ c :: after) = some (before, after) := by
  induction before with
  | nil => simp [cutAtChar?]
  | cons d before ih =>
    rw [List.mem_cons, not_or] at h
    simp [cutAtChar?, Ne.symm h.1, ih h.2]

/-- A text without some character is not cut at it. -/
lemma cutAtChar?_eq_none {c : Char} {t : Text} (h : c ∉ t) : cutAtChar? c t = none := by
  induction t with
  | nil => rfl
  | cons d t ih =>
    rw [List.mem_cons, not_or] at h
    simp [cutAtChar?, Ne.symm h.1, ih h.2]

/-! ### Running a scanner -/

namespace Scan

variable {nest : Char → Int} {separator : Char}

/-- The state after a whole text. -/
def run (nest : Char → Int) (s : Scan) (t : Text) : Scan :=
  t.foldl (next nest) s

/-- The characters of a text that are exposed when the text is read from state `s` on. -/
def exposed (nest : Char → Int) : (s : Scan) → Text → List Char
  | _, [] => []
  | s, c :: t => (if s.exposes nest c then [c] else []) ++ exposed nest (s.next nest c) t

@[simp] lemma run_nil (s : Scan) : run nest s [] = s := rfl

@[simp] lemma run_cons (s : Scan) (c : Char) (t : Text) :
    run nest s (c :: t) = run nest (s.next nest c) t := rfl

@[simp] lemma run_append (s : Scan) (t u : Text) :
    run nest s (t ++ u) = run nest (run nest s t) u := List.foldl_append

@[simp] lemma exposed_nil (s : Scan) : exposed nest s [] = [] := rfl

lemma exposed_cons (s : Scan) (c : Char) (t : Text) :
    exposed nest s (c :: t) =
      (if s.exposes nest c then [c] else []) ++ exposed nest (s.next nest c) t := rfl

@[simp] lemma exposed_append (s : Scan) (t u : Text) :
    exposed nest s (t ++ u) = exposed nest s t ++ exposed nest (run nest s t) u := by
  induction t generalizing s with
  | nil => rfl
  | cons c t ih => simp [exposed_cons, ih]

/-- A character is exposed only where nothing is open. -/
lemma eq_of_exposes {s : Scan} {c : Char} (h : s.exposes nest c = true) : s = {} := by
  obtain ⟨quote, depth⟩ := s
  simp only [exposes, QuoteState.isCode, Bool.and_eq_true, beq_iff_eq] at h
  rw [h.1.1.1, h.2]

/-- The exposed characters of a text are the ones that the scanner exposes where they stand. -/
lemma mem_exposed_iff {s : Scan} {t : Text} {c : Char} :
    c ∈ exposed nest s t ↔ ∃ u v, t = u ++ c :: v ∧ (run nest s u).exposes nest c = true := by
  constructor
  · intro h
    induction t generalizing s with
    | nil => cases h
    | cons d t ih =>
      rcases List.mem_append.1 h with h | h
      · split at h
        · rename_i hexposes
          rw [List.mem_singleton] at h
          exact ⟨[], t, by rw [h]; rfl, by rwa [h]⟩
        · cases h
      · obtain ⟨u, v, rfl, hexposes⟩ := ih h
        exact ⟨d :: u, v, rfl, hexposes⟩
  · rintro ⟨u, v, rfl, hexposes⟩
    rw [exposed_append, exposed_cons, if_pos hexposes]
    simp

/-- The exposed characters of a text are among its characters. -/
lemma mem_of_mem_exposed {s : Scan} {t : Text} {c : Char} (h : c ∈ exposed nest s t) : c ∈ t := by
  obtain ⟨u, v, rfl, -⟩ := mem_exposed_iff.1 h
  simp

/-- A character that is not among the exposed ones of a text is not exposed at its start. -/
lemma not_exposes_of_notMem {s : Scan} {c d : Char} {t : Text} (h : d ∉ exposed nest s (c :: t)) :
    (s.exposes nest c && c == d) = false ∧ d ∉ exposed nest (s.next nest c) t := by
  rw [exposed_cons, List.mem_append, not_or] at h
  refine ⟨?_, h.2⟩
  cases hexposes : s.exposes nest c with
  | false => rfl
  | true =>
    have hne : d ≠ c := by simpa [hexposes] using h.1
    simp [hne.symm]

/-! ### Cutting at a separator -/

/-- The first piece and the further pieces of a text from state `s` on, cut at the exposed
separators. -/
def cut (nest : Char → Int) (separator : Char) : (s : Scan) → Text → Text × List Text
  | _, [] => ([], [])
  | s, c :: t =>
    let pieces := cut nest separator (s.next nest c) t
    if s.exposes nest c && c == separator then ([], pieces.1 :: pieces.2)
    else (c :: pieces.1, pieces.2)

/-- The pieces of a text between its exposed separators. -/
def segments (nest : Char → Int) (separator : Char) (t : Text) : List Text :=
  (cut nest separator {} t).1 :: (cut nest separator {} t).2

/-- The pieces of a text between its exposed separators, each without the white space at its ends;
a blank last piece is left out. -/
def split (nest : Char → Int) (separator : Char) (t : Text) : List Text :=
  (dropBlankLast ((cut nest separator {} t).1 :: (cut nest separator {} t).2)).map trim

/-- Lists are split at the top level by counting all brackets. -/
lemma splitTop_eq_split (separator : Char) (t : Text) :
    splitTop separator t = split nestAll separator t := by
  have hcut : ∀ s, cutTopFrom separator s t = cut nestAll separator s t := by
    induction t with
    | nil => exact fun s => rfl
    | cons c t ih =>
      intro s
      simp only [cutTopFrom, cut, ih]
  simp only [splitTop, split, hcut]

/-- A single character splits a text outside of one pair of brackets by counting this pair. -/
lemma splitTrim_eq_split (pair : BracketPair) (separator : Char) (t : Text) :
    pair.splitTrim [separator] t = split pair.nest separator t := by
  have hcut : ∀ s, pair.cutFrom [separator] s 0 t = cut pair.nest separator s t := by
    induction t with
    | nil => exact fun s => rfl
    | cons c t ih =>
      intro s
      have hstarts : startsWith [separator] (c :: t) = (c == separator) := by
        by_cases hc : separator = c
        · simp [startsWith, strip?, hc]
        · simp [startsWith, strip?, hc, Ne.symm hc]
      rw [BracketPair.cutFrom, cut, hstarts, ← ih]
      cases hexposes : s.exposes pair.nest c with
      | false => simp
      | true => simp [next_of_exposes hexposes]
  simp only [BracketPair.splitTrim, BracketPair.split, BracketPair.pieces, split, hcut]

/-- A part that does not expose the separator is passed over. -/
lemma cut_append {s : Scan} {u : Text} (h : separator ∉ exposed nest s u) (t : Text) :
    cut nest separator s (u ++ t) =
      (u ++ (cut nest separator (run nest s u) t).1, (cut nest separator (run nest s u) t).2) := by
  induction u generalizing s with
  | nil => rfl
  | cons c u ih =>
    obtain ⟨hnot, hrest⟩ := not_exposes_of_notMem h
    simp only [List.cons_append, cut, hnot, Bool.false_eq_true, ↓reduceIte, run_cons, ih hrest]

end Scan

open Scan

/-- A part that leaves the scanner as it was, and exposes only characters for which `p` holds. -/
structure Passes (nest : Char → Int) (p : Char → Prop) (t : Text) : Prop where
  /-- Brackets and literals are closed. -/
  run_eq : run nest {} t = {}
  /-- The exposed characters. -/
  exposed : ∀ c ∈ exposed nest {} t, p c

namespace Passes

variable {nest : Char → Int} {p : Char → Prop} {t u : Text}

/-- A condition on the exposed characters may be weakened. -/
lemma mono (h : Passes nest p t) {q : Char → Prop} (hpq : ∀ c, p c → q c) : Passes nest q t :=
  ⟨h.run_eq, fun c hc => hpq c (h.exposed c hc)⟩

/-- Parts one after the other. -/
lemma append (ht : Passes nest p t) (hu : Passes nest p u) : Passes nest p (t ++ u) := by
  refine ⟨?_, ?_⟩
  · rw [run_append, ht.run_eq, hu.run_eq]
  · intro c hc
    rw [exposed_append, ht.run_eq, List.mem_append] at hc
    rcases hc with hc | hc
    · exact ht.exposed c hc
    · exact hu.exposed c hc

/-- A part without brackets and quotation marks. -/
lemma of_forall (h : ∀ c ∈ t, nest c = 0 ∧ isQuoteMark c = false ∧ p c) : Passes nest p t := by
  induction t with
  | nil => exact ⟨rfl, by simp⟩
  | cons c t ih =>
    obtain ⟨⟨hnest, hmark, hp⟩, ht⟩ := List.forall_mem_cons.1 h
    have hexposes : Scan.exposes nest {} c = true := by
      simp [exposes, hnest, QuoteState.isCode, hmark]
    obtain ⟨hrun, hexposed⟩ := ih ht
    refine ⟨?_, fun d hd => ?_⟩
    · rw [run_cons, next_of_exposes hexposes, hrun]
    · rw [exposed_cons, next_of_exposes hexposes, if_pos hexposes, List.singleton_append] at hd
      rcases List.mem_cons.1 hd with rfl | hd
      · exact hp
      · exact hexposed d hd

end Passes

/-- A part that a list can be joined from: without white space at its ends, closed, and without an
exposed separator. -/
structure IsPart (nest : Char → Int) (separator : Char) (t : Text) : Prop where
  /-- There is no white space at the ends. -/
  trimmed : IsTrimmed t
  /-- The part is closed, and the separator is not exposed. -/
  passes : Passes nest (· ≠ separator) t

namespace Scan

variable {nest : Char → Int} {separator : Char}

section Join

variable (hspace : nest ' ' = 0) (hseparator : nest separator = 0)
  (hmark : isQuoteMark separator = false) (hne : separator ≠ ' ')

include hspace hne in
/-- Spaces are passed over. -/
lemma passes_spaces (n : Nat) : Passes nest (· ≠ separator) (spaces n) := by
  refine Passes.of_forall fun c hc => ?_
  rw [List.eq_of_mem_replicate hc]
  exact ⟨hspace, by decide, hne.symm⟩

/-- A part that is passed over is cut off from the first piece. -/
lemma cut_append_of_passes {u : Text} (hu : Passes nest (· ≠ separator) u) (t : Text) :
    cut nest separator {} (u ++ t) =
      (u ++ (cut nest separator {} t).1, (cut nest separator {} t).2) := by
  have hnotMem : separator ∉ exposed nest {} u := fun hmem => hu.exposed separator hmem rfl
  rw [cut_append hnotMem, hu.run_eq]

/-- A part that is passed over is one piece. -/
lemma segments_of_passes {u : Text} (hu : Passes nest (· ≠ separator) u) :
    segments nest separator u = [u] := by
  have hcut := cut_append_of_passes hu []
  rw [List.append_nil] at hcut
  simp [segments, hcut, cut]

include hseparator hmark in
/-- A part that is passed over and a separator behind it are one piece more. -/
lemma segments_append_separator {u : Text} (hu : Passes nest (· ≠ separator) u) (t : Text) :
    segments nest separator (u ++ separator :: t) = u :: segments nest separator t := by
  have hexposes : Scan.exposes nest {} separator = true := by
    simp [exposes, hseparator, QuoteState.isCode, hmark]
  unfold segments
  rw [cut_append_of_passes hu]
  simp [cut, hexposes, next_of_exposes hexposes]

include hspace hseparator hmark hne in
/-- The pieces of joined parts with any text behind them are the parts, with spaces around them, and
the pieces of that text. -/
lemma exists_segments_join (before after n : Nat) {us : List Text}
    (hus : ∀ u ∈ us, IsPart nest separator u) (z : Text) :
    ∃ m, (segments nest separator
        (spaces n ++ join (spaces before ++ separator :: spaces after) (us ++ [z]))).map trim =
      us ++ (segments nest separator (spaces m ++ z)).map trim := by
  induction us generalizing n with
  | nil => exact ⟨n, by simp [join]⟩
  | cons u us ih =>
    rw [List.forall_mem_cons] at hus
    obtain ⟨hu, hrest⟩ := hus
    obtain ⟨m, hm⟩ := ih after hrest
    refine ⟨m, ?_⟩
    obtain ⟨v, vs, hcons⟩ := List.exists_cons_of_ne_nil (show us ++ [z] ≠ [] by simp)
    have hjoin : spaces n ++ join (spaces before ++ separator :: spaces after) (u :: (us ++ [z])) =
        (spaces n ++ (u ++ spaces before)) ++ separator ::
          (spaces after ++ join (spaces before ++ separator :: spaces after) (us ++ [z])) := by
      rw [hcons]
      simp [join, List.intercalate_cons_cons]
    have hpasses : Passes nest (· ≠ separator) (spaces n ++ (u ++ spaces before)) :=
      (passes_spaces hspace hne n).append (hu.passes.append (passes_spaces hspace hne before))
    have htrim := hu.trimmed.trim_append (fun c (hc : c ∈ spaces n) => isWhite_of_mem_spaces hc)
      (fun c (hc : c ∈ spaces before) => isWhite_of_mem_spaces hc)
    rw [List.cons_append, hjoin, segments_append_separator hseparator hmark hpasses, List.map_cons,
      htrim, hm, List.cons_append]

include hspace hseparator hmark hne in
/-- **Joined parts are found again** when their join is split at the separator. -/
lemma split_join (before after : Nat) {us : List Text}
    (hus : ∀ u ∈ us, IsPart nest separator u) :
    split nest separator (join (spaces before ++ separator :: spaces after) us) = us := by
  rcases List.eq_nil_or_concat us with rfl | ⟨init, z, rfl⟩
  · rfl
  · rw [List.concat_eq_append] at hus ⊢
    have hz := hus z (by simp)
    obtain ⟨m, hm⟩ := exists_segments_join hspace hseparator hmark hne before after 0
      (fun u hu => hus u (List.mem_append_left _ hu)) z
    have hlast : (segments nest separator (spaces m ++ z)).map trim = [z] := by
      have htrim := hz.trimmed.trim_append (fun c (hc : c ∈ spaces m) => isWhite_of_mem_spaces hc)
        (List.forall_mem_nil _)
      rw [List.append_nil] at htrim
      rw [segments_of_passes ((passes_spaces hspace hne m).append hz.passes), List.map_singleton,
        htrim]
    rw [hlast] at hm
    change (dropBlankLast (segments nest separator _)).map trim = _
    rw [dropBlankLast_eq_self]
    · exact hm
    · intro last hlast
      have hmem : trim last ∈ init ++ [z] := hm ▸ List.mem_map_of_mem (List.mem_of_getLast? hlast)
      by_contra hblank
      rw [Bool.not_eq_false] at hblank
      exact (hus _ hmem).trimmed.ne_nil (trim_eq_nil_of_isBlank hblank)

end Join

end Scan

/-! ### Searching for an exposed character -/

/-- A part without an exposed character of the sort is passed over. -/
lemma cutExposedFrom?_append {stop : Option Char → Char → Option Char → Bool} {s : Scan} {u : Text}
    (h : ∀ c ∈ exposed nestAll s u, ∀ previous following, stop previous c following = false)
    (previous : Option Char) (t : Text) :
    cutExposedFrom? stop previous s (u ++ t) =
      (cutExposedFrom? stop (u.getLast?.or previous) (run nestAll s u) t).map
        fun parts => (u ++ parts.1, parts.2) := by
  induction u generalizing s previous with
  | nil => simp
  | cons c u ih =>
    rw [exposed_cons] at h
    have hrest := ih (fun d hd => h d (List.mem_append_right _ hd)) (some c)
    have hnot : (s.exposes nestAll c && stop previous c (u ++ t).head?) = false := by
      cases hexposes : s.exposes nestAll c with
      | false => rfl
      | true => exact h c (by simp [hexposes]) _ _
    have hlast : (c :: u).getLast?.or previous = u.getLast?.or (some c) := by
      rw [List.getLast?_cons]
      cases u.getLast? <;> rfl
    rw [List.cons_append, cutExposedFrom?, hnot, if_neg (by simp), hrest, hlast, run_cons,
      Option.map_map]
    rfl

end Rebrace
