import Mathlib
import Rebrace.Proofs.StableSpelling

/-!
# Comparisons by runs of equals signs

Comparisons are made strict from left to right, with a look at the character before and at the two
characters behind.  What comes out depends on whole runs of equals signs only: a run of two becomes
one of three unless it follows `!`, `<` or `>`, a single `=` behind `!` is doubled, and every other
run is kept.  A line is the concatenation of its maximal runs of equals signs and of other
characters, `equalsRuns`, and it is written run by run: `strictEquality_eq_flatten_runs`.

The sign that an exclamation mark asks for is written where the mark stands, before the run is
reached.  `strictBehind` counts it among what is written for the run, so that the runs can be
written one after the other.
-/

namespace Rebrace

open Text

/-! ### Runs -/

/-- The maximal runs of equals signs and of other characters in a line. -/
def equalsRuns (line : Text) : List Text :=
  line.splitBy fun c d => (c == '=') == (d == '=')

/-- The texts are maximal runs of equals signs and of other characters, in turn. -/
structure AreRuns (runs : List Text) : Prop where
  /-- No run is empty. -/
  ne_nil : ∀ run ∈ runs, run ≠ []
  /-- Equals signs are alone in their runs. -/
  alike : ∀ run ∈ runs, '=' ∈ run → ∀ c ∈ run, c = '='
  /-- Of two neighbours, one is a run of equals signs and the other is not. -/
  alternate : runs.IsChain fun run next => '=' ∈ run ↔ '=' ∉ next

/-- The number of equals signs that are written for a run of `k` of them behind `previous`. -/
def strictLength (previous : Option Char) (k : Nat) : Nat :=
  if k = 2 ∧ ∀ p ∈ previous, p ∉ ['!', '<', '>'] then 3
  else if k = 1 ∧ previous = some '!' then 2
  else k

/-- A run as it is written behind `previous`. -/
def strictRun (previous : Option Char) (run : Text) : Text :=
  if '=' ∈ run then List.replicate (strictLength previous run.length) '=' else run

/-- A line is cut into its maximal runs. -/
lemma areRuns_equalsRuns (line : Text) : AreRuns (equalsRuns line) := by
  have halike : ∀ run ∈ equalsRuns line, '=' ∈ run → ∀ c ∈ run, c = '=' := by
    intro run hrun hmem c hc
    -- neighbours in a run are of the same kind, and so are any two of its characters
    have htrans : IsTrans Char fun c d => ((c == '=') == (d == '=')) = true :=
      ⟨fun a b c hab hbc => beq_iff_eq.2 ((beq_iff_eq.1 hab).trans (beq_iff_eq.1 hbc))⟩
    have hsymm : Std.Symm fun c d : Char => ((c == '=') == (d == '=')) = true :=
      ⟨fun a b hab => beq_iff_eq.2 (beq_iff_eq.1 hab).symm⟩
    have hpairwise := List.isChain_iff_pairwise.1 (List.isChain_of_mem_splitBy hrun)
    by_contra hother
    have hkind := hpairwise.forall hc hmem hother
    simp [hother] at hkind
  refine ⟨fun run hrun => List.ne_nil_of_mem_splitBy hrun, halike, ?_⟩
  refine (List.isChain_getLast_head_splitBy _ line).imp_of_mem_imp ?_
  rintro run next hrun hnext ⟨hrunNe, hnextNe, hkind⟩
  have hlast := List.getLast_mem hrunNe
  have hhead := List.head_mem hnextNe
  constructor
  · intro hmem hmemNext
    rw [halike run hrun hmem _ hlast, halike next hnext hmemNext _ hhead] at hkind
    simp at hkind
  · intro hnot
    have hother : next.head hnextNe ≠ '=' := fun heq => hnot (heq ▸ hhead)
    have hequals : run.getLast hrunNe = '=' := by simpa [hother] using hkind
    exact hequals ▸ hlast

/-! ### Writing a run -/

/-- The part of a line behind `previous`, with strict comparisons, and with the sign that an
exclamation mark in front of it asks for. -/
def strictBehind (previous : Option Char) (t : Text) : Text :=
  if previous = some '!' ∧ t.head? = some '=' ∧ t.tail.head? ≠ some '=' then
    '=' :: strictEqualityFrom previous t
  else strictEqualityFrom previous t

lemma strictBehind_of_ne {previous : Option Char} (h : previous ≠ some '!') (t : Text) :
    strictBehind previous t = strictEqualityFrom previous t :=
  if_neg fun hmark => h hmark.1

lemma strictBehind_of_head?_ne {t : Text} (h : t.head? ≠ some '=') (previous : Option Char) :
    strictBehind previous t = strictEqualityFrom previous t :=
  if_neg fun hmark => h hmark.2.1

/-- A character other than `=` is kept. -/
lemma strictEqualityFrom_cons_of_ne {c : Char} (hc : c ≠ '=') (previous : Option Char) (t : Text) :
    strictEqualityFrom previous (c :: t) = c :: strictBehind (some c) t := by
  have hmark : beginsLoose previous c t = true ↔
      some c = some '!' ∧ t.head? = some '=' ∧ t.tail.head? ≠ some '=' := by
    simp only [beginsLoose, beginsComparison, Bool.and_eq_true, Bool.or_eq_true, beq_iff_eq,
      bne_iff_ne, hc, false_and, false_or, Option.some.injEq]
    tauto
  rw [strictEqualityFrom_cons_eq, strictBehind]
  by_cases hloose : beginsLoose previous c t = true
  · obtain ⟨-, hhead, hbehind⟩ := sign_of_beginsLoose hloose
    obtain ⟨t, rfl⟩ := List.head?_eq_some_iff.1 hhead
    rw [if_pos hloose, if_pos (hmark.1 hloose), strictEqualityFrom_cons_eq,
      strictEqualityFrom_cons_eq, hbehind]
    simp [beginsLoose, beginsComparison]
  · rw [if_neg hloose, if_neg fun h => hloose (hmark.2 h)]

/-- A run of other characters is kept. -/
lemma strictEqualityFrom_append_of_notMem {run : Text} (hne : run ≠ []) (hrun : '=' ∉ run)
    (previous : Option Char) (t : Text) :
    strictEqualityFrom previous (run ++ t) = run ++ strictBehind run.getLast? t := by
  induction run generalizing previous with
  | nil => exact absurd rfl hne
  | cons c run ih =>
    rw [List.mem_cons, not_or] at hrun
    rw [List.cons_append, strictEqualityFrom_cons_of_ne (Ne.symm hrun.1), List.cons_append]
    by_cases hnil : run = []
    · simp [hnil]
    · obtain ⟨d, more, rfl⟩ := List.exists_cons_of_ne_nil hnil
      have hhead : ((d :: more) ++ t).head? ≠ some '=' := by
        simpa using fun h : d = '=' => hrun.2 (by simp [h])
      rw [strictBehind_of_head?_ne hhead, ih hnil hrun.2]
      simp

/-- Inside a run of equals signs, no comparison begins. -/
lemma strictEqualityFrom_replicate_append (n : Nat) (t : Text) :
    strictEqualityFrom (some '=') (List.replicate n '=' ++ t) =
      List.replicate n '=' ++ strictEqualityFrom (some '=') t := by
  induction n with
  | zero => rfl
  | succ n ih =>
    have hloose : beginsLoose (some '=') '=' (List.replicate n '=' ++ t) = false := by
      simp [beginsLoose, beginsComparison]
    rw [List.replicate_succ, List.cons_append, strictEqualityFrom_cons_eq, hloose,
      if_neg (by simp), ih, List.cons_append]

section Run

variable {previous : Option Char} (hprevious : previous ≠ some '=') (n : Nat) {t : Text}
  (ht : t.head? ≠ some '=')
include hprevious ht

/-- A maximal run of equals signs begins a comparison if it has two of them and no other sign in
front. -/
lemma beginsLoose_replicate_iff :
    beginsLoose previous '=' (List.replicate n '=' ++ t) = true ↔
      n = 1 ∧ ∀ p ∈ previous, p ∉ ['!', '<', '>'] := by
  have hbegins : beginsComparison previous '=' = true ↔ ∀ p ∈ previous, p ∉ ['!', '<', '>'] := by
    rcases previous with _ | p
    · simp [beginsComparison]
    · have hp : p ≠ '=' := by simpa using hprevious
      simp [beginsComparison, hp, and_assoc]
  rcases n with _ | _ | n
  · simp [beginsLoose, ht]
  · simp [beginsLoose, ht, hbegins]
  · simp [beginsLoose, List.replicate_succ]

/-- **A maximal run of equals signs is written with its strict length.** -/
lemma strictBehind_replicate_append :
    strictBehind previous (List.replicate (n + 1) '=' ++ t) =
      List.replicate (strictLength previous (n + 1)) '=' ++ strictEqualityFrom (some '=') t := by
  have hrun : strictEqualityFrom previous (List.replicate (n + 1) '=' ++ t) =
      List.replicate (if n = 1 ∧ ∀ p ∈ previous, p ∉ ['!', '<', '>'] then 3 else n + 1) '=' ++
        strictEqualityFrom (some '=') t := by
    have hloose := beginsLoose_replicate_iff hprevious n ht
    rw [List.replicate_succ, List.cons_append, strictEqualityFrom_cons_eq,
      strictEqualityFrom_replicate_append]
    split
    · rename_i hbegins
      rw [if_pos (hloose.1 hbegins), (hloose.1 hbegins).1]
      rfl
    · rename_i hbegins
      rw [if_neg fun h => hbegins (hloose.2 h)]
      rfl
  rw [strictBehind, hrun, strictLength]
  -- only a single sign can be doubled by an exclamation mark
  rcases n with _ | _ | n
  · by_cases hmark : previous = some '!'
    · simp [hmark, ht]
    · simp [hmark]
  · simp [List.replicate_succ]
  · simp [List.replicate_succ]

end Run

/-! ### Writing a line -/

/-- **Runs are written one by one**, where the text `front` before them is finished. -/
lemma strictBehind_flatten {runs : List Text} (h : AreRuns runs) (front : Text)
    (hfront : ∀ run ∈ runs.head?, '=' ∈ run → front.getLast? ≠ some '=') :
    strictBehind front.getLast? runs.flatten =
      (runs.mapIdx fun i run =>
        strictRun (front ++ (runs.take i).flatten).getLast? run).flatten := by
  induction runs generalizing front with
  | nil => simp [strictBehind, strictEqualityFrom]
  | cons run runs ih =>
    have hne : run ≠ [] := h.ne_nil run List.mem_cons_self
    obtain ⟨hnext, hchain⟩ := List.isChain_cons.1 h.alternate
    have hrest : AreRuns runs := ⟨fun r hr => h.ne_nil r (List.mem_cons_of_mem _ hr),
      fun r hr => h.alike r (List.mem_cons_of_mem _ hr), hchain⟩
    have hlast : (front ++ run).getLast? = run.getLast? := List.getLast?_append_of_ne_nil _ hne
    have hwritten := ih hrest (front ++ run) fun r hr hmem heq => by
      rw [hlast] at heq
      exact (hnext r hr).1 (List.mem_of_getLast? heq) hmem
    simp only [List.flatten_cons, List.mapIdx_cons, List.take_zero, List.flatten_nil,
      List.append_nil, List.take_succ_cons, ← List.append_assoc]
    rw [← hwritten, hlast, strictRun]
    by_cases hmem : '=' ∈ run
    · have hhead : runs.flatten.head? ≠ some '=' := by
        rcases runs with _ | ⟨next, runs⟩
        · simp
        · have hnot : '=' ∉ next := (hnext next rfl).1 hmem
          rw [List.flatten_cons, List.head?_append_of_ne_nil _ (h.ne_nil next (by simp))]
          exact fun heq => hnot (List.mem_of_mem_head? heq)
      obtain ⟨n, hn⟩ : ∃ n, run.length = n + 1 :=
        Nat.exists_eq_add_one_of_ne_zero fun hzero => hne (List.length_eq_zero_iff.1 hzero)
      have hrun : run = List.replicate (n + 1) '=' :=
        hn ▸ List.eq_replicate_of_mem (h.alike run List.mem_cons_self hmem)
      have hequals : run.getLast? = some '=' := by
        rw [hrun, List.getLast?_replicate, if_neg (Nat.succ_ne_zero n)]
      rw [if_pos hmem, hequals, hn, hrun,
        strictBehind_replicate_append (hfront run rfl hmem) n hhead]
      rfl
    · obtain ⟨c, more, rfl⟩ := List.exists_cons_of_ne_nil hne
      have hc : c ≠ '=' := fun heq => hmem (by simp [heq])
      rw [if_neg hmem, strictBehind_of_head?_ne (by simpa using hc),
        strictEqualityFrom_append_of_notMem hne hmem]

/-- **Comparisons are made strict run by run.** Every line is cut into its maximal runs of equals
signs and of other characters, and each run is written as it has to be behind the character in front
of it: with three signs for two of them that follow none of `!`, `<` and `>`, with two for a single
one behind `!`, and as it stands otherwise. -/
theorem strictEquality_eq_flatten_runs (line : Text) :
    (equalsRuns line).flatten = line ∧ AreRuns (equalsRuns line) ∧
      strictEquality line = ((equalsRuns line).mapIdx fun i run =>
        strictRun ((equalsRuns line).take i).flatten.getLast? run).flatten := by
  have hline : (equalsRuns line).flatten = line := List.flatten_splitBy _ line
  have hruns := areRuns_equalsRuns line
  have hwritten := strictBehind_flatten hruns [] (by simp)
  rw [hline, List.getLast?_nil, strictBehind_of_ne (by simp)] at hwritten
  exact ⟨hline, hruns, by simpa [strictEquality] using hwritten⟩

example : equalsRuns "a==!=b<==" = ["a".toList, "==".toList, "!".toList, "=".toList, "b<".toList,
    "==".toList] ∧ strictEquality "a==!=b<==" = "a===!==b<==" := by decide

end Rebrace
