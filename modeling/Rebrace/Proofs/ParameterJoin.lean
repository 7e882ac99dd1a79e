import Mathlib
import Rebrace.Header.Signature
import Rebrace.Proofs.ClauseGrammar
import Rebrace.Proofs.Headers
import Rebrace.Proofs.Offsets
import Rebrace.Proofs.Pieces

/-!
# Parameters that are joined again

A header keeps its parameters as a text: what stands between the parentheses is cut at its exposed
commas, the segments are trimmed, the owner of a method is left out, and the others are joined.  The
parameters are read from this text, which is cut once more.  Nothing is changed by that, whatever
the text is, and even if it leaves a bracket or a literal open: where a text is cut nothing is open,
white space opens and closes nothing, and only a segment without content is ever lost.  So the
parameters of a header are the ones between its parentheses, less the owner:
`ParamList.parse_join_splitTop`.
-/

namespace Rebrace

open Text Scan

/-! ### The first exposed separator -/

namespace Scan

variable {nest : Char → Int} {separator : Char}

/-- A text that exposes a separator can be cut at the first one. -/
lemma exists_first_of_mem_exposed {s : Scan} {t : Text} (h : separator ∈ exposed nest s t) :
    ∃ u v, t = u ++ separator :: v ∧ run nest s u = {} ∧ separator ∉ exposed nest s u := by
  induction t generalizing s with
  | nil => cases h
  | cons c t ih =>
    by_cases hfirst : separator ∈ (if s.exposes nest c then [c] else [])
    · split at hfirst
      · rename_i hexposes
        obtain rfl := List.mem_singleton.1 hfirst
        exact ⟨[], t, rfl, eq_of_exposes hexposes, List.not_mem_nil⟩
      · cases hfirst
    · obtain ⟨u, v, rfl, hrun, hnot⟩ := ih ((List.mem_append.1 h).resolve_left hfirst)
      refine ⟨c :: u, v, rfl, hrun, fun hmem => ?_⟩
      exact (List.mem_append.1 hmem).elim hfirst hnot

/-- A text exposes no separator, or it is a part that is passed over, a separator, and more text. -/
lemma notMem_exposed_or (nest : Char → Int) (separator : Char) (t : Text) :
    separator ∉ exposed nest {} t ∨
      ∃ u v, t = u ++ separator :: v ∧ Passes nest (· ≠ separator) u := by
  by_cases hmem : separator ∈ exposed nest {} t
  · obtain ⟨u, v, ht, hrun, hnot⟩ := exists_first_of_mem_exposed hmem
    refine Or.inr ⟨u, v, ht, hrun, fun c hc => ?_⟩
    rintro rfl
    exact hnot hc
  · exact Or.inl hmem

/-- What holds of texts without an exposed separator holds of all texts if a part that is passed
over and a separator can be put in front. -/
@[elab_as_elim]
lemma separator_induction (nest : Char → Int) (separator : Char) {motive : Text → Prop}
    (last : ∀ t, separator ∉ exposed nest {} t → motive t)
    (part : ∀ u t, Passes nest (· ≠ separator) u → motive t → motive (u ++ separator :: t))
    (t : Text) : motive t := by
  induction hlength : t.length using Nat.strong_induction_on generalizing t with
  | _ n ih =>
    rcases notMem_exposed_or nest separator t with hnot | ⟨u, v, rfl, hu⟩
    · exact last t hnot
    · refine part u v hu (ih v.length ?_ v rfl)
      rw [← hlength, List.length_append, List.length_cons]
      omega

end Scan

/-! ### Segments -/

/-- A text without an exposed comma is one segment, or none if it is blank. -/
lemma splitTop_of_notMem_exposed {t : Text} (h : ',' ∉ exposed nestAll {} t) :
    splitTop ',' t = if isBlank t then [] else [trim t] := by
  have hcut := cut_append h []
  rw [List.append_nil] at hcut
  rw [splitTop_eq_split, split, hcut]
  simp only [cut, List.append_nil, dropBlankLast]
  split <;> rfl

/-- A part that is passed over and a comma are one segment. -/
lemma splitTop_append_comma {u : Text} (hu : Passes nestAll (· ≠ ',') u) (t : Text) :
    splitTop ',' (u ++ ',' :: t) = trim u :: splitTop ',' t := by
  rw [splitTop_eq_split, splitTop_eq_split]
  change (dropBlankLast (segments nestAll ',' (u ++ ',' :: t))).map trim = _
  rw [segments_append_separator (by decide) (by decide) hu]
  rfl

/-- Behind the first one, segments are joined with a comma and a space in front. -/
lemma join_cons_of_ne_nil (u : Text) {us : List Text} (h : us ≠ []) :
    join ", " (u :: us) = u ++ ',' :: ' ' :: join ", " us := by
  simp [join, List.intercalate_cons_of_ne_nil h]

lemma trim_trim (t : Text) : trim (trim t) = trim t := by
  by_cases h : trim t = []
  · rw [h]
    rfl
  · exact (IsTrimmed.of_trim_ne_nil h).trim_eq

/-- A blank text has no segment, and any other is the only segment of its trimmed form. -/
lemma splitTop_trim {t : Text} (h : ',' ∉ exposed nestAll {} t) :
    splitTop ',' (trim t) = splitTop ',' t := by
  have hnot : ',' ∉ exposed nestAll {} (trim t) := fun hmem => h (exposed_trim_subset t hmem)
  rw [splitTop_of_notMem_exposed hnot, splitTop_of_notMem_exposed h,
    isBlank_eq_of_visible (visible_trim t), trim_trim]

/-- **Segments that are joined are found again**, except for those without content. -/
lemma filter_splitTop_join_splitTop (t : Text) :
    (splitTop ',' (join ", " (splitTop ',' t))).filter (!·.isEmpty) =
      (splitTop ',' t).filter (!·.isEmpty) := by
  induction t using separator_induction nestAll ',' with
  | last t h =>
    have hjoin : join ", " (splitTop ',' t) = trim t := by
      rw [splitTop_of_notMem_exposed h]
      split
      · rename_i hblank
        rw [trim_eq_nil_of_isBlank hblank]
        rfl
      · simp [join]
    rw [hjoin, splitTop_trim h]
  | part u t hu ih =>
    rw [splitTop_append_comma hu]
    by_cases hnil : splitTop ',' t = []
    · -- what was cut off is blank, and so is the segment if it is not found again
      have hnot : ',' ∉ exposed nestAll {} u := fun hmem => hu.exposed ',' hmem rfl
      have hjoin : join ", " [trim u] = trim u := by simp [join]
      rw [hnil, hjoin, splitTop_trim hnot, splitTop_of_notMem_exposed hnot]
      split
      · rename_i hblank
        rw [trim_eq_nil_of_isBlank hblank]
        rfl
      · rfl
    · have hspace : ∀ v : Text, splitTop ',' (' ' :: v) = splitTop ',' v := by
        intro v
        rw [splitTop_eq_split, splitTop_eq_split, split_cons_space (by decide) (by decide)]
      rw [join_cons_of_ne_nil _ hnil, splitTop_append_comma hu.trim, hspace, trim_trim,
        List.filter_cons, List.filter_cons, ih]

/-! ### Offsets of exposed characters -/

namespace Positional

/-- The offset of the first exposed character `c` of a text. -/
def topOffset? (c : Char) (t : Text) : Option Nat :=
  ((exposedFrom {} 0 t).find? fun entry => entry.2 == c).map Prod.fst

/-- What stands behind the first exposed comma of a text; nothing if there is none. -/
def behindComma (t : Text) : Text :=
  ((topOffset? ',' t).bind fun i => sliceFrom t (i + 1)).getD []

lemma exposedFrom_append (s : Scan) (offset : Nat) (u v : Text) :
    exposedFrom s offset (u ++ v) =
      exposedFrom s offset u ++ exposedFrom (run nestAll s u) (offset + utf8Size u) v := by
  induction u generalizing s offset with
  | nil => rfl
  | cons c u ih =>
    simp only [List.cons_append, exposedFrom, ih, run_cons, utf8Size_cons, Nat.add_assoc]
    split <;> rfl

/-- The characters at the offsets are the exposed ones. -/
lemma map_snd_exposedFrom (s : Scan) (offset : Nat) (t : Text) :
    (exposedFrom s offset t).map Prod.snd = exposed nestAll s t := by
  induction t generalizing s offset with
  | nil => rfl
  | cons c t ih =>
    rw [exposedFrom, exposed_cons, ← ih _ (offset + c.utf8Size)]
    split <;> rfl

lemma find?_exposedFrom_eq_none {s : Scan} {t : Text} {c : Char} (h : c ∉ exposed nestAll s t)
    (offset : Nat) : ((exposedFrom s offset t).find? fun entry => entry.2 == c) = none := by
  rw [← map_snd_exposedFrom s offset] at h
  refine List.find?_eq_none.2 fun entry hentry => ?_
  rw [beq_iff_eq]
  rintro rfl
  exact h (List.mem_map_of_mem hentry)

/-- A text without an exposed comma has no offset for it. -/
lemma topOffset?_eq_none {t : Text} (h : ',' ∉ exposed nestAll {} t) : topOffset? ',' t = none := by
  rw [topOffset?, find?_exposedFrom_eq_none h, Option.map_none]

/-- Behind a part that is passed over, a comma is the first exposed one. -/
lemma topOffset?_append_comma {u : Text} (hu : Passes nestAll (· ≠ ',') u) (t : Text) :
    topOffset? ',' (u ++ ',' :: t) = some (utf8Size u) := by
  have hnot : ',' ∉ exposed nestAll {} u := fun hmem => hu.exposed ',' hmem rfl
  have hexposes : Scan.exposes nestAll {} ',' = true := by decide
  rw [topOffset?, exposedFrom_append, List.find?_append, find?_exposedFrom_eq_none hnot, hu.run_eq,
    exposedFrom, if_pos hexposes]
  simp

lemma behindComma_append_comma {u : Text} (hu : Passes nestAll (· ≠ ',') u) (t : Text) :
    behindComma (u ++ ',' :: t) = t := by
  rw [behindComma, topOffset?_append_comma hu, Option.bind_some,
    sliceFrom_append_cons (by decide), Option.getD_some]

end Positional

/-! ### Parameters -/

namespace ParamList

/-- Segments without content do not count. -/
lemma ofSegments_filter (keyword : Bool) (segments : List Text) :
    ofSegments keyword (segments.filter (!·.isEmpty)) = ofSegments keyword segments := by
  induction segments generalizing keyword with
  | nil => rfl
  | cons segment segments ih =>
    rw [List.filter_cons]
    split
    · simp only [ofSegments, ih]
    · rename_i hempty
      rw [ih, ofSegments, if_pos (Or.inl (by simpa using hempty))]

/-- **Parameters that are cut apart, trimmed and joined are read as they were written.** -/
lemma parse_join (t : Text) : parse (join ", " (splitTop ',' t)) = parse t := by
  rw [parse, ← ofSegments_filter, filter_splitTop_join_splitTop, ofSegments_filter, parse]

/-- Nothing stands behind the first segment of a text without an exposed comma. -/
lemma join_tail_eq_nil {t : Text} (h : ',' ∉ exposed nestAll {} t) :
    join ", " (splitTop ',' t).tail = [] := by
  rw [splitTop_of_notMem_exposed h]
  split <;> rfl

/-- Without the first segment, what is read is what stands behind the first exposed comma. -/
lemma parse_join_tail (t : Text) :
    parse (join ", " (splitTop ',' t).tail) = parse (Positional.behindComma t) := by
  rcases notMem_exposed_or nestAll ',' t with hnot | ⟨u, v, rfl, hu⟩
  · rw [join_tail_eq_nil hnot, Positional.behindComma, Positional.topOffset?_eq_none hnot]
    rfl
  · rw [splitTop_append_comma hu, List.tail_cons, parse_join,
      Positional.behindComma_append_comma hu]

/-- **Joining the segments of a parameter list changes no parameter.** For every text, the segments
between its exposed commas are joined to a text with the same parameters, or with the same error.
Without the first one they are joined to a text with the parameters behind the first exposed comma,
and to nothing if there is no such comma.  So the parameters of a function header are the ones
between its parentheses, and those of a method are the ones behind its owner. -/
theorem parse_join_splitTop :
    (∀ t : Text,
      parse (join ", " (splitTop ',' t)) = parse t ∧
      (∀ i, Positional.topOffset? ',' t = some i →
        ∃ after, Positional.sliceFrom t (i + 1) = some after ∧
          parse (join ", " (splitTop ',' t).tail) = parse after) ∧
      (Positional.topOffset? ',' t = none → join ", " (splitTop ',' t).tail = [])) ∧
    ∀ (line : Text) (s : Signature), Signature.parse? line = some s →
      ∃ inside text, line.drop s.indent = "def " ++ s.name ++ '(' :: inside ∧
        Signature.cutParams? inside = some (text, s.result?, s.trailing) ∧
        (s.kind = .function → parse s.params = parse text) ∧
        (s.kind = .method →
          (∃ owner, (splitTop ',' text).head? = some owner ∧ Signature.isOwner owner = true) ∧
            parse s.params = parse (Positional.behindComma text)) := by
  refine ⟨fun t => ⟨parse_join t, ?_⟩, fun line s hline => ?_⟩
  · rcases notMem_exposed_or nestAll ',' t with hnot | ⟨u, v, rfl, hu⟩
    · refine ⟨fun i hi => ?_, fun _ => join_tail_eq_nil hnot⟩
      rw [Positional.topOffset?_eq_none hnot] at hi
      cases hi
    · rw [Positional.topOffset?_append_comma hu, splitTop_append_comma hu, List.tail_cons]
      refine ⟨?_, fun hnone => absurd hnone (by simp)⟩
      rintro i ⟨⟩
      exact ⟨v, Positional.sliceFrom_append_cons (by decide) u v, parse_join v⟩
  · obtain ⟨-, hindent, afterDef, inside, text, hdef, htake, hcut, hkind⟩ :=
      Signature.parse?_eq_some_iff.1 hline
    refine ⟨inside, text, ?_, hcut, ?_⟩
    · rw [hindent, hdef, eq_append_of_takeName? htake, List.append_assoc]
    · rcases Signature.kindOf?_eq_some_iff.1 hkind with
        ⟨-, hfunction, hparams⟩ | ⟨-, hmethod, owner, rest, hsegments, howner, hparams⟩
      · rw [hfunction, hparams]
        exact ⟨fun _ => parse_join text, fun h => absurd h (by decide)⟩
      · rw [hmethod, hparams]
        refine ⟨fun h => absurd h (by decide), fun _ => ⟨⟨owner, ?_, howner⟩, ?_⟩⟩
        · rw [hsegments, List.head?_cons]
        · rw [← parse_join_tail, hsegments, List.tail_cons]

/-- A text with a segment without content and a literal that is left open, a text whose comma stands
inside a bracket that is left open, and the header of a method. -/
theorem parse_join_splitTop_of_open_literal :
    (Positional.topOffset? ',' "self , x: Dict[str, int], ,y = \x27(, " = some 5 ∧
      ∃ after, Positional.sliceFrom "self , x: Dict[str, int], ,y = \x27(, " 6 = some after ∧
        parse (join ", " (splitTop ',' "self , x: Dict[str, int], ,y = \x27(, ").tail) =
          parse after) ∧
      (Positional.topOffset? ',' "f(a, b" = none ∧ join ", " (splitTop ',' "f(a, b").tail = []) ∧
      ∃ inside text, Signature.cutParams? inside = some (text, none, []) ∧
        parse "a=1, *, b: str" = parse (Positional.behindComma text) := by
  have hsome : Positional.topOffset? ',' "self , x: Dict[str, int], ,y = \x27(, " = some 5 := by
    decide
  have hnone : Positional.topOffset? ',' "f(a, b" = none := by decide
  have hline : Signature.parse? "    def f(self,a=1 , *,b: str):" =
      some { indent := 4, kind := .method, name := "f", params := "a=1, *, b: str",
             result? := none, trailing := [] } := by decide
  obtain ⟨inside, text, -, hcut, -, hmethod⟩ := parse_join_splitTop.2 _ _ hline
  exact ⟨⟨hsome, (parse_join_splitTop.1 _).2.1 5 hsome⟩,
    ⟨hnone, (parse_join_splitTop.1 _).2.2 hnone⟩, inside, text, hcut, (hmethod rfl).2⟩

end ParamList

end Rebrace
