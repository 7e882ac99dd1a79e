import Mathlib
import Rebrace.Proofs.FinalNewline

/-!
# Line endings

A source is read as lines without their endings, and written with a line feed for each ending.  So a
buffer that is not changed gives the source back with plain endings, where `plainEndings` replaces a
carriage return with a line feed behind it by the line feed alone: `Buffer.toSource_ofSource`.

Both sides are taken apart line by line.  A line and its line feed can be read and written apart
from what follows, `Buffer.toSource_ofSource_append`, and `plainEndings_line` says what becomes of
them.  One carriage return is lost for each line feed.  A second one in front of the first is part
of an ending afterwards, so that a source with two of them is not finished after the first time:
`Buffer.toSource_ofSource_plain_and_stable_iff`.
-/

namespace Rebrace

open Text

/-! ### Plain endings -/

/-- The text with each carriage return and line feed, side by side, replaced by a line feed. -/
def plainEndings : Text → Text
  | '\r' :: '\n' :: t => '\n' :: plainEndings t
  | c :: t => c :: plainEndings t
  | [] => []

/-- A text that does not match the two characters of an ending does not start with them. -/
lemma ending_not_prefix_cons {c : Char} {t : Text}
    (h : ∀ rest, c = '\r' → t = '\n' :: rest → False) : ¬ ['\r', '\n'] <+: c :: t := by
  rintro ⟨rest, hrest⟩
  obtain ⟨hc, ht⟩ := List.cons.inj hrest
  exact h rest hc.symm ht.symm

/-- A character that does not begin an ending of two characters is kept. -/
lemma plainEndings_cons {c : Char} {t : Text} (h : ¬ ['\r', '\n'] <+: c :: t) :
    plainEndings (c :: t) = c :: plainEndings t := by
  rw [plainEndings]
  rintro rest rfl rfl
  exact h ⟨rest, rfl⟩

/-- The part of a line in front of its ending is kept. -/
lemma plainEndings_append {front t : Text} (hfront : '\n' ∉ front)
    (h : front.getLast? = some '\r' → t.head? ≠ some '\n') :
    plainEndings (front ++ t) = front ++ plainEndings t := by
  induction front with
  | nil => rfl
  | cons c front ih =>
    rw [List.mem_cons, not_or] at hfront
    have hstart : ¬ ['\r', '\n'] <+: c :: (front ++ t) := by
      rintro ⟨rest, hrest⟩
      obtain ⟨rfl, hnext⟩ := List.cons.inj hrest
      rcases front with _ | ⟨d, front⟩
      · exact h rfl (by rw [← List.nil_append t, ← hnext]; rfl)
      · exact hfront.2 (by rw [← (List.cons.inj hnext).1]; exact List.mem_cons_self)
    have hlast : front.getLast? = some '\r' → t.head? ≠ some '\n' := fun hend =>
      h (by rw [List.getLast?_cons, hend]; rfl)
    rw [List.cons_append, plainEndings_cons hstart, ih hfront.2 hlast, List.cons_append]

/-- A text without a line feed is kept, with all of its carriage returns. -/
lemma plainEndings_of_notMem {t : Text} (h : '\n' ∉ t) : plainEndings t = t := by
  simpa [plainEndings] using plainEndings_append (t := []) h (by simp)

/-- **A line loses one carriage return at its end.** -/
lemma plainEndings_line {line : Text} (h : '\n' ∉ line) (t : Text) :
    plainEndings (line ++ '\n' :: t) = dropCarriageReturn line ++ '\n' :: plainEndings t := by
  rcases dropCarriageReturn_cases line with ⟨inner, rfl, hdrop⟩ | ⟨hlast, hdrop⟩
  · have hinner : '\n' ∉ inner := fun hmem => h (List.mem_append_left _ hmem)
    rw [hdrop, List.append_assoc, plainEndings_append hinner (by simp)]
    rfl
  · rw [hdrop, plainEndings_append h fun hend => absurd hend hlast]
    rfl

/-- A text has plain endings already exactly if no line feed follows a carriage return. -/
lemma plainEndings_eq_self_iff {t : Text} : plainEndings t = t ↔ ¬ ['\r', '\n'] <:+: t := by
  fun_induction plainEndings t with
  | case1 t ih => simp [List.infix_cons_iff]
  | case2 c t hc ih =>
    rw [List.cons.injEq, and_iff_right rfl, ih, List.infix_cons_iff,
      or_iff_right (ending_not_prefix_cons hc)]
  | case3 => simp

/-- With plain endings, a text starts with a line feed exactly if it started with an ending. -/
lemma newline_prefix_plainEndings_iff {t : Text} :
    ['\n'] <+: plainEndings t ↔ ['\n'] <+: t ∨ ['\r', '\n'] <+: t := by
  fun_induction plainEndings t with
  | case1 t ih => simp
  | case2 c t hc ih =>
    rw [or_iff_left (ending_not_prefix_cons hc)]
    simp
  | case3 => simp

/-- An ending of two characters is left exactly if two carriage returns stood in front of a line
feed. -/
lemma ending_infix_plainEndings_iff {t : Text} :
    ['\r', '\n'] <:+: plainEndings t ↔ ['\r', '\r', '\n'] <:+: t := by
  fun_induction plainEndings t with
  | case1 t ih => simp [List.infix_cons_iff, ih]
  | case2 c t hc ih =>
    rw [List.infix_cons_iff, List.infix_cons_iff, ih, List.cons_prefix_cons,
      List.cons_prefix_cons, newline_prefix_plainEndings_iff]
    refine or_congr_left (and_congr_right fun hreturn => or_iff_right fun hfeed => ?_)
    exact ending_not_prefix_cons hc (List.cons_prefix_cons.2 ⟨hreturn, hfeed⟩)
  | case3 => simp

/-! ### Reading and writing -/

/-- A text without a line feed has no line that was ended. -/
lemma cutLines_of_notMem {t : Text} (h : '\n' ∉ t) : cutLines t = ([], t) := by
  induction t with
  | nil => rfl
  | cons c t ih =>
    rw [List.mem_cons, not_or] at h
    simp [cutLines, Ne.symm h.1, ih h.2]

/-- A line and a line feed are one line. -/
lemma cutLines_concat_newline {line : Text} (h : '\n' ∉ line) :
    cutLines (line ++ ['\n']) = ([line], []) := by
  induction line with
  | nil => rfl
  | cons c line ih =>
    rw [List.mem_cons, not_or] at h
    simp [cutLines, Ne.symm h.1, ih h.2]

namespace Buffer

/-- A source can be read and written in two parts, the first of which ends with a line feed. -/
lemma toSource_ofSource_append {a : Text} (ha : a = [] ∨ a.getLast? = some '\n') (b : Text) :
    (ofSource (a ++ b)).toSource = (ofSource a).toSource ++ (ofSource b).toSource := by
  have happend := toSource_append ha (@lines_ofSource_eq_nil_iff a) (@lines_ofSource_eq_nil_iff b)
  rwa [← lines_ofSource_append ha] at happend

/-- A last line without a line feed is written as it was read. -/
lemma toSource_ofSource_of_notMem {t : Text} (h : '\n' ∉ t) : (ofSource t).toSource = t := by
  have hlast : t.getLast? ≠ some '\n' := fun hend => h (List.mem_of_getLast? hend)
  by_cases hnil : t = []
  · rw [hnil]
    rfl
  · simp [toSource, ofSource, cutLines_of_notMem h, hlast, hnil, join]

/-- A line and its line feed are written without a carriage return between them. -/
lemma toSource_ofSource_line {line : Text} (h : '\n' ∉ line) :
    (ofSource (line ++ ['\n'])).toSource = dropCarriageReturn line ++ ['\n'] := by
  simp [toSource, ofSource, cutLines_concat_newline h, join]

/-- **A source is written with plain endings.** -/
lemma toSource_ofSource (source : Text) : (ofSource source).toSource = plainEndings source := by
  -- one line after the other, by induction on the length of what is left
  induction hlength : source.length using Nat.strong_induction_on generalizing source with
  | _ n ih =>
    by_cases hmem : '\n' ∈ source
    · obtain ⟨line, rest, rfl, hline⟩ := List.eq_append_cons_of_mem hmem
      have hshorter : rest.length < n := by
        rw [← hlength, List.length_append, List.length_cons]
        omega
      have hrest := ih rest.length hshorter rest rfl
      calc (ofSource (line ++ '\n' :: rest)).toSource
          = (ofSource (line ++ ['\n'] ++ rest)).toSource := by simp
        _ = (ofSource (line ++ ['\n'])).toSource ++ (ofSource rest).toSource :=
          toSource_ofSource_append (Or.inr List.getLast?_concat) rest
        _ = dropCarriageReturn line ++ '\n' :: plainEndings rest := by
          rw [toSource_ofSource_line hline, hrest, List.append_assoc]
          rfl
        _ = plainEndings (line ++ '\n' :: rest) := (plainEndings_line hline rest).symm
    · rw [toSource_ofSource_of_notMem hmem, plainEndings_of_notMem hmem]

/-- **Reading and writing a source makes its endings plain**, and changes nothing else.  The source
comes back as it was exactly if it has no carriage return in front of a line feed; and what comes
back stays the same when it is read and written again exactly if the source has no two of them
there. -/
theorem toSource_ofSource_plain_and_stable_iff (source : Text) :
    (ofSource source).toSource = plainEndings source ∧
      ((ofSource source).toSource = source ↔ ¬ ['\r', '\n'] <:+: source) ∧
      ((ofSource (ofSource source).toSource).toSource = (ofSource source).toSource ↔
        ¬ ['\r', '\r', '\n'] <:+: source) := by
  refine ⟨toSource_ofSource source, ?_, ?_⟩
  · rw [toSource_ofSource, plainEndings_eq_self_iff]
  · rw [toSource_ofSource, toSource_ofSource, plainEndings_eq_self_iff,
      ending_infix_plainEndings_iff]

example : (ofSource "a\r\n\r\n\r\r\n\rb\r").toSource = "a\n\n\r\n\rb\r" := by decide

end Buffer

end Rebrace
