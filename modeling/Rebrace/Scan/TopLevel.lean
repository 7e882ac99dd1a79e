import Rebrace.Scan.Split

/-!
# Separators at the top level

Here all three kinds of brackets count together.  A header ends at its first exposed colon, a
default value follows the first exposed `=` that is no part of a comparison, and lists are split at
exposed commas.
-/

namespace Rebrace

open Text

/-- What `c` adds to the depth when all kinds of brackets count. -/
def nestAll (c : Char) : Int :=
  if c = '(' ∨ c = '[' ∨ c = '\x7b' then 1
  else if c = ')' ∨ c = ']' ∨ c = '\x7d' then -1
  else 0

/-- The parts of a text before and after its first exposed character at which `stop` holds. It is
asked about the character before, the character itself and the one after. -/
def cutExposedFrom? (stop : Option Char → Char → Option Char → Bool) :
    (previous : Option Char) → (s : Scan) → Text → Option (Text × Text)
  | _, _, [] => none
  | previous, s, c :: t =>
    if s.exposes nestAll c && stop previous c t.head? then some ([], t)
    else
      (cutExposedFrom? stop (some c) (s.next nestAll c) t).map fun parts => (c :: parts.1, parts.2)

/-- The parts of a text before and after the colon that ends a header: the first exposed one. -/
def cutHeaderColon? (t : Text) : Option (Text × Text) :=
  cutExposedFrom? (fun _ c _ => c == ':') none {} t

/-- Is `c` an `=` that stands alone, and not in `==`, `!=`, `<=` or `>=`? -/
def isLoneEquals (previous : Option Char) (c : Char) (following : Option Char) : Bool :=
  c == '=' && !previous.any (fun p => p == '=' || p == '!' || p == '<' || p == '>')
    && following != some '='

/-- The parts of a text before and after the `=` in front of a default value: the first exposed one
that stands alone. -/
def cutDefault? (t : Text) : Option (Text × Text) :=
  cutExposedFrom? isLoneEquals none {} t

theorem cutExposedFrom?_eq_some {stop : Option Char → Char → Option Char → Bool}
    {previous : Option Char} {s : Scan} {t before after : Text}
    (h : cutExposedFrom? stop previous s t = some (before, after)) :
    ∃ c, t = before ++ c :: after := by
  induction t generalizing previous s before with
  | nil => simp [cutExposedFrom?] at h
  | cons c t ih =>
    rw [cutExposedFrom?] at h
    split at h
    · simp only [Option.some.injEq, Prod.mk.injEq] at h
      exact ⟨c, by simp [← h.1, h.2]⟩
    · simp only [Option.map_eq_some_iff, Prod.mk.injEq, Prod.exists] at h
      obtain ⟨b, a, hcut, rfl, rfl⟩ := h
      obtain ⟨d, rfl⟩ := ih hcut
      exact ⟨d, rfl⟩

/-- The first piece and the further pieces of a text from state `s` on, cut at the exposed
separators. -/
def cutTopFrom (separator : Char) : (s : Scan) → Text → Text × List Text
  | _, [] => ([], [])
  | s, c :: t =>
    let pieces := cutTopFrom separator (s.next nestAll c) t
    if s.exposes nestAll c && c == separator then ([], pieces.1 :: pieces.2)
    else (c :: pieces.1, pieces.2)

/-- The pieces of a text between its exposed separators, each without the white space at its ends;
a blank last piece is left out. -/
def splitTop (separator : Char) (t : Text) : List Text :=
  let cut := cutTopFrom separator {} t
  (dropBlankLast (cut.1 :: cut.2)).map trim

end Rebrace
