import Rebrace.Error

/-!
# Bracket pairs and their partners

Partners are found by counting one kind of bracket only: the other kinds, and string literals, do
not matter here.
-/

namespace Rebrace

open Text

/-! ### Pairs -/

/-- An opening bracket with the bracket that closes it. -/
structure BracketPair where
  /-- The opening bracket. -/
  opener : Char
  /-- The closing bracket. -/
  closer : Char
  deriving DecidableEq

namespace BracketPair

/-- `[` and `]`. -/
def square : BracketPair := ⟨'[', ']'⟩

/-- `(` and `)`. -/
def round : BracketPair := ⟨'(', ')'⟩

/-- Curly brackets. -/
def curly : BracketPair := ⟨'\x7b', '\x7d'⟩

/-- The pair that `c` opens. -/
def ofOpener? (c : Char) : Option BracketPair :=
  [square, round, curly].find? fun pair => pair.opener == c

/-- What `c` adds to the depth of this pair. -/
def nest (pair : BracketPair) (c : Char) : Int :=
  if c = pair.opener then 1 else if c = pair.closer then -1 else 0

/-- A text that follows an opening bracket, cut at the bracket that closes it; `depth` more
brackets are open and have to be closed first. -/
def enclosed? (pair : BracketPair) : (depth : Nat) → Text → Option (Text × Text)
  | _, [] => none
  | depth, c :: t =>
    if c = pair.opener then
      (enclosed? pair (depth + 1) t).map fun parts => (c :: parts.1, parts.2)
    else if c = pair.closer then
      match depth with
      | 0 => some ([], t)
      | depth + 1 => (enclosed? pair depth t).map fun parts => (c :: parts.1, parts.2)
    else (enclosed? pair depth t).map fun parts => (c :: parts.1, parts.2)

/-- The cut of `enclosed?` falls on a closing bracket and loses nothing else. -/
theorem enclosed?_eq_some {pair : BracketPair} {depth : Nat} {t inner after : Text}
    (h : pair.enclosed? depth t = some (inner, after)) : t = inner ++ pair.closer :: after := by
  induction t generalizing depth inner with
  | nil => simp [enclosed?] at h
  | cons c t ih =>
    have step : ∀ {d : Nat},
        (pair.enclosed? d t).map (fun parts => (c :: parts.1, parts.2)) = some (inner, after) →
        c :: t = inner ++ pair.closer :: after := by
      intro d hd
      simp only [Option.map_eq_some_iff, Prod.mk.injEq, Prod.exists] at hd
      obtain ⟨i, a, hcut, rfl, rfl⟩ := hd
      simp [ih hcut]
    rw [enclosed?.eq_def] at h
    split at h
    · simp_all
    · rename_i heq
      cases heq
      split at h
      · exact step h
      · split at h
        · rename_i hc
          subst hc
          split at h
          · simp_all
          · exact step h
        · exact step h

end BracketPair

/-! ### Partners -/

/-- The byte offset of the bracket that closes the one at byte offset `index`. -/
def matchingBracket (text : Text) (index : Nat) : Except Error Nat :=
  match splitAtByte? index text with
  | some (_, c :: rest) =>
    match BracketPair.ofOpener? c with
    | some pair =>
      match pair.enclosed? 0 rest with
      | some (inner, _) => .ok (index + c.utf8Size + utf8Size inner)
      | none => .error (.unmatchedBracket text index)
    | none => .error (.noBracketFound text)
  | _ => .error (.noBracketFound text)

/-! ### Spans -/

/-- A text cut at a pair of square brackets: what stands before, between and after them. -/
structure BracketSpan where
  /-- The text before the opening bracket. -/
  before : Text
  /-- The text strictly between the brackets. -/
  inner : Text
  /-- The text after the closing bracket. -/
  after : Text
  deriving DecidableEq

namespace BracketSpan

/-- The byte offset of the opening bracket. -/
def openOffset (span : BracketSpan) : Nat :=
  utf8Size span.before

/-- The byte offset of the closing bracket. -/
def closeOffset (span : BracketSpan) : Nat :=
  span.openOffset + 1 + utf8Size span.inner

/-- The text that a span was cut from. -/
def text (span : BracketSpan) : Text :=
  span.before ++ '[' :: (span.inner ++ ']' :: span.after)

/-- The span of the first `[` of a text and the `]` that closes it. With `atEnd`, the closing
bracket has to be the last character. -/
def first (text : Text) (atEnd : Bool) : Except Error BracketSpan :=
  match cutAtChar? '[' text with
  | none => .error (.noBracketFound text)
  | some (before, rest) =>
    match BracketPair.square.enclosed? 0 rest with
    | none => .error (.unmatchedBracket text (utf8Size before))
    | some (inner, after) =>
      if atEnd && !after.isEmpty then .error (.trailingContent text)
      else .ok ⟨before, inner, after⟩

theorem text_of_first {t : Text} {atEnd : Bool} {span : BracketSpan}
    (h : first t atEnd = .ok span) : span.text = t := by
  unfold first at h
  split at h
  · simp at h
  · rename_i hcut
    split at h
    · simp at h
    · rename_i henc
      split at h
      · simp at h
      · simp only [Except.ok.injEq] at h
        subst h
        rw [(cutAtChar?_eq_some hcut).1, BracketPair.enclosed?_eq_some henc]
        rfl

theorem length_inner_lt {t : Text} {atEnd : Bool} {span : BracketSpan}
    (h : first t atEnd = .ok span) : span.inner.length < t.length := by
  rw [← text_of_first h]
  simp [text]
  omega

end BracketSpan

end Rebrace
