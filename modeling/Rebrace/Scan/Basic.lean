import Rebrace.Text.Basic

/-!
# Scanning a line

A scanner reads a text from left to right and keeps two things: whether it stands inside a string
literal, and how many brackets are open around it.  A literal starts at a quotation mark and ends at
the next mark of the same kind that no backslash escapes; brackets inside it do not count.  The
depth is an integer, since a text may close more brackets than it opened.
-/

namespace Rebrace

/-! ### String literals -/

/-- Where a scanner stands with respect to string literals. -/
inductive QuoteState where
  /-- Outside every literal. -/
  | outside
  /-- Inside a literal opened by `mark`; `escaped` after a backslash. -/
  | inside (mark : Char) (escaped : Bool)
  deriving DecidableEq

/-- The two characters that open a string literal. -/
def isQuoteMark (c : Char) : Bool :=
  c == '\x27' || c == '\x22'

/-- The state after one more character. -/
def QuoteState.next : QuoteState → Char → QuoteState
  | outside, c => if isQuoteMark c then inside c false else outside
  | inside mark true, _ => inside mark false
  | inside mark false, c =>
    if c = '\\' then inside mark true
    else if c = mark then outside
    else inside mark false

/-- Does `c`, read in this state, belong to the code and not to a literal or its marks? -/
def QuoteState.isCode (q : QuoteState) (c : Char) : Bool :=
  q == .outside && !isQuoteMark c

/-! ### Brackets -/

/-- The state of a scanner: string literals and open brackets. -/
structure Scan where
  /-- The position with respect to string literals. -/
  quote : QuoteState := .outside
  /-- The number of open brackets less the number of closed ones. A counter of 32 bits agrees with
  it on every line with fewer than `2 ^ 31` brackets. -/
  depth : Int := 0
  deriving DecidableEq

namespace Scan

/-- The state after one more character, where `nest c` is what a bracket `c` adds to the depth. -/
def next (nest : Char → Int) (s : Scan) (c : Char) : Scan where
  quote := s.quote.next c
  depth := if s.quote.isCode c then s.depth + nest c else s.depth

/-- Is `c`, read in this state, exposed: code, no bracket, and inside no bracket? -/
def exposes (nest : Char → Int) (s : Scan) (c : Char) : Bool :=
  s.quote.isCode c && nest c == 0 && s.depth == 0

theorem next_of_exposes {nest : Char → Int} {s : Scan} {c : Char} (h : s.exposes nest c) :
    s.next nest c = s := by
  obtain ⟨quote, depth⟩ := s
  simp only [exposes, QuoteState.isCode, Bool.and_eq_true, beq_iff_eq, Bool.not_eq_eq_eq_not,
    Bool.not_true] at h
  obtain ⟨⟨⟨rfl, hmark⟩, hnest⟩, rfl⟩ := h
  simp [next, QuoteState.next, QuoteState.isCode, hmark, hnest]

end Scan

end Rebrace
