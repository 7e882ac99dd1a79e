import Mathlib
import Rebrace.Proofs.Blocks
import Rebrace.Proofs.OffsetHeaders

/-!
# Rows of a buffer

A row is the number of a line in a buffer.  Blocks and the documentation in them are found by going
from row to row: each line is read at its row, and a block ends where the search for its end has
come back over blank lines.  It is a fault to read a row behind the last line.

The searches are described by the parts into which they divide the lines,
`Positional.firstRow_cases` and `Positional.lastRow_cases`.  By them, the last row of a block and
its documentation are found without a fault, `Positional.blockEnd_eq` and
`Positional.takeBlock_eq`.
-/

namespace Rebrace.Positional

open Text

/-! ### Searches -/

/-- The first row from `i` on and before `stop` whose line passes a test. -/
def firstRow (lines : List Text) (test : Text → Option Bool) (i stop : Nat) :
    Option (Option Nat) :=
  if i < stop then
    lines[i]?.bind fun line => (test line).bind fun passes =>
      if passes then some (some i) else firstRow lines test (i + 1) stop
  else some none
termination_by stop - i

/-- The last row before `stop` whose line passes a test. -/
def lastRow (lines : List Text) (test : Text → Option Bool) : (stop : Nat) → Option (Option Nat)
  | 0 => some none
  | i + 1 =>
    lines[i]?.bind fun line => (test line).bind fun passes =>
      if passes then some (some i) else lastRow lines test i

/-- The lines in the rows from `i` on and before `stop`. -/
def readRows (lines : List Text) (i stop : Nat) : Option (List Text) :=
  (List.range' i (stop - i)).mapM fun j => lines[j]?

/-- Is a line not blank? -/
def hasContent (line : Text) : Option Bool :=
  some (!isBlank line)

/-- Is a line not blank, and no deeper than `indent`? -/
def isShallow (indent : Nat) (line : Text) : Option Bool :=
  if isBlank line then some false else (leadingSpaces line).map fun inner => inner ≤ indent

lemma hasContent_eq (line : Text) : hasContent line = some (!isBlank line) := rfl

lemma isShallow_eq (indent : Nat) (line : Text) :
    isShallow indent line = some (!isBlank line && decide (Text.leadingSpaces line ≤ indent)) := by
  unfold isShallow
  cases isBlank line <;> simp

section Search

variable {test : Text → Option Bool} {p : Text → Bool}

/-- A search for the first row either passes all rows or stops at the first line that passes the
test. -/
lemma firstRow_cases (htest : ∀ line, test line = some (p line)) (front rows rest : List Text) :
    ((∀ line ∈ rows, p line = false) ∧
      firstRow (front ++ (rows ++ rest)) test front.length (front ++ rows).length = some none) ∨
    ∃ passed line more, rows = passed ++ line :: more ∧ (∀ line ∈ passed, p line = false) ∧
      p line = true ∧
      firstRow (front ++ (rows ++ rest)) test front.length (front ++ rows).length =
        some (some (front ++ passed).length) := by
  induction rows generalizing front with
  | nil =>
    left
    rw [firstRow, if_neg (by simp)]
    exact ⟨by simp, rfl⟩
  | cons line rows ih =>
    have hread : (front ++ (line :: rows ++ rest))[front.length]? = some line := by simp
    rw [firstRow, if_pos (by simp), hread, Option.bind_some, htest, Option.bind_some]
    cases hline : p line with
    | true => exact .inr ⟨[], line, rows, by simp, by simp, hline, by simp⟩
    | false =>
      have hnext := ih (front ++ [line])
      have hrows : front ++ [line] ++ rows = front ++ line :: rows := by simp
      have hlines : front ++ [line] ++ (rows ++ rest) = front ++ (line :: rows ++ rest) := by simp
      rw [hrows, hlines, List.length_append, List.length_singleton] at hnext
      rw [if_neg (by simp)]
      rcases hnext with ⟨hall, hnone⟩ | ⟨passed, stop, more, rfl, hpassed, hstop, hsome⟩
      · exact .inl ⟨List.forall_mem_cons.2 ⟨hline, hall⟩, hnone⟩
      · refine .inr ⟨line :: passed, stop, more, rfl, List.forall_mem_cons.2 ⟨hline, hpassed⟩,
          hstop, ?_⟩
        rw [hsome, List.append_assoc, List.singleton_append]

/-- The row at which a search for the first row ends. -/
lemma firstRow_getD (htest : ∀ line, test line = some (p line)) (front rows rest : List Text) :
    (firstRow (front ++ (rows ++ rest)) test front.length (front ++ rows).length).map
        (·.getD (front ++ rows).length) =
      some (front ++ rows.takeWhile fun line => !p line).length := by
  rcases firstRow_cases htest front rows rest with
    ⟨hall, hnone⟩ | ⟨passed, line, more, rfl, hpassed, hline, hsome⟩
  · rw [hnone, List.takeWhile_eq_self_iff.2 (by simpa using hall)]
    rfl
  · rw [hsome, List.takeWhile_append_of_pos (by simpa using hpassed)]
    simp [hline]

/-- A search for the last row either passes all lines above or stops at the nearest one that passes
the test. -/
lemma lastRow_cases (htest : ∀ line, test line = some (p line)) (above rest : List Text) :
    ((∀ line ∈ above, p line = false) ∧
      lastRow (above.reverse ++ rest) test above.length = some none) ∨
    ∃ near line far, above = near ++ line :: far ∧ (∀ line ∈ near, p line = false) ∧
      p line = true ∧
      lastRow (above.reverse ++ rest) test above.length = some (some far.length) := by
  induction above generalizing rest with
  | nil => exact .inl ⟨by simp, rfl⟩
  | cons line above ih =>
    have hread : ((line :: above).reverse ++ rest)[above.length]? = some line := by simp
    rw [List.length_cons, lastRow, hread, Option.bind_some, htest, Option.bind_some]
    cases hline : p line with
    | true => exact .inr ⟨[], line, above, rfl, by simp, hline, rfl⟩
    | false =>
      have hlines : (line :: above).reverse ++ rest = above.reverse ++ line :: rest := by simp
      rw [if_neg (by simp), hlines]
      rcases ih (line :: rest) with ⟨hall, hnone⟩ | ⟨near, stop, far, rfl, hnear, hstop, hsome⟩
      · exact .inl ⟨List.forall_mem_cons.2 ⟨hline, hall⟩, hnone⟩
      · exact .inr ⟨line :: near, stop, far, rfl, List.forall_mem_cons.2 ⟨hline, hnear⟩, hstop,
          hsome⟩

end Search

/-- The rows of a part of some lines can be read. -/
lemma readRows_append (front rows rest : List Text) :
    readRows (front ++ (rows ++ rest)) front.length (front ++ rows).length = some rows := by
  rw [readRows, List.length_append, Nat.add_sub_cancel_left]
  induction rows generalizing front with
  | nil => rfl
  | cons line rows ih =>
    have hread : (front ++ (line :: rows ++ rest))[front.length]? = some line := by simp
    have hnext := ih (front ++ [line])
    have hlines : front ++ [line] ++ (rows ++ rest) = front ++ (line :: rows ++ rest) := by simp
    rw [hlines, List.length_append, List.length_singleton] at hnext
    rw [List.length_cons, List.range'_succ, List.mapM_cons, hread, hnext]
    rfl

/-! ### Blocks -/

/-- The last row up to `i` whose line is not blank, found by going back row by row; a fault in front
of the first row. -/
def rollBack (lines : List Text) : (i : Nat) → Option Nat
  | 0 => lines[0]?.bind fun line => if isBlank line then minus 0 1 else some 0
  | i + 1 => lines[i + 1]?.bind fun line => if isBlank line then rollBack lines i else some (i + 1)

/-- The last row with content of the rows below `i` down to the first one that is not deeper than
`indent`. -/
def insideEnd (lines : List Text) (indent i : Nat) : Option Nat :=
  ((firstRow lines (isShallow indent) (i + 1) lines.length).map (·.getD lines.length)).bind
    fun next => (minus next 1).bind (rollBack lines)

/-- The last row of the block that the line in the row `i` opens. -/
def blockEnd (lines : List Text) (i : Nat) : Option Nat :=
  lines[i]?.bind fun line =>
    if isBlank line then some i
    else
      (leadingSpaces line).bind fun indent =>
        (firstRow lines hasContent (i + 1) lines.length).bind fun content? =>
          match content? with
          | none => some i
          | some content =>
            (lines[content]?.bind leadingSpaces).bind fun inner =>
              if indent < inner then insideEnd lines indent i else some i

lemma dropBlankEnd_concat (lines : List Text) (line : Text) :
    dropBlankEnd (lines ++ [line]) =
      if isBlank line then dropBlankEnd lines else lines ++ [line] := by
  unfold dropBlankEnd
  rw [List.reverse_append, List.reverse_singleton, List.singleton_append, List.dropWhile_cons]
  cases isBlank line <;> simp

/-- Below a line that is not blank, going back ends without a fault. -/
lemma rollBack_append {line : Text} (hline : isBlank line = false) (above rows rest : List Text) :
    rollBack (above ++ line :: (rows ++ rest)) (above.length + rows.length) =
      some (above.length + (dropBlankEnd rows).length) := by
  induction rows using List.reverseRecOn generalizing rest with
  | nil =>
    have hread : (above ++ line :: ([] ++ rest))[above.length]? = some line := by simp
    rw [List.length_nil, Nat.add_zero]
    cases h : above.length with
    | zero => rw [rollBack, ← h, hread]; simp [hline, dropBlankEnd]
    | succ n => rw [rollBack, ← h, hread]; simp [hline, dropBlankEnd]
  | append_singleton rows last ih =>
    have hread : (above ++ line :: (rows ++ [last] ++ rest))[above.length + rows.length + 1]? =
        some last := by
      simp [Nat.add_assoc]
    rw [List.length_append, List.length_singleton, ← Nat.add_assoc, rollBack, hread,
      dropBlankEnd_concat, Option.bind_some]
    cases hlast : isBlank last with
    | true =>
      have hprevious := ih (last :: rest)
      simpa using hprevious
    | false => simp [Nat.add_assoc]

/-- Blank lines below a header do not start its block. -/
lemma blockBody_blank_append {passed below : List Text} {indent : Nat}
    (hpassed : ∀ line ∈ passed, isBlank line = true) (h : blockBody indent below = []) :
    blockBody indent (passed ++ below) = [] := by
  induction passed with
  | nil => exact h
  | cons line passed ih =>
    rw [List.forall_mem_cons] at hpassed
    rw [List.cons_append, blockBody_cons_of_blank hpassed.1, if_pos (ih hpassed.2)]

/-- The last row of a block is found without a fault: going back ends at the header at the
latest. -/
lemma insideEnd_eq {line : Text} (hline : isBlank line = false) (indent : Nat)
    (above below : List Text) :
    insideEnd (above ++ line :: below) indent above.length =
      some (above.length + (blockBody indent below).length) := by
  have hnext := firstRow_getD (isShallow_eq indent) (above ++ [line]) below []
  have hlines : above ++ [line] ++ (below ++ []) = above ++ line :: below := by simp
  have hstart : (above ++ [line]).length = above.length + 1 := by simp
  have hstop : (above ++ [line] ++ below).length = (above ++ line :: below).length := by simp
  have hinside : (fun row : Text => !(!isBlank row && decide (Text.leadingSpaces row ≤ indent))) =
      isInside indent := by
    funext row
    rw [Bool.eq_iff_iff]
    simp [isInside]
  have hparts : above ++ line :: below = above ++ line ::
      (below.takeWhile (isInside indent) ++ below.dropWhile (isInside indent)) := by
    rw [List.takeWhile_append_dropWhile]
  have hlast : (above ++ [line] ++ below.takeWhile (isInside indent)).length =
      above.length + (below.takeWhile (isInside indent)).length + 1 := by
    rw [List.length_append, hstart, Nat.add_right_comm]
  rw [hlines, hstart, hstop, hinside, hlast] at hnext
  rw [insideEnd, hnext, Option.bind_some, minus_add_right, Option.bind_some, hparts,
    rollBack_append hline]
  rfl

/-- The end of the block of a header is found without a fault. -/
lemma blockEnd_eq {line : Text} (hline : isBlank line = false) (above below : List Text) :
    blockEnd (above ++ line :: below) above.length =
      some (above.length + (blockBody (Text.leadingSpaces line) below).length) := by
  have hread : (above ++ line :: below)[above.length]? = some line := by simp
  have hsearch := firstRow_cases hasContent_eq (above ++ [line]) below []
  have hlines : above ++ [line] ++ (below ++ []) = above ++ line :: below := by simp
  have hstart : (above ++ [line]).length = above.length + 1 := by simp
  have hstop : (above ++ [line] ++ below).length = (above ++ line :: below).length := by simp
  rw [hlines, hstart, hstop] at hsearch
  unfold blockEnd
  rw [hread, Option.bind_some, if_neg (by simp [hline]), leadingSpaces_eq, Option.bind_some]
  rcases hsearch with ⟨hall, hnone⟩ | ⟨passed, content, more, rfl, hpassed, hcontent, hsome⟩
  · have hbody : blockBody (Text.leadingSpaces line) (below ++ []) = [] :=
      blockBody_blank_append (by simpa using hall) (blockBody_nil _)
    rw [List.append_nil] at hbody
    rw [hnone, Option.bind_some, hbody, List.length_nil, Nat.add_zero]
  · have hcontentRead :
        (above ++ line :: (passed ++ content :: more))[(above ++ [line] ++ passed).length]? =
          some content := by
      simp
    rw [hsome, Option.bind_some]
    dsimp only
    rw [hcontentRead, Option.bind_some, leadingSpaces_eq, Option.bind_some]
    by_cases hdeep : Text.leadingSpaces line < Text.leadingSpaces content
    · rw [if_pos hdeep, insideEnd_eq hline]
    · have hbody : blockBody (Text.leadingSpaces line) (passed ++ content :: more) = [] :=
        blockBody_blank_append (by simpa using hpassed)
          (blockBody_cons_of_shallow (by simpa using hcontent) (by omega) more)
      rw [if_neg hdeep, hbody, List.length_nil, Nat.add_zero]

/-! ### Documentation -/

/-- The lines in the rows from `first` to `last`; a fault if there are no such rows. -/
def rowsBetween (lines : List Text) (first last : Nat) : Option (List Text) :=
  if first ≤ last + 1 ∧ last < lines.length then some ((lines.take (last + 1)).drop first)
  else none

/-- The lines of a comment around some content. -/
def frame (indent : Nat) (content : List Text) : List Text :=
  (spaces indent ++ "/**") :: content.map (docLine indent) ++ [spaces indent ++ " */"]

/-- The comment for the rows from the first to the last one with content. -/
def contentComment (indent : Nat) (lines : List Text) : Option (List Text) :=
  (firstRow lines hasContent 0 lines.length).bind fun first? =>
    (lastRow lines hasContent lines.length).bind fun last? =>
      match first?, last? with
      | some first, some last => (rowsBetween lines first last).map (frame indent)
      | _, _ => some []

/-- The comment for the lines of a documentation text. -/
def docComment (indent : Nat) (raw : List Text) : Option (List Text) :=
  let lines := raw.map eraseDelimiters
  ((lines.filter fun line => !isBlank line).mapM leadingSpaces).bind fun indents =>
    contentComment indent (lines.map (·.drop (indents.min?.getD 0)))

/-- The rows from `docStart` down to `last`, with the documentation down to `docEnd` apart. -/
def liftRows (lines : List Text) (docStart docEnd last indent : Nat) : Option BlockParts :=
  let next := firstRow lines hasContent (docEnd + 1) (last + 1)
  (next.map (·.getD (last + 1))).bind fun bodyStart =>
    (readRows lines docStart (docEnd + 1)).bind fun raw =>
      (docComment indent raw).bind fun doc =>
        (readRows lines bodyStart (last + 1)).map fun body => ⟨doc, body⟩

/-- The row in which a documentation text ends that starts in the row `docStart`, with `opened`
behind its delimiter. -/
def docEnd (lines : List Text) (delimiter opened : Text) (docStart last : Nat) :
    Option (Option Nat) :=
  if contains delimiter opened then some (some docStart)
  else firstRow lines (fun line => some (contains delimiter line)) (docStart + 1) (last + 1)

/-- The rows below `start` down to `last`, with their documentation apart. -/
def takeBlock (lines : List Text) (start last indent : Nat) : Option BlockParts :=
  let whole := (readRows lines (start + 1) (last + 1)).map (BlockParts.mk [])
  (firstRow lines hasContent (start + 1) (last + 1)).bind fun docStart? =>
    match docStart? with
    | none => whole
    | some docStart =>
      lines[docStart]?.bind fun line =>
        let text := trimStart line
        match docDelimiters.find? (startsWith · text) with
        | none => whole
        | some delimiter =>
          (sliceFrom text (utf8Size delimiter)).bind fun opened =>
            (docEnd lines delimiter opened docStart last).bind fun docEnd? =>
              match docEnd? with
              | none => whole
              | some docEnd => liftRows lines docStart docEnd last indent

/-- Steps without a fault can be made on all members of a list. -/
lemma mapM_eq_some {α β : Type} {f : α → Option β} {g : α → β} {l : List α}
    (h : ∀ a ∈ l, f a = some (g a)) : l.mapM f = some (l.map g) := by
  induction l with
  | nil => rfl
  | cons a l ih =>
    rw [List.forall_mem_cons] at h
    rw [List.mapM_cons, h.1, ih h.2]
    rfl

/-- Blank lines are dropped down to the first line that is not blank. -/
lemma dropWhile_isBlank_append {passed : List Text} {first : Text}
    (hpassed : ∀ line ∈ passed, isBlank line = true) (hfirst : isBlank first = false)
    (more : List Text) : (passed ++ first :: more).dropWhile isBlank = first :: more := by
  rw [List.dropWhile_append_of_pos hpassed]
  simp [hfirst]

/-- A line that is not blank keeps the lines above it from being dropped. -/
lemma dropBlankEnd_append_cons {line : Text} (hline : isBlank line = false)
    (above more : List Text) :
    dropBlankEnd (above ++ line :: more) = above ++ dropBlankEnd (line :: more) := by
  have hne : dropBlankEnd (line :: more) ≠ [] := by
    rw [dropBlankEnd_cons]
    simp [hline]
  induction above with
  | nil => rfl
  | cons first above ih => rw [List.cons_append, dropBlankEnd_cons, ih, if_neg (by simp [hne])]; rfl

lemma dropBlankEnd_append_blank {line : Text} (hline : isBlank line = false) (above : List Text)
    {blank : List Text} (hblank : ∀ row ∈ blank, isBlank row = true) :
    dropBlankEnd (above ++ line :: blank) = above ++ [line] := by
  have hreverse : ∀ row ∈ blank.reverse, isBlank row = true := by simpa using hblank
  unfold dropBlankEnd
  rw [List.reverse_append, List.reverse_cons, List.append_assoc,
    List.dropWhile_append_of_pos hreverse]
  simp [hline]

/-- The first and the last row with content are in order. -/
lemma contentComment_eq (indent : Nat) (lines : List Text) :
    contentComment indent lines =
      some (match dropBlankEnd (lines.dropWhile isBlank) with
        | [] => []
        | content => frame indent content) := by
  have hfirst := firstRow_cases hasContent_eq [] lines []
  have hlast := lastRow_cases hasContent_eq lines.reverse []
  simp only [List.nil_append, List.append_nil, List.length_nil, List.reverse_reverse,
    List.length_reverse, List.mem_reverse] at hfirst hlast
  unfold contentComment
  rcases hfirst with ⟨hall, hnone⟩ | ⟨passed, first, more, rfl, hpassed, hfirst, hsome⟩
  · have hdrop : lines.dropWhile isBlank = [] := List.dropWhile_eq_nil_iff.2 (by simpa using hall)
    rw [hnone, hdrop]
    rcases hlast with ⟨-, hlast⟩ | ⟨-, -, far, -, -, -, hlast⟩ <;> rw [hlast] <;> rfl
  · rw [Bool.not_eq_true'] at hfirst
    have hdrop := dropWhile_isBlank_append (by simpa using hpassed) hfirst more
    rcases hlast with ⟨hall, -⟩ | ⟨near, last, far, hreverse, hnear, hlast, hfar⟩
    · have hblank := hall first (by simp)
      simp [hfirst] at hblank
    · -- What lies down to the last row with content is what is passed, and the content.
      rw [Bool.not_eq_true'] at hlast
      have hlines : passed ++ first :: more = far.reverse ++ last :: near.reverse := by
        rw [← List.reverse_reverse (passed ++ first :: more), hreverse]
        simp
      have hparts : passed ++ dropBlankEnd (first :: more) = far.reverse ++ [last] := by
        rw [← dropBlankEnd_append_cons hfirst, hlines,
          dropBlankEnd_append_blank hlast _ (by simpa using hnear)]
      have hrows : rowsBetween (passed ++ first :: more) passed.length far.length =
          some (dropBlankEnd (first :: more)) := by
        have hlength := congrArg List.length hparts
        simp only [List.length_append, List.length_reverse, List.length_singleton] at hlength
        have htake : (far.reverse ++ last :: near.reverse).take (far.length + 1) =
            far.reverse ++ [last] := by
          simp [List.take_append]
        rw [rowsBetween, hlines, if_pos ⟨by omega, by simp⟩, htake, ← hparts, List.drop_left]
      rw [hsome, hfar, Option.bind_some, Option.bind_some, hdrop]
      dsimp only
      rw [hrows, Option.map_some, dropBlankEnd_cons, if_neg (by simp [hfirst])]

/-- A comment is made without a fault. -/
lemma docComment_eq (indent : Nat) (raw : List Text) :
    docComment indent raw = some (Rebrace.docComment indent raw) := by
  unfold docComment
  dsimp only
  rw [mapM_eq_some fun line _ => leadingSpaces_eq line, Option.bind_some, contentComment_eq]
  rfl

lemma liftRows_append (front raw below rest : List Text) {docEnd last : Nat}
    (hdoc : docEnd + 1 = (front ++ raw).length) (hlast : last + 1 = (front ++ raw ++ below).length)
    (indent : Nat) :
    liftRows (front ++ (raw ++ (below ++ rest))) front.length docEnd last indent =
      some ⟨Rebrace.docComment indent raw, below.dropWhile isBlank⟩ := by
  have hraw := readRows_append front raw (below ++ rest)
  have hnext := firstRow_getD hasContent_eq (front ++ raw) below rest
  have hbody := readRows_append (front ++ raw ++ below.takeWhile isBlank) (below.dropWhile isBlank)
    rest
  have hbelow : below.takeWhile isBlank ++ (below.dropWhile isBlank ++ rest) = below ++ rest := by
    rw [← List.append_assoc, List.takeWhile_append_dropWhile]
  simp only [List.append_assoc, Bool.not_not, List.takeWhile_append_dropWhile, hbelow]
    at hnext hbody hlast
  unfold liftRows
  simp only [hdoc, hlast, hnext, hraw, hbody, docComment_eq, Option.bind_some, Option.map_some]

/-- The lines of a documentation text that starts on the line `first`, with `opened` behind its
delimiter, and the lines below it. -/
def closeDoc? (delimiter opened first : Text) (more : List Text) : Option (List Text × List Text) :=
  if contains delimiter opened then some ([first], more.dropWhile isBlank)
  else
    match more.dropWhile fun line => !contains delimiter line with
    | [] => none
    | last :: below =>
      some (first :: (more.takeWhile fun line => !contains delimiter line) ++ [last],
        below.dropWhile isBlank)

/-- A block is lifted as its first line with content starts. -/
lemma liftDoc?_eq_closeDoc? {body more : List Text} {first delimiter opened : Text}
    (hdrop : body.dropWhile isBlank = first :: more)
    (hfind : docDelimiters.find? (startsWith · (trimStart first)) = some delimiter)
    (htext : trimStart first = delimiter ++ opened) :
    liftDoc? body = closeDoc? delimiter opened first more := by
  simp only [liftDoc?, hdrop, hfind]
  rw [htext, List.drop_left]
  rfl

/-- A documentation text without an end is not lifted, and the end of another one is its last
row. -/
lemma docEnd_cases (front more rest : List Text) (delimiter opened first : Text) {last : Nat}
    (hlast : last + 1 = (front ++ first :: more).length) :
    (docEnd (front ++ (first :: more ++ rest)) delimiter opened front.length last = some none ∧
      closeDoc? delimiter opened first more = none) ∨
    ∃ raw below docLast, first :: more = raw ++ below ∧ docLast + 1 = (front ++ raw).length ∧
      docEnd (front ++ (first :: more ++ rest)) delimiter opened front.length last =
        some (some docLast) ∧
      closeDoc? delimiter opened first more = some (raw, below.dropWhile isBlank) := by
  unfold docEnd closeDoc?
  by_cases hcloses : contains delimiter opened = true
  · exact .inr ⟨[first], more, front.length, rfl, by simp, if_pos hcloses, if_pos hcloses⟩
  · have hsearch := firstRow_cases (fun _ => rfl : ∀ line, some (contains delimiter line) = _)
      (front ++ [first]) more rest
    have hlines : front ++ [first] ++ (more ++ rest) = front ++ (first :: more ++ rest) := by simp
    have hstop : (front ++ [first] ++ more).length = last + 1 := by simp [hlast]
    rw [hlines, hstop, List.length_append, List.length_singleton] at hsearch
    rw [if_neg hcloses, if_neg hcloses]
    rcases hsearch with ⟨hall, hnone⟩ | ⟨inner, stop, below, rfl, hinner, hstop, hsome⟩
    · have hdrop : (more.dropWhile fun line => !contains delimiter line) = [] :=
        List.dropWhile_eq_nil_iff.2 (by simpa using hall)
      rw [hdrop]
      exact .inl ⟨hnone, rfl⟩
    · refine .inr ⟨first :: inner ++ [stop], below, (front ++ [first] ++ inner).length, by simp, ?_,
        hsome, ?_⟩
      · simp
        omega
      · have hinner : ∀ line ∈ inner, (!contains delimiter line) = true := by simpa using hinner
        rw [List.dropWhile_append_of_pos hinner, List.takeWhile_append_of_pos hinner]
        simp [hstop]

/-- A block is taken apart without a fault. -/
lemma takeBlock_eq (front body rest : List Text) {start last : Nat}
    (hstart : start + 1 = front.length) (hlast : last + 1 = (front ++ body).length) (indent : Nat) :
    takeBlock (front ++ (body ++ rest)) start last indent = some (.ofBody indent body) := by
  have hwhole : (readRows (front ++ (body ++ rest)) (start + 1) (last + 1)).map (BlockParts.mk []) =
      some ⟨[], body⟩ := by
    rw [hstart, hlast, readRows_append, Option.map_some]
  unfold takeBlock BlockParts.ofBody
  simp only [hwhole]
  rw [hstart, hlast]
  rcases firstRow_cases hasContent_eq front body rest with
    ⟨hall, hnone⟩ | ⟨passed, first, more, rfl, hpassed, hfirst, hsome⟩
  · have hdrop : body.dropWhile isBlank = [] := List.dropWhile_eq_nil_iff.2 (by simpa using hall)
    rw [hnone, liftDoc?, hdrop]
    rfl
  · rw [Bool.not_eq_true'] at hfirst
    have hdrop := dropWhile_isBlank_append (by simpa using hpassed) hfirst more
    have hlines : front ++ (passed ++ first :: more ++ rest) =
        front ++ passed ++ (first :: more ++ rest) := by
      simp
    have hread : (front ++ passed ++ (first :: more ++ rest))[(front ++ passed).length]? =
        some first := by
      simp
    rw [hsome, Option.bind_some, hlines]
    dsimp only
    rw [hread, Option.bind_some]
    cases hfind : docDelimiters.find? (startsWith · (trimStart first)) with
    | none =>
      have hlift : liftDoc? (passed ++ first :: more) = none := by
        simp only [liftDoc?, hdrop, hfind]
      rw [hlift]
    | some delimiter =>
      have hstarts : startsWith delimiter (trimStart first) = true := by
        simpa using List.find?_some hfind
      obtain ⟨opened, hopened⟩ := Option.isSome_iff_exists.1 hstarts
      have htext := strip?_eq_some_iff.1 hopened
      rw [liftDoc?_eq_closeDoc? hdrop hfind htext]
      dsimp only
      rw [htext, sliceFrom_append, Option.bind_some]
      rcases docEnd_cases (front ++ passed) more rest delimiter opened first
          (by simpa using hlast) with
        ⟨hend, hclose⟩ | ⟨raw, below, docLast, hraw, hdoc, hend, hclose⟩
      · rw [hend, hclose]
        rfl
      · rw [hend, hclose, hraw, Option.bind_some, List.append_assoc raw]
        refine liftRows_append (front ++ passed) raw below rest hdoc ?_ indent
        rw [hlast, List.append_assoc (front ++ passed), ← hraw, List.append_assoc]

end Rebrace.Positional
