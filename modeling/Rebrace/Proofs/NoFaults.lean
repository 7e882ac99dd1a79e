import Mathlib
import Rebrace.Pass.Pipeline
import Rebrace.Proofs.Headers
import Rebrace.Proofs.RowNumbers
import Rebrace.Proofs.Steps

/-!
# Passes without faults

A pass goes down the rows of a buffer.  At a header it finds the end of the block, perhaps takes out
the row of a closing brace above the header, and replaces the rows of the block; then it goes on
below the new header.  All of its rows were found in a buffer that has changed since.

`Positional.runPass` makes a pass by such steps, with a fault at every row, offset, difference and
product that does not exist.  The loops of `Positional.braceClauses` and
`Positional.braceDeclarations` carry one invariant: the rows above the current one are the finished
lines, and those from it on are the lines still to be gone through.  From it follows
`Positional.runPass_eq`: there is no fault in a pass over any buffer, and what the pass leaves is
what `Pass.run` leaves, also when it fails.
-/

namespace Rebrace.Positional

open Text

/-! ### Replacing rows -/

section Buffer

variable (newline : Bool)

/-- The rows of a part of a buffer can be replaced. -/
lemma splice?_append (front : List Text) (line : Text) (body rest replacement : List Text) :
    Buffer.splice? ⟨front ++ line :: (body ++ rest), newline⟩ front.length
        (front.length + body.length) replacement =
      some (⟨front ++ replacement ++ rest, newline⟩, front.length + replacement.length) := by
  have htake : (front ++ line :: (body ++ rest)).take front.length = front := List.take_left
  have hdrop : (front ++ line :: (body ++ rest)).drop (front.length + body.length + 1) = rest := by
    have hfront : front ++ line :: (body ++ rest) = (front ++ line :: body) ++ rest := by simp
    have hlength : (front ++ line :: body).length = front.length + body.length + 1 := by
      simp [Nat.add_assoc]
    rw [hfront, ← hlength, List.drop_left]
  rw [Buffer.splice?, if_pos ⟨by omega, by simp⟩]
  simp only [htake, hdrop]

/-- The rows below a line can be read. -/
lemma readRows_below (front : List Text) (line : Text) (body rest : List Text) :
    readRows (front ++ line :: (body ++ rest)) (front.length + 1) (front.length + body.length + 1) =
      some body := by
  have hrows := readRows_append (front ++ [line]) body rest
  have hstart : (front ++ [line]).length = front.length + 1 := by simp
  have hstop : (front ++ [line] ++ body).length = front.length + body.length + 1 := by
    rw [List.length_append, hstart, Nat.add_right_comm]
  rwa [hstop, hstart, List.append_assoc, List.singleton_append] at hrows

/-- A row that a buffer has can be read. -/
lemma line?_append (front : List Text) (line : Text) (rest : List Text) :
    Buffer.line? ⟨front ++ line :: rest, newline⟩ front.length = some line := by
  simp [Buffer.line?]

/-- The row below some finished lines can be read. -/
lemma line?_reverse_append (above : List Text) (line : Text) (below : List Text) :
    Buffer.line? ⟨above.reverse ++ line :: below, newline⟩ above.length = some line := by
  rw [← List.length_reverse, line?_append]

/-- A row that a buffer has can be taken out. -/
lemma remove?_append (front : List Text) (line : Text) (rest : List Text) :
    Buffer.remove? ⟨front ++ line :: rest, newline⟩ front.length =
      some (line, ⟨front ++ rest, newline⟩) := by
  have herase : (front ++ line :: rest).eraseIdx front.length = front ++ rest := by
    rw [List.eraseIdx_append_of_length_le le_rfl, Nat.sub_self, List.eraseIdx_cons_zero]
  rw [Buffer.remove?, line?_append, Option.map_some, herase]

end Buffer

/-! ### Clauses -/

/-- What a pass leaves, and the failure that stopped it. -/
abbrev Left : Type :=
  Buffer × Option Error

/-- Goes on with the result of a step, or stops at its failure and leaves the buffer. -/
def unlessFailed {α : Type} (b : Buffer) (x : Checked α) (f : α → Option Left) : Option Left :=
  x.run.bind fun
    | .ok a => f a
    | .error e => some (b, some e)

/-- The keyword that opened the block closed in the row `closing`, if no `else` may follow it. -/
def elseBlocker (lines : List Text) (closing indent : Nat) : Option (Option Keyword) :=
  (lastRow lines (isShallow indent) closing).bind fun header? =>
    match header? with
    | none => some none
    | some header =>
      lines[header]?.map fun line =>
        let text := trimStart line
        let head := (strip? "\x7d " text).getD text
        let word := head.takeWhile fun c => c != ' ' && c != '('
        Keyword.all.find? fun k => k.refusesElse && k.target == word

/-- The keyword of the block closed in the row `closing` that a clause may not continue. -/
def blockedBy (lines : List Text) (c : Clause) (closing : Nat) : Option (Option Keyword) :=
  if c.keyword = .otherwise then elseBlocker lines closing c.indent else some none

/-- The start of a clause in the row `i` whose block ends in the row `last`: what stands in front of
its keyword, the buffer without the brace that it joins, and the first and the last row. -/
def joinRows (b : Buffer) (c : Clause) (i last : Nat) : Checked (Text × Buffer × Nat × Nat) :=
  if c.keyword.chains ∧ 0 < i then do
    let closing ← minus i 1
    let line ← b.line? closing
    if line = closingLine c.indent then do
      match ← blockedBy b.lines c closing with
      | some keyword => throw (.unsupportedElse keyword)
      | none =>
        let removed ← b.remove? closing
        let last ← minus last 1
        return ("\x7d ", removed.2, closing, last)
    else return ([], b, i, last)
  else return ([], b, i, last)

/-- Gives every clause from the row `i` on its form in the target, in at most `steps` steps. -/
def braceClauses : (steps : Nat) → Buffer → (i : Nat) → Option Left
  | 0, _, _ => none
  | steps + 1, b, i =>
    if i < b.lines.length then
      (b.line? i).bind fun line => (parseClause line).bind fun c? =>
        match c? with
        | none => braceClauses steps b (i + 1)
        | some c =>
          (blockEnd b.lines i).bind fun last =>
            unlessFailed b (joinRows b c i last) fun (leading, b, first, last) =>
              unlessFailed b (renderClause c leading) fun header =>
                (minus last first).bind fun _ =>
                  (readRows b.lines (first + 1) (last + 1)).bind fun body =>
                    (b.splice? first last (header :: body ++ [closingLine c.indent])).bind
                      fun spliced => braceClauses steps spliced.1 (first + 1)
    else some (b, none)

lemma unlessFailed_total {α : Type} (b : Buffer) (x : Except Error α) (f : α → Option Left) :
    unlessFailed b (total x) f =
      match x with
      | .ok a => f a
      | .error e => some (b, some e) := rfl

/-- The header of a closed block is found without a fault. -/
lemma elseBlocker_eq (indent : Nat) (above rest : List Text) :
    elseBlocker (above.reverse ++ rest) above.length indent =
      some (Clause.elseBlocker? indent above) := by
  unfold elseBlocker Clause.elseBlocker?
  rcases lastRow_cases (isShallow_eq indent) above rest with
    ⟨hall, hnone⟩ | ⟨near, header, far, rfl, hnear, hheader, hsome⟩
  · have hfind : (above.find? fun line =>
        !isBlank line && decide (Text.leadingSpaces line ≤ indent)) = none :=
      List.find?_eq_none.2 fun line hline => by simp only [hall line hline, Bool.false_eq_true,
        not_false_eq_true]
    rw [hnone, hfind]
    rfl
  · have hfind : ((near ++ header :: far).find? fun line =>
        !isBlank line && decide (Text.leadingSpaces line ≤ indent)) = some header := by
      rw [List.find?_append, List.find?_eq_none.2 fun line hline => by
        simp only [hnear line hline, Bool.false_eq_true, not_false_eq_true], Option.none_or,
        List.find?_cons, hheader]
    have hread : ((near ++ header :: far).reverse ++ rest)[far.length]? = some header := by simp
    rw [hsome, hfind, Option.bind_some]
    dsimp only
    rw [hread]
    rfl

lemma blockedBy_eq (c : Clause) (above rest : List Text) :
    blockedBy (above.reverse ++ rest) c above.length = some (c.blockedBy? above) := by
  rw [blockedBy, elseBlocker_eq, ← apply_ite some]
  rfl

/-- A clause joins the brace above it without a fault, and its rows move up with it. -/
lemma joinRows_eq (newline : Bool) (c : Clause) (above : List Text) (line : Text)
    (below : List Text) (n : Nat) :
    joinRows ⟨above.reverse ++ line :: below, newline⟩ c above.length (above.length + n) =
      total ((fun joined => (joined.1, ⟨joined.2.reverse ++ line :: below, newline⟩,
        joined.2.length, joined.2.length + n)) <$> c.joinAbove above) := by
  unfold joinRows
  cases above with
  | nil => rw [if_neg (by simp)]; rfl
  | cons closing rest =>
    by_cases hjoins : c.keyword.chains ∧ closing = closingLine c.indent
    · obtain ⟨hchains, rfl⟩ := hjoins
      have hlines : (closingLine c.indent :: rest).reverse ++ line :: below =
          rest.reverse ++ closingLine c.indent :: line :: below := by
        simp
      have hremove := remove?_append newline rest.reverse (closingLine c.indent) (line :: below)
      rw [List.length_reverse] at hremove
      have hlast : minus (rest.length + 1 + n) 1 = some (rest.length + n) := by
        rw [Nat.add_right_comm, minus_add_right]
      rw [Clause.joinAbove_of_joins hchains, hlines, List.length_cons, if_pos ⟨hchains, by omega⟩]
      simp only [minus_add_right, line?_reverse_append, hremove, hlast, lift_some, total_bind,
        blockedBy_eq, ↓reduceIte]
      cases c.blockedBy? rest <;> rfl
    · rw [Clause.joinAbove_of_not_joins (by simpa using hjoins)]
      by_cases hchains : c.keyword.chains
      · have hother : closing ≠ closingLine c.indent := fun h => hjoins ⟨hchains, h⟩
        have hread : Buffer.line? ⟨(closing :: rest).reverse ++ line :: below, newline⟩
            rest.length = some closing := by
          simp [Buffer.line?]
        rw [List.length_cons, if_pos ⟨hchains, by omega⟩]
        simp only [minus_add_right, hread, lift_some, total_bind, if_neg hother]
        rfl
      · rw [if_neg fun h => hchains h.1]
        rfl

/-- The lines of a buffer that a pass leaves, and its failure. -/
def leave (newline : Bool) (o : Outcome) : Left :=
  (⟨o.lines, newline⟩, o.failure?)

section ClauseStep

variable (newline : Bool) (steps : Nat) (above below : List Text) {line : Text}

/-- A line that opens no clause is passed over without a fault. -/
lemma braceClauses_of_none (h : Clause.parse? line = none) :
    braceClauses (steps + 1) ⟨above.reverse ++ line :: below, newline⟩ above.length =
      braceClauses steps ⟨(line :: above).reverse ++ below, newline⟩ (line :: above).length := by
  rw [braceClauses, if_pos (by simp), line?_reverse_append, Option.bind_some, parseClause_eq, h]
  simp

/-- At the header of a clause, a step has no fault: it joins the brace above the clause or not, and
closes the block. -/
lemma braceClauses_of_some {c : Clause} (h : Clause.parse? line = some c) :
    braceClauses (steps + 1) ⟨above.reverse ++ line :: below, newline⟩ above.length =
      match c.joinAbove above with
      | .error e => some (⟨above.reverse ++ line :: below, newline⟩, some e)
      | .ok (leading, kept) =>
        match c.render leading with
        | .error e => some (⟨kept.reverse ++ line :: below, newline⟩, some e)
        | .ok header =>
          braceClauses steps
            ⟨(header :: kept).reverse ++ (blockBody c.indent below ++
              closingLine c.indent :: blockRest c.indent below), newline⟩
            (header :: kept).length := by
  have hend := blockEnd_eq (Clause.isBlank_eq_false_of_parse? h) above.reverse below
  rw [List.length_reverse, ← Clause.indent_eq_of_parse? h] at hend
  rw [braceClauses, if_pos (by simp), line?_reverse_append, Option.bind_some, parseClause_eq, h,
    Option.bind_some]
  simp only [hend, Option.bind_some, joinRows_eq, unlessFailed_total]
  cases c.joinAbove above with
  | error e => rfl
  | ok joined =>
    obtain ⟨leading, kept⟩ := joined
    simp only [Functor.map, Except.map, renderClause_eq, unlessFailed_total]
    cases c.render leading with
    | error e => rfl
    | ok header =>
      -- The rows that are replaced are those of the header and of its block.
      have hbelow := blockBody_append_blockRest c.indent below
      have hrows := readRows_below kept.reverse line (blockBody c.indent below)
        (blockRest c.indent below)
      have hsplice := splice?_append newline kept.reverse line (blockBody c.indent below)
        (blockRest c.indent below) (header :: blockBody c.indent below ++ [closingLine c.indent])
      have hminus : minus (kept.length + (blockBody c.indent below).length) kept.length =
          some (blockBody c.indent below).length := by
        rw [Nat.add_comm, minus_add_right]
      rw [hbelow, List.length_reverse] at hrows hsplice
      dsimp only
      rw [hminus, Option.bind_some, hrows, Option.bind_some, hsplice]
      simp

end ClauseStep

/-- Clauses are braced without a fault: the finished lines stand above the row that is reached, and
each step leaves less to be gone through. -/
lemma braceClauses_eq (newline : Bool) {steps : Nat} (above : List Text) {below : List Text}
    (hsteps : pending Clause.isHeader below < steps) :
    braceClauses steps ⟨above.reverse ++ below, newline⟩ above.length =
      some (leave newline (Clause.braceFrom above below)) := by
  fun_induction Clause.braceFrom above below generalizing steps with
  | case1 above =>
    obtain ⟨steps, rfl⟩ := Nat.exists_eq_add_one_of_ne_zero (by omega : steps ≠ 0)
    rw [braceClauses, if_neg (by simp)]
    simp [leave]
  | case2 above line below hparse ih =>
    obtain ⟨steps, rfl⟩ := Nat.exists_eq_add_one_of_ne_zero (by omega : steps ≠ 0)
    have hlt := pending_tail_lt Clause.isHeader line below
    rw [braceClauses_of_none newline _ _ _ hparse, ih (by omega)]
  | case3 above line below c hparse e hjoin =>
    obtain ⟨steps, rfl⟩ := Nat.exists_eq_add_one_of_ne_zero (by omega : steps ≠ 0)
    rw [braceClauses_of_some newline _ _ _ hparse, hjoin]
    rfl
  | case4 above line below c hparse leading kept hjoin e hrender =>
    obtain ⟨steps, rfl⟩ := Nat.exists_eq_add_one_of_ne_zero (by omega : steps ≠ 0)
    simp only [braceClauses_of_some newline _ _ _ hparse, hjoin, hrender]
    rfl
  | case5 above line below c hparse leading kept hjoin header hrender body first last hlt =>
    rename_i ih
    obtain ⟨steps, rfl⟩ := Nat.exists_eq_add_one_of_ne_zero (by omega : steps ≠ 0)
    simp only [braceClauses_of_some newline _ _ _ hparse, hjoin, hrender]
    rw [ih (Nat.lt_of_lt_of_le hlt (Nat.le_of_lt_succ hsteps))]
    rfl

/-! ### Classes and functions -/

/-- Gives every declaration of the given sort from the row `i` on its form in the target, in at most
`steps` steps. -/
def braceDeclarations (kind : DeclarationKind) : (steps : Nat) → Buffer → (i : Nat) → Option Left
  | 0, _, _ => none
  | steps + 1, b, i =>
    if i < b.lines.length then
      (b.line? i).bind fun line => (parseDeclaration kind line).bind fun d? =>
        match d? with
        | none => braceDeclarations kind steps b (i + 1)
        | some d =>
          (blockEnd b.lines i).bind fun last =>
            (takeBlock b.lines i last d.indent).bind fun parts =>
              unlessFailed b (renderDeclaration d) fun header =>
                let replacement := parts.doc ++ header :: parts.body ++ [closingLine d.indent]
                (b.splice? i last replacement).bind fun spliced =>
                  braceDeclarations kind steps spliced.1 (i + parts.doc.length + 1)
    else some (b, none)

section DeclarationStep

variable (newline : Bool) (steps : Nat) (above below : List Text) {kind : DeclarationKind}
  {line : Text}

/-- A line that opens no declaration is passed over without a fault. -/
lemma braceDeclarations_of_none (h : Declaration.parse? kind line = none) :
    braceDeclarations kind (steps + 1) ⟨above ++ line :: below, newline⟩ above.length =
      braceDeclarations kind steps ⟨above ++ [line] ++ below, newline⟩
        (above ++ [line]).length := by
  rw [braceDeclarations, if_pos (by simp), line?_append, Option.bind_some, parseDeclaration_eq, h]
  simp

/-- At the header of a declaration, a step has no fault: it puts the documentation above the header
and closes the block. -/
lemma braceDeclarations_of_some {d : Declaration} (h : Declaration.parse? kind line = some d) :
    braceDeclarations kind (steps + 1) ⟨above ++ line :: below, newline⟩ above.length =
      match d.render with
      | .error e => some (⟨above ++ line :: below, newline⟩, some e)
      | .ok header =>
        let parts := BlockParts.ofBody d.indent (blockBody d.indent below)
        braceDeclarations kind steps
          ⟨above ++ (parts.doc ++ [header]) ++
            (parts.body ++ closingLine d.indent :: blockRest d.indent below), newline⟩
          (above ++ (parts.doc ++ [header])).length := by
  have hend := blockEnd_eq (Declaration.isBlank_eq_false_of_parse? h) above below
  rw [← Declaration.indent_eq_of_parse? h] at hend
  have hbelow := blockBody_append_blockRest d.indent below
  have hparts : takeBlock (above ++ line :: below) above.length
      (above.length + (blockBody d.indent below).length) d.indent =
        some (.ofBody d.indent (blockBody d.indent below)) := by
    have htake := takeBlock_eq (above ++ [line]) (blockBody d.indent below)
      (blockRest d.indent below) (by simp : above.length + 1 = _)
      (by simp; omega : above.length + (blockBody d.indent below).length + 1 = _) d.indent
    rwa [hbelow, List.append_assoc, List.singleton_append] at htake
  rw [braceDeclarations, if_pos (by simp), line?_append, Option.bind_some, parseDeclaration_eq, h,
    Option.bind_some]
  simp only [hend, hparts, Option.bind_some, renderDeclaration_eq, unlessFailed_total]
  cases d.render with
  | error e => rfl
  | ok header =>
    have hsplice := splice?_append newline above line (blockBody d.indent below)
      (blockRest d.indent below)
    rw [hbelow] at hsplice
    dsimp only
    rw [hsplice, Option.bind_some]
    simp [Nat.add_assoc]

end DeclarationStep

/-- Declarations are braced without a fault: the finished lines stand above the row that is reached,
and each step leaves less to be gone through. -/
lemma braceDeclarations_eq (newline : Bool) {kind : DeclarationKind} {steps row : Nat}
    (above : List Text) {below : List Text}
    (hsteps : pending (Declaration.isHeader kind) below < steps) :
    braceDeclarations kind steps ⟨above ++ below, newline⟩ above.length =
      some (leave newline ((Declaration.braceFrom kind row below).after above [])) := by
  fun_induction Declaration.braceFrom kind row below generalizing above steps with
  | case1 row =>
    obtain ⟨steps, rfl⟩ := Nat.exists_eq_add_one_of_ne_zero (by omega : steps ≠ 0)
    rw [braceDeclarations, if_neg (by simp)]
    rfl
  | case2 row line below hparse ih =>
    obtain ⟨steps, rfl⟩ := Nat.exists_eq_add_one_of_ne_zero (by omega : steps ≠ 0)
    have hlt := pending_tail_lt (Declaration.isHeader kind) line below
    rw [braceDeclarations_of_none newline _ _ _ hparse, ih _ (by omega)]
    simp [leave, Outcome.after]
  | case3 row line below d hparse e hrender =>
    obtain ⟨steps, rfl⟩ := Nat.exists_eq_add_one_of_ne_zero (by omega : steps ≠ 0)
    rw [braceDeclarations_of_some newline _ _ _ hparse, hrender]
    rfl
  | case4 row line below d hparse body parts header hrender last =>
    rename_i hlt ih
    obtain ⟨steps, rfl⟩ := Nat.exists_eq_add_one_of_ne_zero (by omega : steps ≠ 0)
    rw [braceDeclarations_of_some newline _ _ _ hparse, hrender]
    dsimp only
    rw [ih _ (Nat.lt_of_lt_of_le hlt (Nat.le_of_lt_succ hsteps))]
    simp [leave, Outcome.after, parts, body]

/-! ### Passes -/

/-- A pass over a buffer. -/
def runPass (limit : Nat) (widths : Widths) (b : Buffer) : Pass → Option Left
  | .classes => braceDeclarations .classes (2 * b.lines.length + 1) b 0
  | .functions => braceDeclarations .functions (2 * b.lines.length + 1) b 0
  | .lexical => (b.lines.mapM convertLexical).map fun lines => ({ b with lines }, none)
  | .controlFlow => braceClauses (2 * b.lines.length + 1) b 0
  | .indentation =>
    (b.lines.mapM (rescaleIndent limit widths.source widths.target)).map
      fun lines => ({ b with lines }, none)
  | .comments => some (b.mapLines slashComments, none)

/-- A pass over headers takes at most two steps for each line. -/
lemma pending_lt (isHeader : Text → Bool) (lines : List Text) :
    pending isHeader lines < 2 * lines.length + 1 := by
  have hcount := List.countP_le_length (p := isHeader) (l := lines)
  unfold pending
  omega

/-- The levels of all lines that a pass rescales fit. -/
def PassFits (limit : Nat) (widths : Widths) (lines : List Text) (pass : Pass) : Prop :=
  pass = .indentation → ∀ line ∈ lines, LevelsFit limit widths line

/-- There is no fault in a pass over any lines, and it leaves what it should. -/
lemma runPass_eq {limit : Nat} {widths : Widths} {lines : List Text} {pass : Pass}
    (hfits : PassFits limit widths lines pass) (newline : Bool) :
    runPass limit widths ⟨lines, newline⟩ pass = some (leave newline (pass.run widths lines)) := by
  have hdeclarations : ∀ kind, braceDeclarations kind (2 * lines.length + 1) ⟨lines, newline⟩ 0 =
      some (leave newline (Declaration.brace kind lines)) := by
    intro kind
    exact braceDeclarations_eq newline [] (pending_lt _ lines)
  cases pass with
  | classes => exact hdeclarations .classes
  | functions => exact hdeclarations .functions
  | lexical =>
    rw [runPass, mapM_eq_some fun line _ => convertLexical_eq line]
    rfl
  | controlFlow =>
    exact braceClauses_eq newline [] (pending_lt _ lines)
  | indentation =>
    rw [runPass, mapM_eq_some fun line hline => rescaleIndent_eq (hfits rfl line hline)]
    rfl
  | comments => rfl

/-! ### Sequences of passes -/

/-- Some passes over a buffer, each with widths of its own, and each over what the one before it
left, also when that one failed. -/
def runEach (limit : Nat) (b : Buffer) :
    List (Widths × Pass) → Option (Buffer × List (Option Error))
  | [] => some (b, [])
  | (widths, pass) :: steps =>
    (runPass limit widths b pass).bind fun left =>
      (runEach limit left.1 steps).map fun rest => (rest.1, left.2 :: rest.2)

/-- Some passes over a buffer, until one fails. -/
def runAll (limit : Nat) (widths : Widths) (b : Buffer) : List Pass → Option Left
  | [] => some (b, none)
  | pass :: passes =>
    (runPass limit widths b pass).bind fun left =>
      match left.2 with
      | some _ => some left
      | none => runAll limit widths left.1 passes

/-- The converted source. -/
def convert (limit : Nat) (widths : Widths) (source : Text) : Checked Text :=
  (runAll limit widths (Buffer.ofSource source) Pass.order).map fun left =>
    match left.2 with
    | some e => .error e
    | none => .ok left.1.toSource

end Rebrace.Positional

namespace Rebrace.Pass

/-- What some passes leave, each with widths of its own and over the lines that the one before it
left, and their failures. -/
def runEach (lines : List Text) : List (Widths × Pass) → List Text × List (Option Error)
  | [] => (lines, [])
  | (widths, pass) :: steps =>
    let outcome := pass.run widths lines
    let rest := runEach outcome.lines steps
    (rest.1, outcome.failure? :: rest.2)

end Rebrace.Pass

namespace Rebrace.Positional

/-- The levels of all lines that some passes rescale fit. -/
def StepsFit (limit : Nat) : List Text → List (Widths × Pass) → Prop
  | _, [] => True
  | lines, (widths, pass) :: steps =>
    PassFits limit widths lines pass ∧ StepsFit limit (pass.run widths lines).lines steps

instance (limit : Nat) (widths : Widths) (lines : List Text) (pass : Pass) :
    Decidable (PassFits limit widths lines pass) :=
  inferInstanceAs (Decidable (pass = .indentation → ∀ line ∈ lines, LevelsFit limit widths line))

instance decidableStepsFit (limit : Nat) :
    (lines : List Text) → (steps : List (Widths × Pass)) → Decidable (StepsFit limit lines steps)
  | _, [] => .isTrue trivial
  | lines, (widths, pass) :: steps =>
    have := decidableStepsFit limit (pass.run widths lines).lines steps
    inferInstanceAs (Decidable (PassFits limit widths lines pass ∧ _))

/-- The lines that reach the pass over the indentation of a source, if no pass before it fails. -/
def indentedLines (widths : Widths) (source : Text) : Except Error (List Text) :=
  (Pass.runAll widths (Buffer.ofSource source).lines
    [.classes, .functions, .lexical, .controlFlow]).result

/-- There is no fault in some passes over any lines. -/
lemma runEach_eq {limit : Nat} {lines : List Text} {steps : List (Widths × Pass)}
    (hfits : StepsFit limit lines steps) (newline : Bool) :
    runEach limit ⟨lines, newline⟩ steps =
      some (⟨(Pass.runEach lines steps).1, newline⟩, (Pass.runEach lines steps).2) := by
  induction steps generalizing lines with
  | nil => rfl
  | cons step steps ih =>
    obtain ⟨widths, pass⟩ := step
    rw [runEach, runPass_eq hfits.1, Option.bind_some]
    simp only [leave, ih hfits.2, Option.map_some]
    rfl

/-- There is no fault in some passes until one fails, if the levels of the lines fit that reach a
pass over the indentation. -/
lemma runAll_eq {limit : Nat} {widths : Widths} {lines : List Text} {passes : List Pass}
    (hfits : ∀ before after, passes = before ++ .indentation :: after →
      ∀ reached, (Pass.runAll widths lines before).result = .ok reached →
        ∀ line ∈ reached, LevelsFit limit widths line) (newline : Bool) :
    runAll limit widths ⟨lines, newline⟩ passes =
      some (leave newline (Pass.runAll widths lines passes)) := by
  induction passes generalizing lines with
  | nil => rfl
  | cons pass passes ih =>
    have hpass : PassFits limit widths lines pass := by
      rintro rfl
      exact hfits [] passes rfl lines rfl
    rw [runAll, runPass_eq hpass, Option.bind_some, Pass.runAll]
    cases hfailure : (pass.run widths lines).failure? with
    | some e => simp only [leave, hfailure]
    | none =>
      have hresult : (pass.run widths lines).result = .ok (pass.run widths lines).lines := by
        rw [Outcome.result, hfailure]
      have hrest : runAll limit widths ⟨(pass.run widths lines).lines, newline⟩ passes =
          some (leave newline (Pass.runAll widths (pass.run widths lines).lines passes)) := by
        refine ih fun before after hpasses reached hreached => ?_
        refine hfits (pass :: before) after (congrArg (pass :: ·) hpasses) reached ?_
        rw [Pass.result_runAll_cons, hresult]
        exact hreached
      simp only [leave, hfailure, hrest, Outcome.after]
      rfl

/-- There is no fault in the conversion of a source, if the levels of the lines fit that reach the
pass over the indentation. -/
lemma convert_eq {limit : Nat} {widths : Widths} {source : Text}
    (hfits : ∀ reached, indentedLines widths source = .ok reached →
      ∀ line ∈ reached, LevelsFit limit widths line) :
    (convert limit widths source).run = some (Rebrace.convert widths source) := by
  have hall : runAll limit widths (Buffer.ofSource source) Pass.order =
      some (leave (Buffer.ofSource source).newlineAtEnd
        (Pass.runAll widths (Buffer.ofSource source).lines Pass.order)) := by
    refine runAll_eq (fun before after horder => ?_) _
    obtain ⟨rfl, -⟩ : [.classes, .functions, .lexical, .controlFlow] = before ∧ _ :=
      (List.append_cons_inj_of_notMem (by decide) (by decide)).1 horder
    exact hfits
  rw [convert, hall, Rebrace.convert, Conversion.run]
  obtain ⟨lines, failure?, events⟩ := Pass.runAll widths (Buffer.ofSource source).lines Pass.order
  cases failure? <;> rfl

end Rebrace.Positional
