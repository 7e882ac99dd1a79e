import Rebrace.Block

/-!
# Documentation

A block may start with a triple-quoted text.  It is lifted out of the block, together with the blank
lines around it, and becomes a comment above the header: the quotes are erased, the lines lose their
common indentation, and blank lines at both ends are dropped.
-/

namespace Rebrace

open Text

/-! ### The comment -/

/-- The two delimiters of a documentation text. -/
def docDelimiters : List Text :=
  ["\x22\x22\x22", "\x27\x27\x27"]

/-- A line without the delimiters in it. -/
def eraseDelimiters (line : Text) : Text :=
  docDelimiters.foldl (fun t delimiter => erase delimiter t) line

/-- The smallest indentation of the lines that are not blank. -/
def commonIndent (lines : List Text) : Nat :=
  ((lines.filter fun line => !isBlank line).map leadingSpaces).min?.getD 0

/-- The lines of a documentation text without delimiters, common indentation and blank ends. -/
def docContent (raw : List Text) : List Text :=
  let lines := raw.map eraseDelimiters
  dropBlankEnd ((lines.map (·.drop (commonIndent lines))).dropWhile isBlank)

/-- A line of a comment that is indented by `indent` spaces. -/
def docLine (indent : Nat) (line : Text) : Text :=
  if isBlank line then spaces indent ++ " *" else spaces indent ++ " * " ++ trimEnd line

/-- The comment for the lines of a documentation text; none if the text is blank. -/
def docComment (indent : Nat) (raw : List Text) : List Text :=
  match docContent raw with
  | [] => []
  | content =>
    (spaces indent ++ "/**") :: content.map (docLine indent) ++ [spaces indent ++ " */"]

/-! ### Lifting documentation out of a block -/

/-- The documentation text that a block starts with, and the lines of the block below it. The text
ends where its delimiter occurs again, on the same line or on a later one. -/
def liftDoc? (body : List Text) : Option (List Text × List Text) :=
  match body.dropWhile isBlank with
  | [] => none
  | first :: more =>
    let start := trimStart first
    match docDelimiters.find? (startsWith · start) with
    | none => none
    | some delimiter =>
      if contains delimiter (start.drop delimiter.length) then
        some ([first], more.dropWhile isBlank)
      else
        match more.dropWhile fun line => !contains delimiter line with
        | [] => none
        | last :: rest =>
          some (first :: (more.takeWhile fun line => !contains delimiter line) ++ [last],
            rest.dropWhile isBlank)

/-- A block with its documentation apart. -/
structure BlockParts where
  /-- The lines of the comment. -/
  doc : List Text
  /-- The lines of the block that remain. -/
  body : List Text
  deriving DecidableEq

/-- A block with its documentation, if it has one, as a comment indented by `indent` spaces. -/
def BlockParts.ofBody (indent : Nat) (body : List Text) : BlockParts :=
  match liftDoc? body with
  | some (raw, rest) => ⟨docComment indent raw, rest⟩
  | none => ⟨[], body⟩

/-- What remains of a block is its end. -/
theorem suffix_of_liftDoc? {body raw rest : List Text} (h : liftDoc? body = some (raw, rest)) :
    rest <:+ body := by
  unfold liftDoc? at h
  split at h
  · simp at h
  · rename_i first more hbody
    have hmore : more <:+ body :=
      (List.suffix_cons first more).trans (hbody ▸ List.dropWhile_suffix isBlank)
    simp only at h
    split at h
    · simp at h
    · split at h
      · simp only [Option.some.injEq, Prod.mk.injEq] at h
        exact h.2 ▸ (List.dropWhile_suffix _).trans hmore
      · split at h
        · simp at h
        · rename_i last tail htail
          simp only [Option.some.injEq, Prod.mk.injEq] at h
          have hlast : tail <:+ more :=
            (List.suffix_cons last tail).trans (htail ▸ List.dropWhile_suffix _)
          exact h.2 ▸ (List.dropWhile_suffix _).trans (hlast.trans hmore)

theorem BlockParts.body_suffix (indent : Nat) (body : List Text) :
    (BlockParts.ofBody indent body).body <:+ body := by
  unfold BlockParts.ofBody
  split
  · rename_i h
    exact suffix_of_liftDoc? h
  · exact List.suffix_rfl

end Rebrace
