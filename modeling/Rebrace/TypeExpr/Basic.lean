import Rebrace.TypeExpr.Shape

/-!
# Type expressions

A type expression is a tree.  Reading one takes its shape and reads the parts; writing one follows
the tree.  A function type has its result read before its parameters, so that of two faulty parts
the result is the one reported.
-/

namespace Rebrace

open Text

/-- A type expression. -/
inductive TypeExpr where
  /-- A name with a fixed spelling in the target. -/
  | primitive (target : Text)
  /-- The type of no value. -/
  | absent
  /-- One of several types. -/
  | union (members : List TypeExpr)
  /-- A type or no value. -/
  | optional (item : TypeExpr)
  /-- A sequence of items. -/
  | sequence (item : TypeExpr)
  /-- A mapping from keys to values. -/
  | mapping (key value : TypeExpr)
  /-- An iterator over items. -/
  | iterator (item : TypeExpr)
  /-- Something that can be iterated over. -/
  | iterable (item : TypeExpr)
  /-- A tuple of given length. -/
  | tuple (items : List TypeExpr)
  /-- A tuple of any length with equal items. -/
  | uniformTuple (item : TypeExpr)
  /-- A function type. -/
  | function (params : List TypeExpr) (result : TypeExpr)
  /-- A function type with any parameters. -/
  | anyFunction (result : TypeExpr)
  /-- Any other name applied to arguments. -/
  | generic (name : Text) (args : List TypeExpr)
  /-- Any other name. -/
  | named (name : Text)

/-- Where a type annotation stands: `None` is `void` as a result and `null` as a value. -/
inductive Place where
  /-- The result of a function. -/
  | result
  /-- Anywhere else. -/
  | value
  deriving DecidableEq

namespace TypeExpr

/-! ### Reading -/

/-- The tree of a type expression. -/
def parse (expr : Text) : Except Error TypeExpr :=
  match h : Shape.classify expr with
  | .error e => .error e
  | .ok (.primitive target) => .ok (primitive target)
  | .ok .absent => .ok absent
  | .ok (.union members) =>
    union <$> members.attach.mapM fun member =>
      have := Shape.length_lt_of_mem_parts h member.property
      parse member.val
  | .ok (.optional item) =>
    have := Shape.length_lt_of_mem_parts h (List.mem_singleton.2 rfl)
    optional <$> parse item
  | .ok (.sequence item) =>
    have := Shape.length_lt_of_mem_parts h (List.mem_singleton.2 rfl)
    sequence <$> parse item
  | .ok (.mapping key value) => do
    have := Shape.length_lt_of_mem_parts h List.mem_cons_self
    have := Shape.length_lt_of_mem_parts h (List.mem_cons_of_mem _ List.mem_cons_self)
    let k ← parse key
    let v ← parse value
    return mapping k v
  | .ok (.iterator item) =>
    have := Shape.length_lt_of_mem_parts h (List.mem_singleton.2 rfl)
    iterator <$> parse item
  | .ok (.iterable item) =>
    have := Shape.length_lt_of_mem_parts h (List.mem_singleton.2 rfl)
    iterable <$> parse item
  | .ok (.tuple items) =>
    tuple <$> items.attach.mapM fun item =>
      have := Shape.length_lt_of_mem_parts h item.property
      parse item.val
  | .ok (.uniformTuple item) =>
    have := Shape.length_lt_of_mem_parts h (List.mem_singleton.2 rfl)
    uniformTuple <$> parse item
  | .ok (.function params result) => do
    have := Shape.length_lt_of_mem_parts h List.mem_cons_self
    let r ← parse result
    let ps ← params.attach.mapM fun param =>
      have := Shape.length_lt_of_mem_parts h (List.mem_cons_of_mem _ param.property)
      parse param.val
    return function ps r
  | .ok (.anyFunction result) =>
    have := Shape.length_lt_of_mem_parts h (List.mem_singleton.2 rfl)
    anyFunction <$> parse result
  | .ok (.generic name args) =>
    generic name <$> args.attach.mapM fun arg =>
      have := Shape.length_lt_of_mem_parts h arg.property
      parse arg.val
  | .ok (.named name) => .ok (named name)
termination_by expr.length

/-! ### Writing -/

/-- A name applied to type arguments in the target. -/
def apply (name : Text) (args : List Text) : Text :=
  name ++ "<" ++ join ", " args ++ ">"

/-- The parameters of a function type in the target, named `p1`, `p2` and so on. -/
def numberParams (types : List Text) : List Text :=
  types.mapIdx fun i type => "p" ++ decimal (i + 1) ++ ": " ++ type

mutual

/-- A type expression in the target. Parts stand for values, except for the result of a function
type. A union names each of its members once, at the first place where it occurs. -/
def render (place : Place) : TypeExpr → Text
  | primitive target => target
  | absent =>
    match place with
    | .result => "void"
    | .value => "null"
  | union members => join " | " (renderAll members).eraseDups
  | optional item => render .value item ++ " | null"
  | sequence item => apply "Array" [render .value item]
  | mapping key value => apply "Map" [render .value key, render .value value]
  | iterator item => apply "Iterator" [render .value item]
  | iterable item => apply "Iterable" [render .value item]
  | tuple items => "[" ++ join ", " (renderAll items) ++ "]"
  | uniformTuple item => apply "Array" [render .value item]
  | function params result =>
    "(" ++ join ", " (numberParams (renderAll params)) ++ ") => " ++ render .result result
  | anyFunction result => "(...args: any[]) => " ++ render .result result
  | generic name args => apply name (renderAll args)
  | named name => name

/-- Type expressions in the target, each standing for a value. -/
def renderAll : List TypeExpr → List Text
  | [] => []
  | e :: es => render .value e :: renderAll es

end

theorem renderAll_eq_map (es : List TypeExpr) : renderAll es = es.map (render .value) := by
  induction es with
  | nil => rfl
  | cons e es ih => simp [renderAll, ih]

/-- The target form of the type expression `expr` at `place`. -/
def convert (place : Place) (expr : Text) : Except Error Text :=
  render place <$> parse expr

end TypeExpr

end Rebrace
