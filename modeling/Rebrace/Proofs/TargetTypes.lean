import Mathlib.Data.List.Basic
import Mathlib.Data.Quot
import Rebrace.Proofs.TypeSyntax

/-!
# Types of the target

`Target` is the syntax of the types that annotations are translated into, and `TypeTree.denote` says
which of them a tree stands for, without a look at any text.  Unions are sets: nothing depends on
the order of members, on how often a member is given or on how unions are nested, and a union of one
member is this member.  These laws are `Target.Law`, and a `TargetType` is a type up to them.
-/

namespace Rebrace

open Text

/-- A type of the target, as it is written. -/
inductive Target where
  /-- A name. -/
  | named (name : Text)
  /-- A name applied to arguments. -/
  | apply (name : Text) (args : List Target)
  /-- A tuple. -/
  | tuple (items : List Target)
  /-- A function type. -/
  | function (params : List Target) (result : Target)
  /-- The type of the functions that take any arguments. -/
  | anyFunction (result : Target)
  /-- A union. -/
  | union (members : List Target)

namespace Target

/-- The laws of unions, which hold inside of types too. -/
inductive Law : Target → Target → Prop
  /-- A union inside of a union. -/
  | flatten (before inner after : List Target) :
    Law (union (before ++ union inner :: after)) (union (before ++ inner ++ after))
  /-- A union of one member. -/
  | single (a : Target) : Law (union [a]) a
  /-- The members of a union are a set. -/
  | members {as bs : List Target} (h : ∀ a, a ∈ as ↔ a ∈ bs) : Law (union as) (union bs)
  /-- A law inside of a member. -/
  | member {before after : List Target} {a b : Target} (h : Law a b) :
    Law (union (before ++ a :: after)) (union (before ++ b :: after))
  /-- A law inside of an argument. -/
  | arg {name : Text} {before after : List Target} {a b : Target} (h : Law a b) :
    Law (apply name (before ++ a :: after)) (apply name (before ++ b :: after))
  /-- A law inside of an item of a tuple. -/
  | item {before after : List Target} {a b : Target} (h : Law a b) :
    Law (tuple (before ++ a :: after)) (tuple (before ++ b :: after))
  /-- A law inside of a parameter. -/
  | param {before after : List Target} {result a b : Target} (h : Law a b) :
    Law (function (before ++ a :: after) result) (function (before ++ b :: after) result)
  /-- A law inside of the result of a function. -/
  | result {params : List Target} {a b : Target} (h : Law a b) :
    Law (function params a) (function params b)
  /-- A law inside of the result of a function that takes any arguments. -/
  | anyResult {a b : Target} (h : Law a b) : Law (anyFunction a) (anyFunction b)

end Target

/-- A type of the target up to the laws of unions. -/
def TargetType : Type :=
  Quot Target.Law

namespace Target

/-- The type that is written. -/
def type (a : Target) : TargetType :=
  Quot.mk Law a

/-- A function on types as they are written that keeps the laws keeps the types. -/
lemma type_congr {f : Target → Target} (hf : ∀ {a b}, Law a b → Law (f a) (f b)) {a b : Target}
    (h : a.type = b.type) : (f a).type = (f b).type :=
  congrArg (Quot.map f fun _ _ => hf) h

/-- The same for several types in a row. -/
lemma type_congr_list {f : List Target → Target}
    (hf : ∀ {before after : List Target} {a b : Target}, Law a b →
      Law (f (before ++ a :: after)) (f (before ++ b :: after)))
    {as bs : List Target} (h : List.Forall₂ (fun a b => a.type = b.type) as bs) :
    (f as).type = (f bs).type := by
  -- The types in front have been replaced already.
  have hall : ∀ before : List Target, (f (before ++ as)).type = (f (before ++ bs)).type := by
    induction h with
    | nil => exact fun before => rfl
    | @cons a b as bs hab _ ih =>
      intro before
      have hfirst : (f (before ++ a :: as)).type = (f (before ++ b :: as)).type :=
        type_congr (f := fun x => f (before ++ x :: as)) hf hab
      have hrest := ih (before ++ [b])
      rw [List.append_assoc, List.append_assoc] at hrest
      exact hfirst.trans hrest
  exact hall []

/-- A union with several unions in it. -/
lemma type_union_map_union (ms : List (List Target)) :
    (union (ms.map union)).type = (union ms.flatten).type := by
  -- The members in front have been flattened already.
  have hall : ∀ before : List Target,
      (union (before ++ ms.map union)).type = (union (before ++ ms.flatten)).type := by
    induction ms with
    | nil => exact fun before => rfl
    | cons m ms ih =>
      intro before
      have hfirst : (union (before ++ union m :: ms.map union)).type =
          (union (before ++ m ++ ms.map union)).type := Quot.sound (Law.flatten before m _)
      have hrest := ih (before ++ m)
      rw [List.append_assoc before m ms.flatten] at hrest
      exact hfirst.trans hrest
  exact hall []

mutual

/-- Is the name one of the alternatives of a type? -/
def offers (name : Text) : Target → Bool
  | named other => other == name
  | union members => anyOffers name members
  | apply _ _ | tuple _ | function _ _ | anyFunction _ => false

/-- Is the name one of the alternatives of some of the types? -/
def anyOffers (name : Text) : List Target → Bool
  | [] => false
  | a :: as => offers name a || anyOffers name as

end

lemma anyOffers_eq_any (name : Text) (as : List Target) :
    anyOffers name as = as.any (offers name) := by
  induction as with
  | nil => rfl
  | cons a as ih => rw [anyOffers, ih, List.any_cons]

/-- Which names a type offers does not depend on how it is written. -/
lemma offers_eq_of_law {name : Text} {a b : Target} (h : Law a b) :
    offers name a = offers name b := by
  induction h with
  | flatten before inner after => simp [offers, anyOffers_eq_any]
  | single a => simp [offers, anyOffers]
  | @members as bs h =>
    rw [offers, offers, anyOffers_eq_any, anyOffers_eq_any, Bool.eq_iff_iff, List.any_eq_true,
      List.any_eq_true]
    simp only [h]
  | member h ih => simp [offers, anyOffers_eq_any, ih]
  | arg | item | param | result | anyResult => rfl

/-- Types that offer different names are different. -/
lemma type_ne_of_offers {name : Text} {a b : Target} (h : offers name a ≠ offers name b) :
    a.type ≠ b.type := by
  intro htype
  exact h (congrArg (Quot.lift (offers name) fun _ _ => offers_eq_of_law) htype)

end Target

/-! ### The types of annotations -/

/-- The type in the target, for arguments in the target. -/
def TypeHead.denote (args : List Target) : TypeHead → Target
  | union => .union args
  | optional => .union (args ++ [.named "null"])
  | sequence _ => .apply "Array" args
  | mapping _ => .apply "Map" args
  | iterator => .apply "Iterator" args
  | iterable => .apply "Iterable" args
  | tuple _ => .tuple args
  | generic name => .apply name args

namespace TypeTree

mutual

/-- The type in the target that a tree stands for. -/
def denote (place : Place) : TypeTree → Target
  | primitive name => .named ((lookup? Shape.primitives name).getD name)
  | named name => .named name
  | absent =>
    match place with
    | .result => .named "void"
    | .value => .named "null"
  | bars members => .union (denoteAll members)
  | apply head args => head.denote (denoteAll args)
  | repeated _ item => .apply "Array" [denote .value item]
  | function params result => .function (denoteAll params) (denote .result result)
  | anyFunction result => .anyFunction (denote .result result)

/-- The types in the target that trees stand for, each of them for values. -/
def denoteAll : List TypeTree → List Target
  | [] => []
  | t :: ts => denote .value t :: denoteAll ts

end

/-- What a tree stands for as the type of a value. -/
def meaning (t : TypeTree) : TargetType :=
  (t.denote .value).type

lemma denoteAll_eq_map (ts : List TypeTree) : denoteAll ts = ts.map (denote .value) := by
  induction ts with
  | nil => rfl
  | cons t ts ih => rw [denoteAll, ih, List.map_cons]

/-! ### Function types in unions -/

mutual

/-- Does the form in the target end with the result of a function type?  A bar that follows belongs
to this result then. -/
def endsInResult : TypeTree → Bool
  | function _ _ | anyFunction _ => true
  | bars members | apply .union members => lastEndsInResult members
  | _ => false

/-- Does the form of the last tree in the target end with the result of a function type? -/
def lastEndsInResult : List TypeTree → Bool
  | [] => false
  | [t] => endsInResult t
  | _ :: ts => lastEndsInResult ts

end

/-- Do no bars follow results of function types where the trees are members of a union? -/
def areSeparate (members : List TypeTree) : Bool :=
  members.dropLast.all (!·.endsInResult)

/-- Do no bars follow results of function types where the trees are arguments of a name? -/
def areSeparateIn (args : List TypeTree) : TypeHead → Bool
  | .union => areSeparate args
  | .optional => args.all (!·.endsInResult)
  | .sequence _ | .mapping _ | .iterator | .iterable | .tuple _ | .generic _ => true

mutual

/-- Do no bars follow results of function types? -/
def isUnambiguous : TypeTree → Bool
  | primitive _ | absent | named _ => true
  | bars members => areSeparate members && areUnambiguous members
  | apply head args => areSeparateIn args head && areUnambiguous args
  | repeated _ item => isUnambiguous item
  | function params result => areUnambiguous params && isUnambiguous result
  | anyFunction result => isUnambiguous result

/-- Do no bars follow results of function types in the trees? -/
def areUnambiguous : List TypeTree → Bool
  | [] => true
  | t :: ts => isUnambiguous t && areUnambiguous ts

end

lemma areUnambiguous_iff {ts : List TypeTree} :
    areUnambiguous ts = true ↔ ∀ t ∈ ts, isUnambiguous t = true := by
  induction ts with
  | nil => simp [areUnambiguous]
  | cons t ts ih => simp [areUnambiguous, ih]

end TypeTree

end Rebrace
