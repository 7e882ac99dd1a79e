import Mathlib.Data.List.Basic
import Rebrace.Proofs.Headers
import Rebrace.Proofs.Scanning
import Rebrace.TypeExpr.Basic

/-!
# Trees of type annotations

`TypeTree` is the syntax of type annotations as a tree, `TypeTree.print` writes such a tree down,
and `TypeTree.target` says what its form in the target is, by recursion on the tree.  Not every tree
is the tree of an annotation: `isWellFormed` asks for proper names and for enough members and
arguments.  A well-formed tree may still apply a name to a wrong number of arguments, which
`isArityCorrect` excludes.

The text of a tree is `Sealed`: only square brackets occur in it, each with its partner, and commas
occur only between them.
-/

namespace Rebrace

open Text

/-! ### Names -/

/-- Can the character stand in a name?  Beyond ASCII this is more than the letters. -/
def isIdentifierChar (c : Char) : Bool :=
  isNameChar c || (128 ≤ c.toNat && !isWhite c)

/-- Is the text a name, perhaps with dots behind its first character? -/
def isDotted : Text → Bool
  | [] => false
  | c :: t => isIdentifierChar c && t.all fun d => isIdentifierChar d || d == '.'

/-- A name applied to arguments in square brackets. -/
def application (name : Text) (args : List Text) : Text :=
  name ++ "[" ++ join ", " args ++ "]"

/-- A name applied to arguments in the target. -/
def targetApplication (name : Text) (args : List Text) : Text :=
  name ++ "<" ++ join ", " args ++ ">"

/-- A function type in the target. -/
def targetFunction (params result : Text) : Text :=
  "(" ++ params ++ ") => " ++ result

/-! ### Names that are applied to arguments -/

/-- A name that is applied to arguments in square brackets. -/
inductive TypeHead where
  /-- `Union`. -/
  | union
  /-- `Optional`. -/
  | optional
  /-- `List` and its other spellings. -/
  | sequence (name : Text)
  /-- `Dict` and its other spellings. -/
  | mapping (name : Text)
  /-- `Iterator`. -/
  | iterator
  /-- `Iterable`. -/
  | iterable
  /-- `Tuple` and its other spelling. -/
  | tuple (name : Text)
  /-- Any other name. -/
  | generic (name : Text)
  deriving DecidableEq

namespace TypeHead

/-- The spellings for sequences. -/
def sequenceNames : List Text := ["List", "list", "Sequence"]

/-- The spellings for mappings. -/
def mappingNames : List Text := ["Mapping", "Dict", "dict"]

/-- The spellings for tuples. -/
def tupleNames : List Text := ["Tuple", "tuple"]

/-- The names with a meaning of their own when they are applied. -/
def reservedNames : List Text :=
  sequenceNames ++ mappingNames ++ tupleNames
    ++ (["Union", "Optional", "Iterator", "Iterable", "Callable"] : List Text)

/-- The name itself. -/
def name : TypeHead → Text
  | union => "Union"
  | optional => "Optional"
  | iterator => "Iterator"
  | iterable => "Iterable"
  | sequence name | mapping name | tuple name | generic name => name

/-- The number of arguments that the name has to be applied to, if there is such a number. -/
def arity? : TypeHead → Option Nat
  | optional | sequence _ | iterator | iterable => some 1
  | mapping _ => some 2
  | union | tuple _ | generic _ => none

/-- Is the name proper, and are there arguments where there have to be some? -/
def admits (args : Nat) : TypeHead → Bool
  | optional | iterator | iterable => true
  | union => 0 < args
  | sequence name => sequenceNames.contains name
  | mapping name => mappingNames.contains name
  | tuple name => tupleNames.contains name && 0 < args
  | generic name => isDotted name && !reservedNames.contains name && 0 < args

/-- The form in the target, for arguments in the target. -/
def target (args : List Text) : TypeHead → Text
  | union => join " | " args.eraseDups
  | optional => join " | " args ++ " | null"
  | sequence _ => targetApplication "Array" args
  | mapping _ => targetApplication "Map" args
  | iterator => targetApplication "Iterator" args
  | iterable => targetApplication "Iterable" args
  | tuple _ => "[" ++ join ", " args ++ "]"
  | generic name => targetApplication name args

end TypeHead

/-! ### Trees -/

/-- The tree of a type annotation. -/
inductive TypeTree where
  /-- A name with a fixed spelling in the target. -/
  | primitive (name : Text)
  /-- `None`. -/
  | absent
  /-- Any other name. -/
  | named (name : Text)
  /-- `A | B` and so on. -/
  | bars (members : List TypeTree)
  /-- A name applied to arguments. -/
  | apply (head : TypeHead) (args : List TypeTree)
  /-- `Tuple[T, ...]`. -/
  | repeated (name : Text) (item : TypeTree)
  /-- `Callable[[A, B], R]`. -/
  | function (params : List TypeTree) (result : TypeTree)
  /-- `Callable[..., R]`. -/
  | anyFunction (result : TypeTree)

namespace TypeTree

/-- Is the tree made of members between bars? -/
def isBars : TypeTree → Bool
  | bars _ => true
  | _ => false

mutual

/-- The text of a tree. -/
def print : TypeTree → Text
  | primitive name | named name => name
  | absent => "None"
  | bars members => join " | " (printAll members)
  | apply head args => application head.name (printAll args)
  | repeated name item => application name [print item, "..."]
  | function params result =>
    application "Callable" [application [] (printAll params), print result]
  | anyFunction result => application "Callable" ["...", print result]

/-- The texts of trees. -/
def printAll : List TypeTree → List Text
  | [] => []
  | t :: ts => print t :: printAll ts

end

mutual

/-- Is the tree that of an annotation, up to the numbers of arguments? -/
def isWellFormed : TypeTree → Bool
  | primitive name => (lookup? Shape.primitives name).isSome
  | absent => true
  | named name => isDotted name && (lookup? Shape.primitives name).isNone && name != "None".toList
  | bars members => 2 ≤ members.length && members.all (!·.isBars) && areWellFormed members
  | apply head args => head.admits args.length && areWellFormed args
  | repeated name item => TypeHead.tupleNames.contains name && isWellFormed item
  | function params result => areWellFormed params && isWellFormed result
  | anyFunction result => isWellFormed result

/-- Are all trees well formed? -/
def areWellFormed : List TypeTree → Bool
  | [] => true
  | t :: ts => isWellFormed t && areWellFormed ts

end

mutual

/-- Is every name applied to the number of arguments that it needs? -/
def isArityCorrect : TypeTree → Bool
  | primitive _ | absent | named _ => true
  | bars members => areArityCorrect members
  | apply head args => head.arity?.all (· == args.length) && areArityCorrect args
  | repeated _ item => isArityCorrect item
  | function params result => areArityCorrect params && isArityCorrect result
  | anyFunction result => isArityCorrect result

/-- Is every name in the trees applied to the number of arguments that it needs? -/
def areArityCorrect : List TypeTree → Bool
  | [] => true
  | t :: ts => isArityCorrect t && areArityCorrect ts

end

/-- The parameters of a function type in the target, numbered from `first` on. -/
def numberFrom (first : Nat) : List Text → List Text
  | [] => []
  | type :: types => ("p" ++ decimal first ++ ": " ++ type) :: numberFrom (first + 1) types

mutual

/-- The form of a tree in the target.  Only the result of a function type is a result; everything
else stands for values. -/
def target (place : Place) : TypeTree → Text
  | primitive name => (lookup? Shape.primitives name).getD name
  | named name => name
  | absent =>
    match place with
    | .result => "void"
    | .value => "null"
  | bars members => join " | " (targetAll members).eraseDups
  | apply head args => head.target (targetAll args)
  | repeated _ item => targetApplication "Array" [target .value item]
  | function params result =>
    targetFunction (join ", " (numberFrom 1 (targetAll params))) (target .result result)
  | anyFunction result => targetFunction "...args: any[]" (target .result result)

/-- The forms of trees in the target, each standing for a value. -/
def targetAll : List TypeTree → List Text
  | [] => []
  | t :: ts => target .value t :: targetAll ts

end

lemma printAll_eq_map (ts : List TypeTree) : printAll ts = ts.map print := by
  induction ts with
  | nil => rfl
  | cons t ts ih => rw [printAll, ih, List.map_cons]

lemma targetAll_eq_map (ts : List TypeTree) : targetAll ts = ts.map (target .value) := by
  induction ts with
  | nil => rfl
  | cons t ts ih => rw [targetAll, ih, List.map_cons]

/-- The numbers of parameters. -/
lemma numberFrom_eq_mapIdx (first : Nat) (types : List Text) :
    numberFrom first types =
      types.mapIdx fun i type => "p" ++ decimal (i + first) ++ ": " ++ type := by
  induction types generalizing first with
  | nil => rfl
  | cons type types ih =>
    rw [numberFrom, ih, List.mapIdx_cons, Nat.zero_add]
    simp only [Nat.add_right_comm _ 1 first, Nat.add_assoc]

lemma areWellFormed_iff {ts : List TypeTree} :
    areWellFormed ts = true ↔ ∀ t ∈ ts, isWellFormed t = true := by
  induction ts with
  | nil => simp [areWellFormed]
  | cons t ts ih => simp [areWellFormed, ih]

lemma areArityCorrect_iff {ts : List TypeTree} :
    areArityCorrect ts = true ↔ ∀ t ∈ ts, isArityCorrect t = true := by
  induction ts with
  | nil => simp [areArityCorrect]
  | cons t ts ih => simp [areArityCorrect, ih]

/-- Induction on trees, with a hypothesis for each of several members, arguments or parameters. -/
@[elab_as_elim]
theorem induction {motive : TypeTree → Prop} (primitive : ∀ name, motive (.primitive name))
    (absent : motive .absent) (named : ∀ name, motive (.named name))
    (bars : ∀ members, (∀ t ∈ members, motive t) → motive (.bars members))
    (apply : ∀ head args, (∀ t ∈ args, motive t) → motive (.apply head args))
    (repeated : ∀ name item, motive item → motive (.repeated name item))
    (function : ∀ params result, (∀ t ∈ params, motive t) → motive result →
      motive (.function params result))
    (anyFunction : ∀ result, motive result → motive (.anyFunction result)) (t : TypeTree) :
    motive t :=
  @TypeTree.rec motive (fun ts => ∀ t ∈ ts, motive t) primitive absent named bars apply repeated
    function anyFunction (List.forall_mem_nil _)
    (fun _ _ hhead htail => List.forall_mem_cons.2 ⟨hhead, htail⟩) t

end TypeTree

/-! ### Characters of annotations -/

/-- The characters of annotations other than brackets. -/
def isTypeChar (c : Char) : Bool :=
  isIdentifierChar c || c == '.' || c == ',' || c == ' ' || c == '|'

/-- A character of annotations differs from all others. -/
lemma ne_of_isTypeChar {c : Char} (h : isTypeChar c = true) (mark : Char)
    (hmark : isTypeChar mark = false) : c ≠ mark := by
  rintro rfl
  rw [h] at hmark
  cases hmark

lemma isQuoteMark_eq_false_of_isTypeChar {c : Char} (h : isTypeChar c = true) :
    isQuoteMark c = false := by
  simp [isQuoteMark, ne_of_isTypeChar h '\x27' (by decide), ne_of_isTypeChar h '\x22' (by decide)]

lemma nestAll_eq_zero_of_isTypeChar {c : Char} (h : isTypeChar c = true) : nestAll c = 0 := by
  simp [nestAll, ne_of_isTypeChar h '(' (by decide), ne_of_isTypeChar h '[' (by decide),
    ne_of_isTypeChar h '\x7b' (by decide), ne_of_isTypeChar h ')' (by decide),
    ne_of_isTypeChar h ']' (by decide), ne_of_isTypeChar h '\x7d' (by decide)]

/-- A character of names is visible, also beyond ASCII. -/
lemma isWhite_eq_false_of_isIdentifierChar {c : Char} (h : isIdentifierChar c = true) :
    isWhite c = false := by
  simp only [isIdentifierChar, Bool.or_eq_true, Bool.and_eq_true, Bool.not_eq_eq_eq_not,
    Bool.not_true] at h
  rcases h with h | h
  · exact isWhite_eq_false_of_isNameChar h
  · exact h.2

/-! ### Sealed texts -/

/-- A text of an annotation, whose brackets have partners: outside of the brackets there are only
characters for which `p` holds. -/
inductive Sealed : (p : Char → Prop) → Text → Prop
  /-- The empty text. -/
  | nil {p : Char → Prop} : Sealed p []
  /-- A character outside of the brackets. -/
  | cons {p : Char → Prop} {c : Char} {t : Text} (hchar : isTypeChar c = true) (hc : p c)
    (ht : Sealed p t) : Sealed p (c :: t)
  /-- A pair of brackets. -/
  | bracket {p : Char → Prop} {inner t : Text} (hinner : Sealed (fun _ => True) inner)
    (ht : Sealed p t) : Sealed p ('[' :: (inner ++ ']' :: t))

/-- A way of counting brackets in which square brackets count, and characters of annotations do
not. -/
structure CountsSquare (nest : Char → Int) : Prop where
  /-- The opening bracket counts. -/
  opener : nest '[' = 1
  /-- The closing bracket counts. -/
  closer : nest ']' = -1
  /-- Other characters of annotations do not count. -/
  eq_zero : ∀ c, isTypeChar c = true → nest c = 0

lemma countsSquare_square : CountsSquare BracketPair.square.nest where
  opener := rfl
  closer := rfl
  eq_zero c h := by
    simp [BracketPair.nest, BracketPair.square, ne_of_isTypeChar h '[' (by decide),
      ne_of_isTypeChar h ']' (by decide)]

lemma countsSquare_nestAll : CountsSquare nestAll where
  opener := rfl
  closer := rfl
  eq_zero _ h := nestAll_eq_zero_of_isTypeChar h

namespace Sealed

variable {p : Char → Prop} {t u : Text}

/-- A condition on the outer characters may be weakened. -/
lemma mono (h : Sealed p t) {q : Char → Prop} (hpq : ∀ c, p c → q c) : Sealed q t := by
  induction h with
  | nil => exact nil
  | cons hchar hc _ ih => exact cons hchar (hpq _ hc) (ih hpq)
  | bracket hinner _ _ ih => exact bracket hinner (ih hpq)

/-- Sealed texts one after the other. -/
lemma append (ht : Sealed p t) (hu : Sealed p u) : Sealed p (t ++ u) := by
  induction ht with
  | nil => exact hu
  | cons hchar hc _ ih => exact cons hchar hc (ih hu)
  | bracket hinner _ _ ih =>
    rw [List.cons_append, List.append_assoc, List.cons_append]
    exact bracket hinner (ih hu)

/-- Characters of annotations without brackets. -/
lemma of_forall (h : ∀ c ∈ t, isTypeChar c = true ∧ p c) : Sealed p t := by
  induction t with
  | nil => exact nil
  | cons c t ih =>
    obtain ⟨hc, ht⟩ := List.forall_mem_cons.1 h
    exact cons hc.1 hc.2 (ih ht)

/-- Joined texts are sealed if the texts and the text between them are. -/
lemma join {separator : Text} (hseparator : Sealed p separator) {us : List Text}
    (hus : ∀ u ∈ us, Sealed p u) : Sealed p (Text.join separator us) := by
  induction us with
  | nil => exact nil
  | cons u us ih =>
    obtain ⟨hu, hrest⟩ := List.forall_mem_cons.1 hus
    cases us with
    | nil => simpa [Text.join] using hu
    | cons v us =>
      rw [Text.join, List.intercalate_cons_cons]
      exact (hu.append hseparator).append (ih hrest)

/-- The characters of a sealed text. -/
lemma mem (h : Sealed p t) {c : Char} (hc : c ∈ t) : isTypeChar c = true ∨ c = '[' ∨ c = ']' := by
  induction h with
  | nil => cases hc
  | cons hchar _ _ ih =>
    rcases List.mem_cons.1 hc with rfl | hc
    · exact Or.inl hchar
    · exact ih hc
  | bracket _ _ ihInner ih =>
    simp only [List.mem_cons, List.mem_append] at hc
    rcases hc with rfl | hc | rfl | hc
    · exact Or.inr (Or.inl rfl)
    · exact ihInner hc
    · exact Or.inr (Or.inr rfl)
    · exact ih hc

/-- A bracket that is open in front of a sealed text is not closed inside of it. -/
lemma enclosed?_append (h : Sealed p t) (depth : Nat) (rest : Text) :
    BracketPair.square.enclosed? depth (t ++ rest) =
      (BracketPair.square.enclosed? depth rest).map fun parts => (t ++ parts.1, parts.2) := by
  induction h generalizing depth rest with
  | nil => simp
  | cons hchar _ _ ih =>
    have hopener := ne_of_isTypeChar hchar BracketPair.square.opener (by decide)
    have hcloser := ne_of_isTypeChar hchar BracketPair.square.closer (by decide)
    rw [List.cons_append, BracketPair.enclosed?.eq_def]
    simp only
    rw [if_neg hopener, if_neg hcloser, ih, Option.map_map]
    rfl
  | @bracket p inner t _ _ ihInner ih =>
    have hclose : BracketPair.square.enclosed? (depth + 1) (']' :: (t ++ rest)) =
        (BracketPair.square.enclosed? depth (t ++ rest)).map
          fun parts => (']' :: parts.1, parts.2) := rfl
    have hopen : BracketPair.square.enclosed? depth ('[' :: (inner ++ ']' :: (t ++ rest))) =
        (BracketPair.square.enclosed? (depth + 1) (inner ++ ']' :: (t ++ rest))).map
          fun parts => ('[' :: parts.1, parts.2) := by
      rw [BracketPair.enclosed?.eq_def]
      rfl
    rw [List.cons_append, List.append_assoc, List.cons_append, hopen, ihInner, hclose, ih]
    simp [Function.comp_def]

section Counting

variable {nest : Char → Int} (hnest : CountsSquare nest)
include hnest

/-- A character of annotations leaves the scanner as it was. -/
lemma next_of_isTypeChar {c : Char} (hc : isTypeChar c = true) (depth : Int) :
    Scan.next nest ⟨.outside, depth⟩ c = ⟨.outside, depth⟩ := by
  simp [Scan.next, QuoteState.next, isQuoteMark_eq_false_of_isTypeChar hc, hnest.eq_zero c hc]

/-- An opening bracket is counted. -/
lemma next_opener (depth : Int) :
    Scan.next nest ⟨.outside, depth⟩ '[' = ⟨.outside, depth + 1⟩ := by
  simp [Scan.next, QuoteState.next, QuoteState.isCode, isQuoteMark, hnest.opener]

/-- A closing bracket is counted. -/
lemma next_closer (depth : Int) :
    Scan.next nest ⟨.outside, depth + 1⟩ ']' = ⟨.outside, depth⟩ := by
  have hdepth : depth + 1 + -1 = depth := by omega
  simp [Scan.next, QuoteState.next, QuoteState.isCode, isQuoteMark, hnest.closer, hdepth]

/-- A sealed text leaves the scanner as it was. -/
lemma run_eq (h : Sealed p t) (depth : Int) :
    Scan.run nest ⟨.outside, depth⟩ t = ⟨.outside, depth⟩ := by
  induction h generalizing depth with
  | nil => rfl
  | cons hchar _ _ ih => rw [Scan.run_cons, next_of_isTypeChar hnest hchar, ih]
  | bracket _ _ ihInner ih =>
    rw [Scan.run_cons, next_opener hnest, Scan.run_append, ihInner, Scan.run_cons,
      next_closer hnest, ih]

/-- A sealed text exposes nothing but its outer characters, and nothing at all inside a bracket. -/
lemma of_mem_exposed (h : Sealed p t) {depth : Int} (hdepth : 0 ≤ depth) {c : Char}
    (hc : c ∈ Scan.exposed nest ⟨.outside, depth⟩ t) : depth = 0 ∧ p c := by
  induction h generalizing depth with
  | nil => cases hc
  | cons hchar hp _ ih =>
    rw [Scan.exposed_cons, next_of_isTypeChar hnest hchar, List.mem_append] at hc
    rcases hc with hc | hc
    · split at hc
      · rename_i hexposes
        obtain rfl := List.mem_singleton.1 hc
        exact ⟨by simpa [Scan.exposes] using (Bool.and_eq_true_iff.1 hexposes).2, hp⟩
      · cases hc
    · exact ih hdepth hc
  | @bracket p inner t hinner _ ihInner ih =>
    have hhidden : ∀ s : Scan, s.exposes nest '[' = false ∧ s.exposes nest ']' = false := by
      simp [Scan.exposes, hnest.opener, hnest.closer]
    rw [Scan.exposed_cons, next_opener hnest, Scan.exposed_append, hinner.run_eq hnest,
      Scan.exposed_cons, next_closer hnest, (hhidden _).1, (hhidden _).2] at hc
    simp only [Bool.false_eq_true, ↓reduceIte, List.nil_append, List.mem_append] at hc
    rcases hc with hc | hc
    · have hzero := (ihInner (by omega) hc).1
      omega
    · exact ih hdepth hc

/-- A sealed text is passed over. -/
lemma passes (h : Sealed p t) : Passes nest p t :=
  ⟨h.run_eq hnest 0, fun _ hc => (h.of_mem_exposed hnest (Int.le_refl 0) hc).2⟩

/-- A sealed text without white space at its ends can be joined with others by a separator that
does not occur outside of its brackets. -/
lemma isPart (h : Sealed p t) (htrimmed : IsTrimmed t) {separator : Char}
    (hseparator : ¬p separator) : IsPart nest separator t := by
  refine ⟨htrimmed, (h.passes hnest).mono ?_⟩
  rintro c hc rfl
  exact hseparator hc

end Counting

end Sealed

/-! ### The text of a tree -/

section Dotted

variable {name : Text} (h : isDotted name = true)
include h

/-- A name is made of characters of names and dots. -/
lemma mem_of_isDotted {c : Char} (hc : c ∈ name) : isIdentifierChar c = true ∨ c = '.' := by
  cases name with
  | nil => cases hc
  | cons first rest =>
    simp only [isDotted, Bool.and_eq_true, List.all_eq_true, Bool.or_eq_true, beq_iff_eq] at h
    rcases List.mem_cons.1 hc with rfl | hc
    · exact Or.inl h.1
    · exact h.2 c hc

/-- A character that can stand neither in names nor between them is not in a name. -/
lemma notMem_of_isDotted {mark : Char} (hmark : isIdentifierChar mark = false) (hdot : mark ≠ '.') :
    mark ∉ name := by
  intro hmem
  rcases mem_of_isDotted h hmem with hc | hc
  · rw [hc] at hmark
    cases hmark
  · exact hdot hc

/-- There is no white space in a name. -/
lemma isWhite_of_mem_isDotted {c : Char} (hc : c ∈ name) : isWhite c = false := by
  rcases mem_of_isDotted h hc with hc | rfl
  · exact isWhite_eq_false_of_isIdentifierChar hc
  · decide

/-- There is no white space at the ends of a name. -/
lemma isTrimmed_of_isDotted : IsTrimmed name := by
  refine ⟨?_, ?_, ?_⟩
  · rintro rfl
    cases h
  · exact fun c hc => isWhite_of_mem_isDotted h (List.mem_of_head? hc)
  · exact fun c hc => isWhite_of_mem_isDotted h (List.mem_of_getLast? hc)

/-- A name has no brackets. -/
lemma sealed_of_isDotted {p : Char → Prop} (hp : ∀ c, c ≠ ',' → c ≠ '|' → p c) :
    Sealed p name := by
  refine Sealed.of_forall fun c hc => ⟨?_, hp c ?_ ?_⟩
  · rcases mem_of_isDotted h hc with hc | rfl
    · simp [isTypeChar, hc]
    · decide
  · rintro rfl
    exact notMem_of_isDotted h (by decide) (by decide) hc
  · rintro rfl
    exact notMem_of_isDotted h (by decide) (by decide) hc

end Dotted

/-- A name applied to arguments, or arguments alone, have no white space at the ends. -/
lemma isTrimmed_application {name : Text} (h : ∀ c ∈ name, isWhite c = false) (args : List Text) :
    IsTrimmed (application name args) := by
  refine ⟨by simp [application], ?_, ?_⟩
  · intro c hc
    cases name with
    | nil =>
      obtain rfl : '[' = c := by simpa [application] using hc
      decide
    | cons first name =>
      obtain rfl : first = c := by simpa [application] using hc
      exact h first List.mem_cons_self
  · intro c hc
    have hlast : (application name args).getLast? = some ']' :=
      List.getLast?_append_of_ne_nil _ (by decide)
    obtain rfl : ']' = c := Option.some.inj (hlast.symm.trans hc)
    decide

/-- Texts joined by commas, to be put between brackets. -/
lemma sealed_join_commas {us : List Text} (hus : ∀ u ∈ us, Sealed (fun _ => True) u) :
    Sealed (fun _ => True) (join ", " us) :=
  Sealed.join (Sealed.of_forall (forall_mem_of_all (by decide))) hus

/-- A name applied to sealed arguments. -/
lemma sealed_application {p : Char → Prop} {name : Text} (hname : Sealed p name) {args : List Text}
    (hargs : ∀ u ∈ args, Sealed (fun _ => True) u) : Sealed p (application name args) := by
  have hbracket : Sealed p ('[' :: (join ", " args ++ ']' :: [])) :=
    (sealed_join_commas hargs).bracket .nil
  have happlied := hname.append hbracket
  simpa [application] using happlied

/-- The primitive names are names. -/
lemma isDotted_of_isSome_lookup? {name : Text} (h : (lookup? Shape.primitives name).isSome = true) :
    isDotted name = true := by
  have htable : ∀ entry ∈ Shape.primitives, isDotted entry.1 = true := by decide
  unfold lookup? at h
  rw [Option.isSome_map, List.find?_isSome] at h
  obtain ⟨entry, hentry, hname⟩ := h
  rw [← beq_iff_eq.1 hname]
  exact htable entry hentry

/-- The names that can be applied are names. -/
lemma TypeHead.isDotted_name {head : TypeHead} {args : Nat} (h : head.admits args = true) :
    isDotted head.name = true := by
  have hsequence : ∀ name ∈ sequenceNames, isDotted name = true := by decide
  have hmapping : ∀ name ∈ mappingNames, isDotted name = true := by decide
  have htuple : ∀ name ∈ tupleNames, isDotted name = true := by decide
  cases head with
  | union | optional | iterator | iterable => decide
  | sequence name => exact hsequence name (List.contains_iff_mem.1 h)
  | mapping name => exact hmapping name (List.contains_iff_mem.1 h)
  | tuple name =>
    simp only [admits, Bool.and_eq_true] at h
    exact htuple name (List.contains_iff_mem.1 h.1)
  | generic name =>
    simp only [admits, Bool.and_eq_true] at h
    exact h.1.1

namespace TypeTree

/-- The characters that may stand outside of the brackets of a tree: no commas, and bars only
between members. -/
def IsOuter (t : TypeTree) (c : Char) : Prop :=
  c ≠ ',' ∧ (c = '|' → t.isBars = true)

/-- Names stand outside of brackets. -/
lemma isOuter_of_ne {t : TypeTree} {c : Char} (hcomma : c ≠ ',') (hbar : c ≠ '|') : t.IsOuter c :=
  ⟨hcomma, fun h => absurd h hbar⟩

/-- A name applied to sealed arguments is a tree without outer commas and bars. -/
lemma sealed_application_name (t : TypeTree) {name : Text} (hname : isDotted name = true)
    {args : List Text} (hargs : ∀ u ∈ args, Sealed (fun _ => True) u) :
    Sealed t.IsOuter (application name args) ∧ IsTrimmed (application name args) :=
  ⟨sealed_application (sealed_of_isDotted hname fun _ => isOuter_of_ne) hargs,
    isTrimmed_application (fun _ => isWhite_of_mem_isDotted hname) args⟩

/-- **The text of a tree is sealed**, and has no white space at its ends. -/
lemma sealed_print {t : TypeTree} (h : t.isWellFormed = true) :
    Sealed t.IsOuter t.print ∧ IsTrimmed t.print := by
  have hdots : Sealed (fun _ => True) ("..." : Text) :=
    Sealed.of_forall (forall_mem_of_all (by decide))
  have hcallable : isDotted "Callable" = true := by decide
  -- The texts of parts, between the brackets of the whole.
  have hparts : ∀ {ts : List TypeTree},
      (∀ t ∈ ts, t.isWellFormed = true → Sealed t.IsOuter t.print ∧ IsTrimmed t.print) →
      (∀ t ∈ ts, t.isWellFormed = true) → ∀ u ∈ printAll ts, Sealed (fun _ => True) u := by
    intro ts ih hts u hu
    rw [printAll_eq_map] at hu
    obtain ⟨t, ht, rfl⟩ := List.mem_map.1 hu
    exact (ih t ht (hts t ht)).1.mono fun _ _ => trivial
  induction t using TypeTree.induction with
  | primitive name =>
    have hname := isDotted_of_isSome_lookup? (by simpa [isWellFormed] using h)
    exact ⟨sealed_of_isDotted hname fun _ => isOuter_of_ne, isTrimmed_of_isDotted hname⟩
  | absent =>
    have hname : isDotted "None" = true := by decide
    exact ⟨sealed_of_isDotted hname fun _ => isOuter_of_ne, isTrimmed_of_isDotted hname⟩
  | named name =>
    simp only [isWellFormed, Bool.and_eq_true] at h
    exact ⟨sealed_of_isDotted h.1.1 fun _ => isOuter_of_ne, isTrimmed_of_isDotted h.1.1⟩
  | bars members ih =>
    simp only [isWellFormed, Bool.and_eq_true, areWellFormed_iff, decide_eq_true_eq] at h
    have hmembers : ∀ u ∈ printAll members, Sealed (bars members).IsOuter u ∧ IsTrimmed u := by
      intro u hu
      rw [printAll_eq_map] at hu
      obtain ⟨member, hmember, rfl⟩ := List.mem_map.1 hu
      obtain ⟨hsealed, htrimmed⟩ := ih member hmember (h.2 member hmember)
      exact ⟨hsealed.mono fun c hc => ⟨hc.1, fun _ => rfl⟩, htrimmed⟩
    refine ⟨Sealed.join (Sealed.of_forall ?_) fun u hu => (hmembers u hu).1, ?_⟩
    · have hbar : ∀ c ∈ (" | " : Text), isTypeChar c = true ∧ c ≠ ',' :=
        forall_mem_of_all (by decide)
      exact fun c hc => ⟨(hbar c hc).1, (hbar c hc).2, fun _ => rfl⟩
    · cases members with
      | nil => simp at h
      | cons member members => exact IsTrimmed.join fun u hu => (hmembers u hu).2
  | apply head args ih =>
    simp only [isWellFormed, Bool.and_eq_true, areWellFormed_iff] at h
    exact sealed_application_name _ (TypeHead.isDotted_name h.1) (hparts ih h.2)
  | repeated name item ih =>
    simp only [isWellFormed, Bool.and_eq_true] at h
    have htuple : ∀ name ∈ TypeHead.tupleNames, isDotted name = true := by decide
    have hitem := (ih h.2).1.mono (q := fun _ => True) fun _ _ => trivial
    refine sealed_application_name _ (htuple name (List.contains_iff_mem.1 h.1)) ?_
    exact List.forall_mem_cons.2 ⟨hitem, List.forall_mem_singleton.2 hdots⟩
  | function params result ih ihResult =>
    simp only [isWellFormed, Bool.and_eq_true, areWellFormed_iff] at h
    have hresult := (ihResult h.2).1.mono (q := fun _ => True) fun _ _ => trivial
    have hlist : Sealed (fun _ => True) (application [] (printAll params)) :=
      sealed_application .nil (hparts ih h.1)
    refine sealed_application_name _ hcallable ?_
    exact List.forall_mem_cons.2 ⟨hlist, List.forall_mem_singleton.2 hresult⟩
  | anyFunction result ih =>
    have hresult := (ih (by simpa [isWellFormed] using h)).1.mono (q := fun _ => True)
      fun _ _ => trivial
    refine sealed_application_name _ hcallable ?_
    exact List.forall_mem_cons.2 ⟨hdots, List.forall_mem_singleton.2 hresult⟩

end TypeTree

end Rebrace
