import Mathlib
import Rebrace.Proofs.Offsets
import Rebrace.Proofs.TypeReading

/-!
# Lines and types at offsets

The lines of a source are converted one by one, and type annotations are translated, by the steps of
`Rebrace.Proofs.Offsets`: names and comparisons are found by reading characters at their indices, an
indentation is sliced off, a type is sliced at its brackets, and its arguments are read at their
places in a list.

For each definition a lemma says that there is no fault in it, and that its result is that of the
library.  There is one exception: the indentation of a line can be rescaled without a fault only if
the products of its levels with the widths do not exceed the limit, `Positional.LevelsFit`.
-/

namespace Rebrace.Positional

open Text

/-! ### Characters at their indices -/

/-- The character in front of an index, if the index is not the first one. -/
def charBefore (chars : Text) (i : Nat) : Option (Option Char) :=
  if 0 < i then (minus i 1).bind fun j => chars[j]?.map some else some none

/-- Is the character `c` at an index an underscore between two lower-case letters or digits? -/
def joinsAt (chars : Text) (i : Nat) (c : Char) : Option Bool :=
  if c = '_' ∧ 0 < i then
    (minus i 1).bind fun j => chars[j]?.bind fun previous =>
      if isLowerOrDigit previous ∧ i + 1 < chars.length then chars[i + 1]?.map isLowerOrDigit
      else some false
  else some false

/-- Camel case of the characters from an index on. -/
def camelCaseAt (chars : Text) (i : Nat) : Option Text :=
  if i < chars.length then
    chars[i]?.bind fun c => (joinsAt chars i c).bind fun joins =>
      if joins then
        chars[i + 1]?.bind fun d => (camelCaseAt chars (i + 2)).map (d.toUpper :: ·)
      else (camelCaseAt chars (i + 1)).map (c :: ·)
  else some []
termination_by chars.length - i

/-- Camel case of a name. -/
def camelCase (name : Text) : Option Text :=
  camelCaseAt name 0

/-- The characters from an index on, with strict comparisons. -/
def strictEqualityAt (chars : Text) (i : Nat) : Option Text :=
  if i < chars.length then
    chars[i]?.bind fun c => (charBefore chars i).bind fun previous =>
      if chars[i + 1]? = some '=' ∧ chars[i + 2]? ≠ some '=' ∧ beginsComparison previous c then
        (strictEqualityAt chars (i + 2)).map fun t => c :: '=' :: '=' :: t
      else (strictEqualityAt chars (i + 1)).map (c :: ·)
  else some []
termination_by chars.length - i

/-- A line with strict comparisons. -/
def strictEquality (line : Text) : Option Text :=
  strictEqualityAt line 0

section Index

variable (u : Text) (c : Char) (w : Text)

lemma getElem?_append_cons : (u ++ c :: w)[u.length]? = some c := by simp

lemma getElem?_append_cons_succ (n : Nat) : (u ++ c :: w)[u.length + (n + 1)]? = w[n]? := by
  rw [List.getElem?_append_right (by omega), Nat.add_sub_cancel_left, List.getElem?_cons_succ]

/-- The last character read stands in front of the index. -/
lemma charBefore_length (w : Text) : charBefore (u ++ w) u.length = some u.getLast? := by
  rcases List.eq_nil_or_concat' u with rfl | ⟨u, d, rfl⟩
  · rfl
  · have hminus : minus (u ++ [d]).length 1 = some u.length := by simp
    rw [charBefore, if_pos (by simp), hminus, Option.bind_some, List.append_assoc,
      List.singleton_append, getElem?_append_cons, List.getLast?_concat, Option.map_some]

lemma joinsAt_length :
    joinsAt (u ++ c :: w) u.length c =
      some (c == '_' && u.getLast?.any isLowerOrDigit && w.head?.any isLowerOrDigit) := by
  unfold joinsAt
  by_cases hc : c = '_'
  · rcases List.eq_nil_or_concat' u with rfl | ⟨u, d, rfl⟩
    · simp
    · have hminus : minus (u ++ [d]).length 1 = some u.length := by simp
      have hprevious : (u ++ [d] ++ c :: w)[u.length]? = some d := by simp
      have hnext : (u ++ [d] ++ c :: w)[(u ++ [d]).length + 1]? = w.head? := by
        rw [getElem?_append_cons_succ, List.head?_eq_getElem?]
      rw [if_pos ⟨hc, by simp⟩, hminus, Option.bind_some, hprevious, Option.bind_some, hnext]
      cases w with
      | nil => simp
      | cons e w =>
        have hlength : (u ++ [d]).length + 1 < (u ++ [d] ++ c :: e :: w).length := by
          simp only [List.length_append, List.length_cons]
          omega
        cases hd : isLowerOrDigit d with
        | false => simp [hd]
        | true =>
          rw [if_pos ⟨rfl, hlength⟩]
          simp [hc, hd]
  · simp [hc]

end Index

/-- Camel case is written without a fault, where the characters `u` are finished. -/
lemma camelCaseAt_length (u w : Text) :
    camelCaseAt (u ++ w) u.length = some (camelCaseFrom (u.getLast?.any isLowerOrDigit) w) := by
  induction hn : w.length using Nat.strong_induction_on generalizing u w with
  | _ n ih =>
    rw [camelCaseAt]
    cases w with
    | nil => simp [camelCaseFrom]
    | cons c w =>
      rw [if_pos (by simp), getElem?_append_cons, Option.bind_some, joinsAt_length,
        Option.bind_some]
      have hkept := ih w.length (by simp at hn; omega) (u ++ [c]) w rfl
      rw [List.append_assoc, List.singleton_append, List.length_append, List.length_singleton,
        List.getLast?_concat, Option.any_some] at hkept
      cases w with
      | nil => simp [hkept, camelCaseFrom]
      | cons d w =>
        rw [camelCaseFrom]
        by_cases hjoins : c = '_' ∧ u.getLast?.any isLowerOrDigit = true ∧ isLowerOrDigit d = true
        · have hnext := ih w.length (by simp at hn; omega) (u ++ [c, d]) w rfl
          have hread : (u ++ c :: d :: w)[u.length + 1]? = some d :=
            getElem?_append_cons_succ u c (d :: w) 0
          have hlast : (u ++ [c, d]).getLast? = some d := by simp
          rw [hlast, Option.any_some, hjoins.2.2, List.append_assoc, List.length_append] at hnext
          change camelCaseAt (u ++ c :: d :: w) (u.length + 2) = _ at hnext
          rw [if_pos hjoins, if_pos (by simp [hjoins]), hread, Option.bind_some, hnext]
          rfl
        · rw [if_neg hjoins, if_neg (by simpa [and_assoc] using hjoins), hkept]
          rfl

@[simp] lemma camelCase_eq (name : Text) : camelCase name = some (Rebrace.camelCase name) :=
  camelCaseAt_length [] name

/-- Comparisons are made strict without a fault, where the characters `u` are finished. -/
lemma strictEqualityAt_length (u w : Text) :
    strictEqualityAt (u ++ w) u.length = some (strictEqualityFrom u.getLast? w) := by
  induction hn : w.length using Nat.strong_induction_on generalizing u w with
  | _ n ih =>
    rw [strictEqualityAt]
    cases w with
    | nil => simp [strictEqualityFrom]
    | cons c w =>
      have hkept := ih w.length (by simp at hn; omega) (u ++ [c]) w rfl
      rw [List.append_assoc, List.singleton_append, List.length_append, List.length_singleton,
        List.getLast?_concat] at hkept
      have hnext : (u ++ c :: w)[u.length + 1]? = w[0]? := getElem?_append_cons_succ u c w 0
      have hafter : (u ++ c :: w)[u.length + 2]? = w[1]? := getElem?_append_cons_succ u c w 1
      rw [if_pos (by simp), getElem?_append_cons, Option.bind_some, charBefore_length,
        Option.bind_some, hnext, hafter]
      cases w with
      | nil => simp [hkept, strictEqualityFrom]
      | cons d w =>
        rw [strictEqualityFrom, List.getElem?_cons_zero, List.getElem?_cons_succ,
          ← List.head?_eq_getElem?]
        by_cases hloose : d = '=' ∧ w.head? ≠ some '=' ∧ beginsComparison u.getLast? c = true
        · have hstrict := ih w.length (by simp at hn; omega) (u ++ [c, d]) w rfl
          have hlast : (u ++ [c, d]).getLast? = some '=' := by simp [hloose.1]
          rw [hlast, List.append_assoc, List.length_append] at hstrict
          change strictEqualityAt (u ++ c :: d :: w) (u.length + 2) = _ at hstrict
          rw [if_pos ⟨congrArg some hloose.1, hloose.2⟩, if_pos hloose, hstrict]
          rfl
        · rw [if_neg fun h => hloose ⟨Option.some.inj h.1, h.2⟩, if_neg hloose, hkept]
          rfl

@[simp] lemma strictEquality_eq (line : Text) :
    strictEquality line = some (Rebrace.strictEquality line) :=
  strictEqualityAt_length [] line

/-! ### Lines -/

/-- The spelling of a name that a table gives, or else its camel case. -/
def spellBy (table : List (Text × Text)) (name : Text) : Option Text :=
  match lookup? table name with
  | some target => some target
  | none => camelCase name

/-- The spelling of a name in the target. -/
def spellName (name : Text) : Option Text :=
  spellBy nameTable name

/-- The part of a line that follows a character of which `inWord` tells whether it is a word
character, with its names spelled for the target. -/
def spellNamesFrom (inWord : Bool) : Text → Option Text
  | [] => some []
  | c :: t =>
    if !inWord && isNameStart c then
      (spellName (c :: t.takeWhile isNameChar)).bind fun name =>
        (spellNamesFrom true (t.dropWhile isNameChar)).map (name ++ ·)
    else (spellNamesFrom (isWord c) t).map (c :: ·)
termination_by t => t.length
decreasing_by
  · have := (List.dropWhile_sublist isNameChar (l := t)).length_le
    simp
    omega
  · simp

/-- A line with names and comparisons in the target. -/
def convertLexical (line : Text) : Option Text :=
  (spellNamesFrom false line).bind strictEquality

/-- The line with each whole level of `source` leading spaces as `target` spaces. A limit beyond the
machine word keeps the new width from being a fault, but not from wrapping around. -/
def rescaleIndent (limit source target : Nat) (line : Text) : Option Text :=
  if source = 0 then some line
  else
    (leadingSpaces line).bind fun indent =>
      let levels := indent / source
      if levels = 0 then some line
      else
        (times limit levels target).bind fun width => (times limit levels source).bind fun cut =>
          (sliceFrom line cut).map (spaces (width % wordSize) ++ ·)

lemma spellBy_eq (table : List (Text × Text)) (name : Text) :
    spellBy table name = some ((lookup? table name).getD (Rebrace.camelCase name)) := by
  unfold spellBy
  cases lookup? table name with
  | none => exact camelCase_eq name
  | some target => rfl

@[simp] lemma spellName_eq (name : Text) : spellName name = some (Rebrace.spellName name) :=
  spellBy_eq nameTable name

lemma spellNamesFrom_eq (inWord : Bool) (t : Text) :
    spellNamesFrom inWord t = some (Rebrace.spellNamesFrom inWord t) := by
  fun_induction Rebrace.spellNamesFrom inWord t with
  | case1 => simp [spellNamesFrom]
  | case2 inWord c t hstart ih => rw [spellNamesFrom, if_pos hstart, spellName_eq, ih]; rfl
  | case3 inWord c t hstart ih => rw [spellNamesFrom, if_neg hstart, ih]; rfl

@[simp] lemma convertLexical_eq (line : Text) :
    convertLexical line = some (Rebrace.convertLexical line) := by
  rw [convertLexical, spellNamesFrom_eq, Option.bind_some, strictEquality_eq]
  rfl

/-- The products of the levels of a line with two widths do not exceed the limit. -/
def LevelsFit (limit : Nat) (widths : Widths) (line : Text) : Prop :=
  Text.leadingSpaces line / widths.source * widths.source ≤ limit ∧
    Text.leadingSpaces line / widths.source * widths.target ≤ limit

instance (limit : Nat) (widths : Widths) : DecidablePred (LevelsFit limit widths) :=
  fun _ => inferInstanceAs (Decidable (_ ∧ _))

/-- Spaces in front of a line can be sliced off. -/
lemma sliceFrom_of_le_leadingSpaces {line : Text} {n : Nat} (h : n ≤ Text.leadingSpaces line) :
    sliceFrom line n = some (line.drop n) := by
  have hsize : utf8Size (spaces n) = n := by
    rw [spaces, utf8Size_eq_length fun c hc => List.eq_of_mem_replicate hc, List.length_replicate]
  have hslice := sliceFrom_append (spaces n) (line.drop n)
  rwa [hsize, spaces_append_drop h] at hslice

lemma rescaleIndent_eq {limit : Nat} {widths : Widths} {line : Text}
    (h : LevelsFit limit widths line) :
    rescaleIndent limit widths.source widths.target line =
      some (Rebrace.rescaleIndent widths.source widths.target line) := by
  unfold rescaleIndent Rebrace.rescaleIndent levelsWidth
  by_cases hzero : widths.source = 0
  · simp [hzero]
  · rw [if_neg hzero, leadingSpaces_eq, Option.bind_some]
    by_cases hlevels : Text.leadingSpaces line / widths.source = 0
    · simp only [hlevels, ↓reduceIte, or_true]
    · have hcut := sliceFrom_of_le_leadingSpaces
        (Nat.div_mul_le_self (Text.leadingSpaces line) widths.source)
      simp only [hlevels, hzero, ↓reduceIte, or_self, times, if_pos h.1, if_pos h.2,
        Option.bind_some, hcut, Option.map_some]

/-! ### Types -/

/-- The entry of a list at an index; a fault behind the end of the list. -/
def entry (items : List Text) (i : Nat) : Option Text :=
  items[i]?

/-- The only argument of `construct`, read at its place. -/
def single (construct : Text) (args : List Text) (text : Text) : Checked Text :=
  if args.length ≠ 1 then throw (.arityMismatch construct 1 args.length text) else entry args 0

/-- The two arguments of `construct`, read at their places. -/
def double (construct : Text) (args : List Text) (text : Text) : Checked (Text × Text) :=
  if args.length ≠ 2 then throw (.arityMismatch construct 2 args.length text)
  else do
    let first ← entry args 0
    let second ← entry args 1
    return (first, second)

/-- The shape of a tuple: an ellipsis as the second of two items repeats the first. -/
def tupleShape (args : List Text) : Option Shape :=
  if args.length = 2 then
    (entry args 1).bind fun last =>
      if last = "..." then (entry args 0).map .uniformTuple else some (.tuple args)
  else some (.tuple args)

/-- The shape of a function type. -/
def functionShape (params result : Text) : Checked Shape :=
  if params = "..." then return .anyFunction result
  else
    match (strip? "[" params).bind (stripEnd? "]") with
    | some inner => do
      let params ← splitTrim .square "," inner
      return .function params result
    | none => throw (.noBracketFound params)

/-- The shape of `name` applied to `args`, in the expression `text`. -/
def applicationShape (name : Text) (args : List Text) (text : Text) : Checked Shape :=
  if name = "Union" then return .union args
  else if name = "Optional" then .optional <$> single "Optional" args text
  else if name = "List" ∨ name = "list" ∨ name = "Sequence" then
    .sequence <$> single "List" args text
  else if name = "Mapping" ∨ name = "Dict" ∨ name = "dict" then
    (fun pair => .mapping pair.1 pair.2) <$> double "Mapping" args text
  else if name = "Iterator" then .iterator <$> single "Iterator" args text
  else if name = "Iterable" then .iterable <$> single "Iterable" args text
  else if name = "Tuple" ∨ name = "tuple" then tupleShape args
  else if name = "Callable" then do
    let pair ← double "Callable" args text
    functionShape pair.1 pair.2
  else return .generic name args

/-- The shape of a type expression without white space at its ends. -/
def classifyTrimmed (text : Text) : Checked Shape :=
  match lookup? Shape.primitives text with
  | some target => return .primitive target
  | none =>
    if text = "None" then return .absent
    else do
      let alternatives ← splitTrim .square "|" text
      if 1 < alternatives.length then return .union alternatives
      else if '[' ∉ text then return .named text
      else
        let span ← firstSpan text true
        let name ← sliceTo text span.1
        let inner ← slice text (span.1 + 1) span.2
        let args ← splitTrim .square "," inner
        applicationShape (trim name) args text

/-- The target form of a shape whose parts are translated by `translate`. -/
def translateShape (translate : Place → Text → Checked Text) (place : Place) :
    Shape → Checked Text
  | .primitive target => return target
  | .absent => return TypeExpr.render place .absent
  | .union members =>
    (fun types => join " | " types.eraseDups) <$> members.mapM (translate .value)
  | .optional item => (· ++ " | null") <$> translate .value item
  | .sequence item => (fun type => TypeExpr.apply "Array" [type]) <$> translate .value item
  | .mapping key value => do
    let key ← translate .value key
    let value ← translate .value value
    return TypeExpr.apply "Map" [key, value]
  | .iterator item => (fun type => TypeExpr.apply "Iterator" [type]) <$> translate .value item
  | .iterable item => (fun type => TypeExpr.apply "Iterable" [type]) <$> translate .value item
  | .tuple items => (fun types => "[" ++ join ", " types ++ "]") <$> items.mapM (translate .value)
  | .uniformTuple item => (fun type => TypeExpr.apply "Array" [type]) <$> translate .value item
  | .function params result => do
    let result ← translate .result result
    let types ← params.mapM (translate .value)
    return "(" ++ join ", " (TypeExpr.numberParams types) ++ ") => " ++ result
  | .anyFunction result => ("(...args: any[]) => " ++ ·) <$> translate .result result
  | .generic name args => TypeExpr.apply name <$> args.mapM (translate .value)
  | .named name => return name

/-- The target form of a type expression, with at most `depth` levels of parts. -/
def translateFrom : (depth : Nat) → Place → Text → Checked Text
  | 0, _, _ => ExceptT.mk none
  | depth + 1, place, expr => do
    let shape ← classifyTrimmed (trim expr)
    translateShape (translateFrom depth) place shape

/-- The target form of a type expression. -/
def translateType (place : Place) (expr : Text) : Checked Text :=
  translateFrom (expr.length + 1) place expr

lemma single_eq (construct : Text) (args : List Text) (text : Text) :
    single construct args text = total (Shape.single construct args text) := by
  match args with
  | [] | [_] | _ :: _ :: _ => rfl

lemma double_eq (construct : Text) (args : List Text) (text : Text) :
    double construct args text = total (Shape.double construct args text) := by
  match args with
  | [] | [_] | [_, _] | _ :: _ :: _ :: _ => rfl

@[simp] lemma tupleShape_eq (args : List Text) : tupleShape args = some (Shape.ofTuple args) := by
  match args with
  | [] | [_] | _ :: _ :: _ :: _ => rfl
  | [item, last] =>
    change (if last = "..." then some (Shape.uniformTuple item) else some (.tuple [item, last])) =
      some (if last = "..." then .uniformTuple item else .tuple [item, last])
    exact (apply_ite some _ _ _).symm

lemma functionShape_eq (params result : Text) :
    functionShape params result = total (Shape.ofFunction params result) := by
  unfold functionShape Shape.ofFunction
  by_cases hany : params = "..."
  · rw [if_pos hany, if_pos hany]
    rfl
  · rw [if_neg hany, if_neg hany]
    cases (strip? "[" params).bind (stripEnd? "]") with
    | none => rfl
    | some inner => simp only [splitTrim_eq]; rfl

lemma applicationShape_eq (name : Text) (args : List Text) (text : Text) :
    applicationShape name args text = total (Shape.ofApplication name args text) := by
  unfold applicationShape
  simp only [single_eq, double_eq, tupleShape_eq, functionShape_eq, map_total, total_bind_total,
    lift_some, pure_eq_total, ← apply_ite total]
  unfold Shape.ofApplication
  cases Shape.double "Callable" args text <;> rfl

lemma classifyTrimmed_eq (text : Text) :
    classifyTrimmed text = total (Shape.classifyTrimmed text) := by
  unfold classifyTrimmed Shape.classifyTrimmed
  cases lookup? Shape.primitives text with
  | some target => rfl
  | none =>
    dsimp only
    by_cases hnone : text = "None"
    · rw [if_pos hnone, if_pos hnone]
      rfl
    · rw [if_neg hnone, if_neg hnone, splitTrim_eq, lift_some, total_bind]
      dsimp only
      by_cases hmany : 1 < (BracketPair.square.splitTrim "|" text).length
      · rw [if_pos hmany, if_pos hmany]
        rfl
      · rw [if_neg hmany, if_neg hmany]
        by_cases hopen : '[' ∉ text
        · rw [if_pos hopen, if_pos hopen]
          rfl
        · rw [if_neg hopen, if_neg hopen, firstSpan_eq]
          cases hspan : BracketSpan.first text true with
          | error e => rfl
          | ok span =>
            obtain ⟨hbefore, hinner⟩ := slice_of_first hspan
            change ((liftM (sliceTo text span.openOffset) : Checked Text) >>= _) = _
            simp only [hbefore, hinner, lift_some, total_bind, splitTrim_eq, applicationShape_eq]

/-- Type expressions are translated by reading and rendering them one after the other. -/
lemma mapM_convert (exprs : List Text) :
    exprs.mapM (TypeExpr.convert .value) = TypeExpr.renderAll <$> exprs.mapM TypeExpr.parse := by
  induction exprs with
  | nil => rfl
  | cons expr exprs ih =>
    rw [List.mapM_cons, List.mapM_cons, ih, TypeExpr.convert]
    cases TypeExpr.parse expr with
    | error e => rfl
    | ok e => cases exprs.mapM TypeExpr.parse <;> rfl

/-- A shape is translated without a fault if its parts are. -/
lemma translateShape_eq {translate : Place → Text → Checked Text} {shape : Shape}
    (h : ∀ part ∈ shape.parts, ∀ place,
      translate place part = total (TypeExpr.convert place part)) (place : Place) :
    translateShape translate place shape =
      total (TypeExpr.render place <$> TypeExpr.ofShape TypeExpr.parse shape) := by
  have hall : ∀ {exprs : List Text}, (∀ expr ∈ exprs, expr ∈ shape.parts) →
      exprs.mapM (translate .value) =
        total (TypeExpr.renderAll <$> exprs.mapM TypeExpr.parse) := by
    intro exprs hexprs
    rw [← mapM_convert]
    exact mapM_eq_total fun expr hexpr => h expr (hexprs expr hexpr) .value
  cases shape with
  | primitive target | absent | named name => rfl
  | union members | tuple members | generic name members =>
    have hmembers : members.mapM (translate .value) =
        total (TypeExpr.renderAll <$> members.mapM TypeExpr.parse) := hall fun _ hexpr => hexpr
    simp only [translateShape, TypeExpr.ofShape, hmembers, map_total, Functor.map_map]
    rfl
  | optional item | sequence item | iterator item | iterable item | uniformTuple item
  | anyFunction item =>
    simp only [translateShape, TypeExpr.ofShape, h item (List.mem_singleton.2 rfl),
      TypeExpr.convert, map_total, Functor.map_map]
    rfl
  | mapping key value =>
    rw [translateShape, h key (by simp [Shape.parts]), h value (by simp [Shape.parts]),
      TypeExpr.ofShape, TypeExpr.convert, TypeExpr.convert]
    cases TypeExpr.parse key with
    | error e => rfl
    | ok key => cases TypeExpr.parse value <;> rfl
  | function params result =>
    rw [translateShape, h result List.mem_cons_self,
      hall fun _ hexpr => List.mem_cons_of_mem _ hexpr, TypeExpr.ofShape, TypeExpr.convert]
    cases TypeExpr.parse result with
    | error e => rfl
    | ok result => cases params.mapM TypeExpr.parse <;> rfl

/-- A type expression is translated without a fault, and the levels of its parts are fewer than its
characters. -/
lemma translateFrom_eq {depth : Nat} {expr : Text} (h : expr.length < depth) (place : Place) :
    translateFrom depth place expr = total (TypeExpr.convert place expr) := by
  induction depth generalizing expr place with
  | zero => omega
  | succ depth ih =>
    rw [translateFrom, classifyTrimmed_eq, TypeExpr.convert, TypeExpr.parse_eq, Shape.classify]
    cases hshape : Shape.classifyTrimmed (trim expr) with
    | error e => rfl
    | ok shape =>
      rw [total_bind]
      refine translateShape_eq (fun part hpart place => ih ?_ place) place
      have hlt := Shape.length_lt_of_mem_parts hshape hpart
      omega

lemma translateType_eq (place : Place) (expr : Text) :
    translateType place expr = total (TypeExpr.convert place expr) :=
  translateFrom_eq (Nat.lt_succ_self _) place

end Rebrace.Positional
