import Mathlib
import Rebrace.Proofs.OffsetLines
import Rebrace.Proofs.SignatureReading

/-!
# Headers at offsets

The headers of clauses, classes and functions are read and rendered by the steps of
`Rebrace.Proofs.Offsets` and `Rebrace.Proofs.OffsetLines`: they are sliced at the offsets of colons
and equals signs, and the parts of lists are read at their places.  For each definition a lemma says
that there is no fault in it, and that its result is that of the library.
-/

namespace Rebrace.Positional

open Text

/-! ### Clauses -/

/-- The clause header that a line holds. -/
def parseClause (line : Text) : Option (Option Clause) :=
  if '\n' ∈ line then some none
  else
    let indent := Text.leadingSpaces line
    match Keyword.ofStart? (line.drop indent) with
    | none => some none
    | some (keyword, rest) =>
      match headerColon? rest with
      | none => some none
      | some colon =>
        (sliceTo rest colon).bind fun condition =>
          let condition? := if isBlank condition then none else some (trim condition)
          if Clause.admits keyword condition then
            (sliceFrom rest (colon + 1)).map fun trailing =>
              some { indent, keyword, condition?, trailing }
          else some none

/-- The binding of a loop target. -/
def loopBinding (target : Text) : Option Text :=
  (splitTrim .round "," target).map fun names =>
    if 1 < names.length then "[" ++ join ", " names ++ "]" else target

/-- The condition `x in xs` of a loop, as the binding `const x of xs`. -/
def convertMembership (condition : Text) : Checked Text := do
  let parts ← split .square " in " condition
  if parts.length ≠ 2 then throw (.malformedMembership condition parts.length)
  else
    let target ← entry parts 0
    let binding ← loopBinding (stripParens (trim target))
    let items ← entry parts 1
    return "const " ++ binding ++ " of " ++ trim items

/-- The condition of a clause in the target, in parentheses. -/
def renderCondition (c : Clause) : Checked Text :=
  match c.condition? with
  | none => return []
  | some condition =>
    if c.keyword = .forEach then
      (fun binding => " (" ++ binding ++ ")") <$> convertMembership condition
    else return " (" ++ condition ++ ")"

/-- The header line of a clause in the target, with `leading` in front of the keyword. -/
def renderClause (c : Clause) (leading : Text) : Checked Text :=
  (fun condition =>
    spaces c.indent ++ leading ++ c.keyword.target ++ condition ++ " \x7b" ++ c.trailing)
  <$> renderCondition c

@[simp] lemma parseClause_eq (line : Text) : parseClause line = some (Clause.parse? line) := by
  unfold parseClause Clause.parse?
  by_cases hnl : '\n' ∈ line
  · rw [if_pos hnl, if_pos hnl]
  · rw [if_neg hnl, if_neg hnl]
    dsimp only
    cases Keyword.ofStart? (line.drop (Text.leadingSpaces line)) with
    | none => rfl
    | some start =>
      obtain ⟨keyword, rest⟩ := start
      simp only [headerColon?_eq, Option.bind_eq_bind, Option.bind_some]
      cases hcut : cutHeaderColon? rest with
      | none => rfl
      | some parts =>
        obtain ⟨condition, trailing⟩ := parts
        obtain ⟨hto, hfrom⟩ := slice_of_cutHeaderColon? hcut
        simp only [Option.map_some, hto, hfrom, Option.bind_some]
        exact (apply_ite some _ _ _).symm

lemma loopBinding_eq (target : Text) : loopBinding target = some (Rebrace.loopBinding target) := by
  rw [loopBinding, splitTrim_eq]
  rfl

lemma convertMembership_eq (condition : Text) :
    convertMembership condition = total (Rebrace.convertMembership condition) := by
  unfold convertMembership Rebrace.convertMembership
  rw [split_eq, lift_some, total_bind]
  dsimp only
  match BracketPair.square.split " in " condition with
  | [] | [_] | _ :: _ :: _ :: _ => rfl
  | [target, items] =>
    change ((liftM (loopBinding (stripParens (trim target))) : Checked Text) >>= _) = _
    rw [loopBinding_eq]
    rfl

lemma renderClause_eq (c : Clause) (leading : Text) :
    renderClause c leading = total (c.render leading) := by
  have hcondition : renderCondition c = total c.renderCondition := by
    unfold renderCondition Clause.renderCondition
    cases c.condition? with
    | none => rfl
    | some condition =>
      simp only [convertMembership_eq, map_total, pure_eq_total, apply_ite total]
  rw [renderClause, hcondition, map_total]
  rfl

/-! ### Classes -/

/-- The bases and what follows the colon, in a text that follows a class name. -/
def classEnding : Text → Option (Option (List Text × Text))
  | ':' :: trailing => some (some ([], trailing))
  | '(' :: t =>
    match ClassHeader.cutBases? t with
    | none => some none
    | some (bases, trailing) =>
      (splitTop ',' bases).map fun pieces => some (pieces.filter (!·.isEmpty), trailing)
  | _ => some none

/-- The class header that a line holds. -/
def parseClass (line : Text) : Option (Option ClassHeader) :=
  if '\n' ∈ line then some none
  else
    let indent := Text.leadingSpaces line
    match (strip? "class " (line.drop indent)).bind takeName? with
    | none => some none
    | some (name, afterName) =>
      (classEnding afterName).map fun ending? =>
        ending?.map fun (bases, trailing) => { indent, name, bases, trailing }

/-- Does a base start with `Generic` and an opening bracket? -/
def isGeneric (base : Text) : Option Bool :=
  if startsWith "Generic" base then
    (sliceFrom base (utf8Size "Generic")).map (startsWith "[" ·)
  else some false

/-- What a base of the class `className` contributes. -/
def roleOf (className base : Text) : Checked BaseRole :=
  match offsetOf? '=' base with
  | some equals => do
    let argument ← sliceTo base equals
    throw (.unsupportedClassArgument className (trim argument))
  | none => do
    let generic ← isGeneric base
    if generic then
      let span ← firstSpan base true
      let inner ← slice base (span.1 + 1) span.2
      let names ← splitTrim .square "," inner
      return .typeParams names
    else if base = "object" ∨ base = "ABC" then return .dropped
    else if base = "Exception" ∨ base = "BaseException" then return .parent "Error"
    else .parent <$> translateType .value base

/-- The header line of a class whose bases contribute `roles`. -/
def classLine (h : ClassHeader) (roles : List BaseRole) : Except Error Text :=
  let typeParams := roles.flatMap BaseRole.names
  let generics : Text :=
    if typeParams.isEmpty then [] else "<" ++ join ", " typeParams ++ ">"
  let start := spaces h.indent ++ "class " ++ h.name ++ generics
  match roles.filterMap BaseRole.parent? with
  | [] => .ok (start ++ " \x7b" ++ h.trailing)
  | [parent] => .ok (start ++ " extends " ++ parent ++ " \x7b" ++ h.trailing)
  | parents => .error (.multipleInheritance h.name parents)

/-- The header line of a class in the target. -/
def renderClass (h : ClassHeader) : Checked Text := do
  let roles ← h.bases.mapM (roleOf h.name)
  total (classLine h roles)

lemma classEnding_eq (t : Text) : classEnding t = some (ClassHeader.ending? t) := by
  fun_cases classEnding t with
  | case1 trailing => rfl
  | case2 t hcut => simp [ClassHeader.ending?, hcut]
  | case3 t bases trailing hcut => simp [ClassHeader.ending?, hcut]
  | case4 t hcolon hparen =>
    unfold ClassHeader.ending?
    split
    · exact absurd rfl (hcolon _)
    · exact absurd rfl (hparen _)
    · rfl

@[simp] lemma parseClass_eq (line : Text) : parseClass line = some (ClassHeader.parse? line) := by
  unfold parseClass ClassHeader.parse?
  by_cases hnl : '\n' ∈ line
  · rw [if_pos hnl, if_pos hnl]
  · rw [if_neg hnl, if_neg hnl]
    dsimp only
    cases strip? "class " (line.drop (Text.leadingSpaces line)) with
    | none => rfl
    | some afterClass =>
      simp only [Option.bind_some, Option.bind_eq_bind]
      cases takeName? afterClass with
      | none => rfl
      | some parts =>
        simp only [classEnding_eq, Option.map_some, Option.bind_some]
        cases ClassHeader.ending? parts.2 <;> rfl

/-- A start in two parts is stripped part by part. -/
lemma strip?_append (first second t : Text) :
    strip? (first ++ second) t = (strip? first t).bind (strip? second) := by
  induction first generalizing t with
  | nil => simp [strip?]
  | cons c first ih =>
    cases t with
    | nil => simp [strip?]
    | cons d t =>
      by_cases hcd : c = d
      · simp [strip?, hcd, ih]
      · simp [strip?, hcd]

lemma isGeneric_eq (base : Text) : isGeneric base = some (startsWith "Generic[" base) := by
  have hwhole : startsWith "Generic[" base =
      ((strip? "Generic" base).bind (strip? "[")).isSome :=
    congrArg Option.isSome (strip?_append "Generic" "[" base)
  rw [hwhole, isGeneric, startsWith]
  cases hstart : strip? "Generic" base with
  | none => rfl
  | some rest =>
    obtain rfl := strip?_eq_some_iff.1 hstart
    rw [sliceFrom_append]
    rfl

lemma roleOf_eq (className base : Text) :
    roleOf className base = total (ClassHeader.roleOf className base) := by
  unfold roleOf ClassHeader.roleOf offsetOf?
  cases hcut : cutAtChar? '=' base with
  | some parts =>
    simp only [Option.map_some, (slice_of_cutAtChar? rfl hcut).1]
    rfl
  | none =>
    simp only [Option.map_none, isGeneric_eq, lift_some, total_bind, firstSpan_eq, translateType_eq]
    by_cases hgeneric : startsWith "Generic[" base = true
    · simp only [hgeneric, ↓reduceIte]
      cases hspan : BracketSpan.first base true with
      | error e => rfl
      | ok span =>
        change ((liftM (slice base (span.openOffset + 1) span.closeOffset) : Checked Text) >>= _) =
          _
        simp only [(slice_of_first hspan).2, lift_some, total_bind, splitTrim_eq]
        rfl
    · rw [Bool.not_eq_true] at hgeneric
      simp only [hgeneric, Bool.false_eq_true, ↓reduceIte, pure_eq_total, map_total,
        apply_ite total]

lemma renderClass_eq (h : ClassHeader) : renderClass h = total h.render := by
  rw [renderClass, mapM_eq_total fun base _ => roleOf_eq h.name base, total_bind_total]
  rfl

/-! ### Parameters -/

/-- The parameter whose name and type are `head`. -/
def paramOfHead (head : Text) (default? : Option Text) : Option Param :=
  match offsetOf? ':' head with
  | some colon =>
    (sliceFrom head (colon + 1)).bind fun type => (sliceTo head colon).bind fun name =>
      (camelCase (trim name)).map fun name =>
        { name, type? := if isBlank type then none else some (trim type), default? }
  | none => (camelCase (trim head)).map fun name => { name, default? }

/-- Reads `name`, `name: type`, `name = default` or `name: type = default`. -/
def parseParam (segment : Text) : Option Param :=
  let text := trim segment
  (defaultSeparator text).bind fun equals? =>
    match equals? with
    | some equals =>
      (sliceTo text equals).bind fun head => (sliceFrom text (equals + 1)).bind fun value =>
        paramOfHead head (some (trim value))
    | none => paramOfHead text none

/-- The type of a parameter in the target, if one is given. -/
def convertParamType (p : Param) : Checked (Option Text) :=
  match p.type? with
  | some type => some <$> translateType .value type
  | none => return none

/-- A parameter with a type in the target. -/
def paramText (p : Param) (type? : Option Text) : Text :=
  let annotation : Text := match type? with
    | some type => ": " ++ type
    | none => []
  let default : Text := match p.value? with
    | some value => " = " ++ value
    | none => []
  p.name ++ annotation ++ default

/-- A positional parameter in the target. -/
def renderParam (p : Param) : Checked Text :=
  paramText p <$> convertParamType p

/-- The field of a keyword-only parameter. -/
def fieldOfParam (p : Param) : Checked Field := do
  match ← convertParamType p with
  | none => throw (.missingKeywordType p.name)
  | some type => return ⟨p.name, type, p.value?⟩

/-- The parameter list of some segments; `keyword` after a lone `*`. -/
def paramsOfSegments : (keyword : Bool) → List Text → Checked ParamList
  | _, [] => return {}
  | keyword, segment :: rest =>
    if segment.isEmpty ∨ segment = "/" then paramsOfSegments keyword rest
    else if segment = "*" then paramsOfSegments true rest
    else if startsWith "*" segment then throw (.unsupportedParameter segment)
    else do
      let param ← parseParam segment
      let list ← paramsOfSegments keyword rest
      return if keyword then { list with keywordOnly := param :: list.keywordOnly }
        else { list with positional := param :: list.positional }

/-- A parameter list in the target. -/
def renderParams (list : ParamList) : Checked Text := do
  let positional ← list.positional.mapM renderParam
  if list.keywordOnly.isEmpty then return join ", " positional
  else
    let fields ← list.keywordOnly.mapM fieldOfParam
    return join ", " (positional ++ [ParamList.renderObject fields list.hasOptional])

/-- The parameter list between the parentheses of a signature, in the target. -/
def convertParams (text : Text) : Checked Text := do
  let segments ← splitTop ',' text
  let list ← paramsOfSegments false segments
  renderParams list

lemma paramOfHead_eq (head : Text) (default? : Option Text) :
    paramOfHead head default? = some (Param.ofHead head default?) := by
  unfold paramOfHead Param.ofHead offsetOf?
  cases hcut : cutAtChar? ':' head with
  | none => simp
  | some parts =>
    obtain ⟨hto, hfrom⟩ := slice_of_cutAtChar? rfl hcut
    simp [hto, hfrom]

@[simp] lemma parseParam_eq (segment : Text) :
    parseParam segment = some (Param.parse segment) := by
  rw [Param.parse_eq, parseParam, defaultSeparator_eq]
  cases hcut : cutDefault? (trim segment) with
  | none => exact paramOfHead_eq _ _
  | some parts =>
    obtain ⟨hto, hfrom⟩ := slice_of_cutDefault? hcut
    simp [hto, hfrom, paramOfHead_eq]

lemma convertParamType_eq (p : Param) : convertParamType p = total p.convertType := by
  unfold convertParamType Param.convertType
  cases p.type? with
  | none => rfl
  | some type => simp only [translateType_eq, map_total]

lemma renderParam_eq (p : Param) : renderParam p = total p.render := by
  rw [renderParam, convertParamType_eq, map_total]
  rfl

lemma fieldOfParam_eq (p : Param) : fieldOfParam p = total (Field.ofParam p) := by
  rw [fieldOfParam, convertParamType_eq, Field.ofParam]
  match p.convertType with
  | .error _ | .ok none | .ok (some _) => rfl

lemma paramsOfSegments_eq (keyword : Bool) (segments : List Text) :
    paramsOfSegments keyword segments = total (ParamList.ofSegments keyword segments) := by
  induction segments generalizing keyword with
  | nil => rfl
  | cons segment rest ih =>
    unfold paramsOfSegments ParamList.ofSegments
    simp only [parseParam_eq, lift_some, total_bind]
    simp only [ih, pure_eq_total, throw_eq_total, total_bind_total, apply_ite total]
    rfl

lemma renderParams_eq (list : ParamList) : renderParams list = total list.render := by
  unfold renderParams ParamList.render ParamList.fields
  rw [mapM_eq_total fun p _ => renderParam_eq p, mapM_eq_total fun p _ => fieldOfParam_eq p]
  simp only [pure_eq_total, total_bind_total, ← apply_ite total]
  rfl

lemma convertParams_eq (text : Text) : convertParams text = total (Rebrace.convertParams text) := by
  rw [convertParams, splitTop_eq, lift_some, total_bind]
  simp only [paramsOfSegments_eq, renderParams_eq, total_bind_total]
  rfl

/-! ### Signatures -/

/-- The entries of a list from an index on; a fault behind the end of the list. -/
def entriesFrom (items : List Text) (start : Nat) : Option (List Text) :=
  if start ≤ items.length then some (items.drop start) else none

/-- The kind of a function with these parameters, and the parameters without the owner. -/
def kindOf (indent : Nat) (segments : List Text) : Option (Option (DefKind × Text)) :=
  if 0 < indent ∧ segments.head?.any Signature.isOwner then
    (entriesFrom segments 1).map fun rest => some (.method, join ", " rest)
  else if indent = 0 then some (some (.function, join ", " segments))
  else some none

/-- The function header that a line holds. -/
def parseSignature (line : Text) : Option (Option Signature) :=
  if '\n' ∈ line then some none
  else
    let indent := Text.leadingSpaces line
    match ((strip? "def " (line.drop indent)).bind takeName?).bind fun parts =>
      (strip? "(" parts.2).bind fun inside =>
        (Signature.cutParams? inside).map fun ending => (parts.1, ending) with
    | none => some none
    | some (name, text, result?, trailing) =>
      (splitTop ',' text).bind fun segments => (kindOf indent segments).map fun kind? =>
        kind?.map fun (kind, params) => { indent, kind, name, params, result?, trailing }

/-- The spelling of a method name in the target. -/
def spellMethod (name : Text) : Option Text :=
  spellBy methodTable name

/-- The result type of a function with the name `name` in the target. -/
def renderResult (s : Signature) (name : Text) : Checked Text :=
  match s.result? with
  | none => return []
  | some type =>
    if name = "constructor" then return []
    else (": " ++ ·) <$> translateType .result type

/-- The header line of a function in the target. -/
def renderSignature (s : Signature) : Checked Text := do
  let name ← spellMethod s.name
  let params ← convertParams s.params
  let result ← renderResult s name
  let start : Text := match s.kind with
    | .method => spaces s.indent
    | .function => "function "
  return start ++ name ++ "(" ++ params ++ ")" ++ result ++ " \x7b" ++ s.trailing

lemma kindOf_eq (indent : Nat) (segments : List Text) :
    kindOf indent segments = some (Signature.kindOf? indent segments) := by
  unfold kindOf Signature.kindOf?
  by_cases hindent : indent = 0
  · simp [hindent]
  · have hpos : 0 < indent := Nat.pos_of_ne_zero hindent
    cases segments with
    | nil => simp [hindent]
    | cons first rest =>
      cases howner : Signature.isOwner first <;> simp [hindent, hpos, howner, entriesFrom]

@[simp] lemma parseSignature_eq (line : Text) :
    parseSignature line = some (Signature.parse? line) := by
  unfold parseSignature Signature.parse?
  by_cases hnl : '\n' ∈ line
  · rw [if_pos hnl, if_pos hnl]
  · rw [if_neg hnl, if_neg hnl]
    dsimp only
    simp only [Option.bind_eq_bind]
    cases strip? "def " (line.drop (Text.leadingSpaces line)) with
    | none => rfl
    | some afterDef =>
      simp only [Option.bind_some]
      cases takeName? afterDef with
      | none => rfl
      | some parts =>
        simp only [Option.bind_some]
        cases strip? "(" parts.2 with
        | none => rfl
        | some inside =>
          simp only [Option.bind_some]
          cases Signature.cutParams? inside with
          | none => rfl
          | some ending =>
            simp only [Option.map_some, Option.bind_some, splitTop_eq, kindOf_eq]
            cases Signature.kindOf? (Text.leadingSpaces line) (Rebrace.splitTop ',' ending.1) with
            | none | some kind => rfl

lemma spellMethod_eq (name : Text) : spellMethod name = some (Rebrace.spellMethod name) :=
  spellBy_eq methodTable name

lemma renderResult_eq (s : Signature) :
    renderResult s (Rebrace.spellMethod s.name) = total s.renderResult := by
  unfold renderResult Signature.renderResult
  cases s.result? with
  | none => rfl
  | some type => simp only [translateType_eq, map_total, pure_eq_total, apply_ite total]

lemma renderSignature_eq (s : Signature) : renderSignature s = total s.render := by
  rw [renderSignature, spellMethod_eq, lift_some, total_bind]
  simp only [renderResult_eq, convertParams_eq, pure_eq_total, total_bind_total]
  rfl

/-! ### Declarations -/

/-- The declaration of the given sort that a line opens. -/
def parseDeclaration (kind : DeclarationKind) (line : Text) : Option (Option Declaration) :=
  match kind with
  | .classes => (parseClass line).map fun header? => header?.map .ofClass
  | .functions => (parseSignature line).map fun header? => header?.map .ofFunction

/-- The header line of a declaration in the target. -/
def renderDeclaration : Declaration → Checked Text
  | .ofClass header => renderClass header
  | .ofFunction header => renderSignature header

@[simp] lemma parseDeclaration_eq (kind : DeclarationKind) (line : Text) :
    parseDeclaration kind line = some (Declaration.parse? kind line) := by
  cases kind <;> simp [parseDeclaration, Declaration.parse?]

@[simp] lemma renderDeclaration_eq (d : Declaration) : renderDeclaration d = total d.render := by
  cases d with
  | ofClass header => exact renderClass_eq header
  | ofFunction header => exact renderSignature_eq header

end Rebrace.Positional
