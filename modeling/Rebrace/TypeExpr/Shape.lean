import Rebrace.Scan.Split

/-!
# The outermost construct of a type expression

A type expression is read from the outside in.  Its shape names the outermost construct and leaves
the parts as texts, each of them shorter than the whole.  The alternatives are tried in a fixed
order: a primitive name, `None`, a union written with bars, a name without brackets, and last a name
applied to the comma-separated texts between its brackets.
-/

namespace Rebrace

open Text

/-- The outermost construct of a type expression, with its parts still to be read. -/
inductive Shape where
  /-- A name with a fixed spelling in the target. -/
  | primitive (target : Text)
  /-- `None`. -/
  | absent
  /-- `A | B` or `Union[A, B]`. -/
  | union (members : List Text)
  /-- `Optional[T]`. -/
  | optional (item : Text)
  /-- `List[T]` and its other spellings. -/
  | sequence (item : Text)
  /-- `Dict[K, V]` and its other spellings. -/
  | mapping (key value : Text)
  /-- `Iterator[T]`. -/
  | iterator (item : Text)
  /-- `Iterable[T]`. -/
  | iterable (item : Text)
  /-- `Tuple[A, B]`. -/
  | tuple (items : List Text)
  /-- `Tuple[T, ...]`. -/
  | uniformTuple (item : Text)
  /-- `Callable[[A, B], R]`. -/
  | function (params : List Text) (result : Text)
  /-- `Callable[..., R]`. -/
  | anyFunction (result : Text)
  /-- Any other name applied to arguments. -/
  | generic (name : Text) (args : List Text)
  /-- Any other text without brackets. -/
  | named (name : Text)
  deriving DecidableEq

namespace Shape

/-- The primitive names. -/
def primitives : List (Text × Text) :=
  [("str", "string"), ("int", "number"), ("float", "number"), ("bool", "boolean"),
   ("Any", "any"), ("True", "true"), ("False", "false")]

/-- The texts that a shape leaves to be read. -/
def parts : Shape → List Text
  | primitive _ | absent | named _ => []
  | union members => members
  | optional item | sequence item | iterator item | iterable item | uniformTuple item => [item]
  | mapping key value => [key, value]
  | tuple items => items
  | function params result => result :: params
  | anyFunction result => [result]
  | generic _ args => args

/-! ### From a text to its shape -/

/-- The only argument of `construct`, in the expression `text`. -/
def single (construct : Text) (args : List Text) (text : Text) : Except Error Text :=
  match args with
  | [item] => .ok item
  | _ => .error (.arityMismatch construct 1 args.length text)

/-- The two arguments of `construct`, in the expression `text`. -/
def double (construct : Text) (args : List Text) (text : Text) : Except Error (Text × Text) :=
  match args with
  | [first, second] => .ok (first, second)
  | _ => .error (.arityMismatch construct 2 args.length text)

/-- The shape of a tuple: an ellipsis as the second of two items repeats the first. -/
def ofTuple : List Text → Shape
  | [item, last] => if last = "..." then uniformTuple item else tuple [item, last]
  | items => tuple items

/-- The shape of a function type. The parameters are an ellipsis, or a list in square brackets. -/
def ofFunction (params result : Text) : Except Error Shape :=
  if params = "..." then .ok (anyFunction result)
  else
    match (strip? "[" params).bind (stripEnd? "]") with
    | some inner => .ok (function (BracketPair.square.splitTrim "," inner) result)
    | none => .error (.noBracketFound params)

/-- The shape of `name` applied to `args`, in the expression `text`. -/
def ofApplication (name : Text) (args : List Text) (text : Text) : Except Error Shape :=
  if name = "Union" then .ok (union args)
  else if name = "Optional" then optional <$> single "Optional" args text
  else if name = "List" ∨ name = "list" ∨ name = "Sequence" then
    sequence <$> single "List" args text
  else if name = "Mapping" ∨ name = "Dict" ∨ name = "dict" then
    (fun pair => mapping pair.1 pair.2) <$> double "Mapping" args text
  else if name = "Iterator" then iterator <$> single "Iterator" args text
  else if name = "Iterable" then iterable <$> single "Iterable" args text
  else if name = "Tuple" ∨ name = "tuple" then .ok (ofTuple args)
  else if name = "Callable" then
    match double "Callable" args text with
    | .ok (params, result) => ofFunction params result
    | .error e => .error e
  else .ok (generic name args)

/-- The shape of a type expression without white space at its ends. -/
def classifyTrimmed (text : Text) : Except Error Shape :=
  match lookup? primitives text with
  | some target => .ok (primitive target)
  | none =>
    if text = "None" then .ok absent
    else
      let alternatives := BracketPair.square.splitTrim "|" text
      if 1 < alternatives.length then .ok (union alternatives)
      else if '[' ∉ text then .ok (named text)
      else
        match BracketSpan.first text true with
        | .error e => .error e
        | .ok span =>
          ofApplication (trim span.before) (BracketPair.square.splitTrim "," span.inner) text

/-- The shape of a type expression. -/
def classify (expr : Text) : Except Error Shape :=
  classifyTrimmed (trim expr)

/-! ### Parts are shorter than the whole -/

theorem eq_of_single {construct text item : Text} {args : List Text}
    (h : single construct args text = .ok item) : args = [item] := by
  unfold single at h
  split at h <;> simp_all

theorem eq_of_double {construct text : Text} {args : List Text} {pair : Text × Text}
    (h : double construct args text = .ok pair) : args = [pair.1, pair.2] := by
  unfold double at h
  split at h <;> simp_all
  simp [← h]

theorem mem_of_mem_ofTuple {part : Text} {args : List Text} (h : part ∈ (ofTuple args).parts) :
    part ∈ args := by
  unfold ofTuple at h
  split at h
  · split at h <;> simp_all [parts]
  · simpa [parts] using h

theorem length_le_of_mem_ofFunction {params result part : Text} {shape : Shape}
    (h : ofFunction params result = .ok shape) (hp : part ∈ shape.parts) :
    part.length ≤ params.length ∨ part = result := by
  unfold ofFunction at h
  split at h
  · simp only [Except.ok.injEq] at h
    subst h
    simp_all [parts]
  · split at h
    · rename_i inner hinner
      simp only [Except.ok.injEq] at h
      subst h
      rcases List.mem_cons.1 hp with rfl | hp
      · exact .inr rfl
      · refine .inl ?_
        have hle := BracketPair.length_le_of_mem_splitTrim hp
        obtain ⟨mid, hmid, hend⟩ := Option.bind_eq_some_iff.1 hinner
        obtain ⟨back, hback, rfl⟩ := Option.map_eq_some_iff.1 hend
        have hstart := congrArg List.length (strip?_eq_some_iff.1 hmid)
        have hstop := congrArg List.length (strip?_eq_some_iff.1 hback)
        simp at hstart hstop hle
        omega
    · simp at h

/-- The parts of an applied name are no longer than the longest of its arguments. -/
theorem length_le_of_mem_ofApplication {name text part : Text} {args : List Text} {shape : Shape}
    (h : ofApplication name args text = .ok shape) (hp : part ∈ shape.parts) :
    ∃ arg ∈ args, part.length ≤ arg.length := by
  have self : ∀ {item : Text}, item ∈ args → ∃ arg ∈ args, item.length ≤ arg.length :=
    fun hi => ⟨_, hi, Nat.le_refl _⟩
  have one : ∀ {construct : Text} {mk : Text → Shape}, (∀ item, (mk item).parts = [item]) →
      mk <$> single construct args text = .ok shape → ∃ arg ∈ args, part.length ≤ arg.length := by
    intro construct mk hmk h
    cases hs : single construct args text with
    | error e => simp only [hs, Functor.map, Except.map, reduceCtorEq] at h
    | ok item =>
      simp only [hs, Functor.map, Except.map, Except.ok.injEq] at h
      subst h
      rw [hmk, List.mem_singleton] at hp
      subst hp
      exact self (by simp [eq_of_single hs])
  unfold ofApplication at h
  split at h
  · cases h; exact self hp
  split at h
  · exact one (fun _ => rfl) h
  split at h
  · exact one (fun _ => rfl) h
  split at h
  · cases hd : double "Mapping" args text with
    | error e => simp only [hd, Functor.map, Except.map, reduceCtorEq] at h
    | ok pair =>
      simp only [hd, Functor.map, Except.map, Except.ok.injEq] at h
      subst h
      exact self (by rw [eq_of_double hd]; exact hp)
  split at h
  · exact one (fun _ => rfl) h
  split at h
  · exact one (fun _ => rfl) h
  split at h
  · cases h; exact self (mem_of_mem_ofTuple hp)
  split at h
  · split at h
    · rename_i params result hd
      have hargs := eq_of_double hd
      rcases length_le_of_mem_ofFunction h hp with hle | rfl
      · exact ⟨params, by simp [hargs], hle⟩
      · exact self (by simp [hargs])
    · simp at h
  · cases h; exact self hp

/-- The parts of a shape are shorter than the expression it was read from. -/
theorem length_lt_of_mem_parts {expr part : Text} {shape : Shape}
    (h : classify expr = .ok shape) (hp : part ∈ shape.parts) : part.length < expr.length := by
  refine Nat.lt_of_lt_of_le ?_ (length_trim_le expr)
  unfold classify classifyTrimmed at h
  split at h
  · cases h; simp [parts] at hp
  · split at h
    · cases h; simp [parts] at hp
    · simp only at h
      split at h
      · rename_i hmany
        cases h
        exact BracketPair.length_lt_of_mem_splitTrim (by simp) hmany hp
      · split at h
        · cases h; simp [parts] at hp
        · split at h
          · simp at h
          · rename_i hspan
            obtain ⟨arg, harg, hle⟩ := length_le_of_mem_ofApplication h hp
            have := BracketPair.length_le_of_mem_splitTrim harg
            have := BracketSpan.length_inner_lt hspan
            omega

end Shape

end Rebrace
