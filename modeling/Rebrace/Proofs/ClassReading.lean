import Mathlib.Data.List.Basic
import Rebrace.Header.ClassHeader
import Rebrace.Proofs.Pieces
import Rebrace.Proofs.SignatureReading

/-!
# Reading class headers

`ClassTree` is the syntax of class headers with bases as a tree.  The bases of a class are dropped,
renamed, collected as type parameters or translated as types; an argument by keyword makes the whole
header fail, and so does a second class to extend.  `ClassTree.target` says which of this happens:
the first argument by keyword counts before everything else, wherever it stands.
`ClassTree.map_render_parse?_print` states that a header is read and rendered as its tree is.

The value of an argument by keyword may be any text.  It can hold commas, and what it leaves open
changes how the bases behind it are split, but all of that comes too late to matter.
-/

namespace Rebrace

open Text

/-! ### Trees of class headers -/

/-- A name, perhaps with white space around it. -/
structure SpacedName where
  /-- The name with the white space. -/
  text : Text
  /-- There is a name. -/
  isDotted_trim : isDotted (trim text) = true

/-- The name itself. -/
def SpacedName.name (n : SpacedName) : Text :=
  trim n.text

/-- A base of a class. -/
inductive BaseTree where
  /-- A class that the target does not need. -/
  | dropped (name : Text) (h : name = "object" ∨ name = "ABC")
  /-- A class of errors. -/
  | error (name : Text) (h : name = "Exception" ∨ name = "BaseException")
  /-- `Generic` with type parameters. -/
  | generic (params : List SpacedName) (h : params ≠ [])
  /-- Any other type. -/
  | type (base : Annotation)
    (hname : base.tree.print ∉ (["object", "ABC", "Exception", "BaseException"] : List Text))
    (hgeneric : ¬ "Generic[".toList <+: base.tree.print)
  /-- An argument by keyword. -/
  | argument (name : SpacedName) (value : Text)

namespace BaseTree

/-- The text of a base. -/
def print : BaseTree → Text
  | dropped name _ | error name _ => name
  | generic params _ => "Generic[" ++ join "," (params.map SpacedName.text) ++ "]"
  | type base _ _ => base.tree.print
  | argument name value => name.text ++ "=" ++ value

/-- The name of an argument by keyword. -/
def argument? : BaseTree → Option Text
  | argument name _ => some name.name
  | dropped _ _ | error _ _ | generic _ _ | type _ _ _ => none

/-- The type parameters that a base contributes. -/
def typeParams : BaseTree → List Text
  | generic params _ => params.map SpacedName.name
  | dropped _ _ | error _ _ | type _ _ _ | argument _ _ => []

/-- The class to extend that a base contributes. -/
def parent? : BaseTree → Option Text
  | error _ _ => some "Error"
  | type base _ _ => some (base.tree.target .value)
  | dropped _ _ | generic _ _ | argument _ _ => none

end BaseTree

/-- The header of a class with bases. -/
structure ClassTree where
  /-- The number of spaces in front. -/
  indent : Nat
  /-- The name. -/
  name : Identifier
  /-- The bases. -/
  bases : List BaseTree
  /-- What follows the colon. -/
  trailing : Text
  /-- The bases do not look as if the header ended within them. -/
  not_ending : ¬ "):".toList <:+: join ", " (bases.map BaseTree.print)

namespace ClassTree

/-- The text between the parentheses. -/
def printBases (t : ClassTree) : Text :=
  join ", " (t.bases.map BaseTree.print)

/-- The header line. -/
def print (t : ClassTree) : Text :=
  spaces t.indent ++ "class " ++ t.name.text ++ "(" ++ t.printBases ++ "):" ++ t.trailing

/-- Type parameters in the target, if there are any. -/
def targetParams (params : List Text) : Text :=
  if params = [] then [] else "<" ++ join ", " params ++ ">"

/-- The class to extend in the target, if there is one. -/
def targetParent (parents : List Text) : Text :=
  match parents.head? with
  | some parent => " extends " ++ parent
  | none => []

/-- The header line in the target.  Arguments by keyword are refused first, and then a second class
to extend. -/
def target (t : ClassTree) : Except Error Text :=
  let params := t.bases.flatMap BaseTree.typeParams
  let parents := t.bases.filterMap BaseTree.parent?
  match t.bases.findSome? BaseTree.argument? with
  | some argument => .error (.unsupportedClassArgument t.name.text argument)
  | none =>
    if 1 < parents.length then .error (.multipleInheritance t.name.text parents)
    else .ok (spaces t.indent ++ "class " ++ t.name.text ++ targetParams params
      ++ targetParent parents ++ " \x7b" ++ t.trailing)

end ClassTree

/-! ### Names with white space around them -/

/-- A character that the scanner passes over: one of annotations, or white space. -/
def IsQuiet (c : Char) : Prop :=
  isTypeChar c = true ∨ isWhite c = true

namespace IsQuiet

variable {c : Char} (h : IsQuiet c)
include h

lemma ne (mark : Char) (hmark : isTypeChar mark = false) (hwhite : isWhite mark = false) :
    c ≠ mark := by
  rcases h with h | h
  · exact ne_of_isTypeChar h mark hmark
  · exact ne_of_isWhite h mark hwhite

lemma isQuoteMark_eq_false : isQuoteMark c = false := by
  rcases h with h | h
  · exact isQuoteMark_eq_false_of_isTypeChar h
  · exact isQuoteMark_eq_false_of_isWhite h

lemma nestAll_eq_zero : nestAll c = 0 := by
  rcases h with h | h
  · exact nestAll_eq_zero_of_isTypeChar h
  · exact nestAll_eq_zero_of_isWhite h

lemma square_nest_eq_zero : BracketPair.square.nest c = 0 := by
  rcases h with h | h
  · exact countsSquare_square.eq_zero c h
  · exact BracketPair.nest_of_isWhite (by decide) (by decide) c h

end IsQuiet

namespace SpacedName

variable (n : SpacedName)

/-- The characters around a name are white space. -/
lemma mem_text {c : Char} (hc : c ∈ n.text) : c ∈ n.name ∨ isWhite c = true := by
  obtain ⟨lead, tail, heq, hlead, htail⟩ := exists_eq_append_trim_append n.text
  rw [heq, List.mem_append, List.mem_append] at hc
  rcases hc with hc | hc | hc
  · exact Or.inr (hlead c hc)
  · exact Or.inl hc
  · exact Or.inr (htail c hc)

lemma isQuiet {c : Char} (hc : c ∈ n.text) : IsQuiet c := by
  rcases n.mem_text hc with hname | hwhite
  · rcases mem_of_isDotted n.isDotted_trim hname with hchar | rfl
    · exact Or.inl (by simp [isTypeChar, hchar])
    · exact Or.inl (by decide)
  · exact Or.inr hwhite

lemma comma_notMem : ',' ∉ n.text := by
  intro hmem
  rcases n.mem_text hmem with hname | hwhite
  · exact notMem_of_isDotted n.isDotted_trim (by decide) (by decide) hname
  · exact absurd hwhite (by decide)

lemma equals_notMem : '=' ∉ n.text :=
  fun hmem => (n.isQuiet hmem).ne '=' (by decide) (by decide) rfl

/-- A name is passed over, whatever brackets count. -/
lemma passes {nest : Char → Int} (hnest : ∀ c, IsQuiet c → nest c = 0) :
    Passes nest (· ≠ ',') n.text := by
  refine Passes.of_forall fun c hc => ?_
  have hquiet := n.isQuiet hc
  refine ⟨hnest c hquiet, hquiet.isQuoteMark_eq_false, ?_⟩
  rintro rfl
  exact n.comma_notMem hc

end SpacedName

/-! ### Type parameters -/

/-- A text without brackets is closed where the bracket behind it stands. -/
lemma enclosed?_of_forall {inner : Text} (h : ∀ c ∈ inner, BracketPair.square.nest c = 0)
    (after : Text) :
    BracketPair.square.enclosed? 0 (inner ++ ']' :: after) = some (inner, after) := by
  induction inner with
  | nil => rfl
  | cons c inner ih =>
    rw [List.forall_mem_cons] at h
    have hne : c ≠ BracketPair.square.opener ∧ c ≠ BracketPair.square.closer := by
      constructor
      · rintro rfl
        exact absurd h.1 (by decide)
      · rintro rfl
        exact absurd h.1 (by decide)
    rw [List.cons_append, BracketPair.enclosed?.eq_def]
    simp only
    rw [if_neg hne.1, if_neg hne.2, ih h.2]
    rfl

/-- Nothing is exposed between brackets. -/
lemma passes_bracket {inner : Text} (h : ∀ c ∈ inner, IsQuiet c) (p : Char → Prop) :
    Passes nestAll p ('[' :: (inner ++ [']'])) := by
  have hlevel : ∀ {u : Text}, (∀ c ∈ u, IsQuiet c) →
      Scan.run nestAll ⟨.outside, 1⟩ u = ⟨.outside, 1⟩ := by
    intro u hu
    have hzero : level nestAll u = 0 :=
      (isBalanced_of_forall fun c hc => (hu c hc).nestAll_eq_zero).level_eq
    rw [run_of_forall fun c hc => (hu c hc).isQuoteMark_eq_false, hzero, add_zero]
  have hopen : Scan.next nestAll {} '[' = ⟨.outside, 1⟩ := rfl
  refine ⟨?_, fun c hc => ?_⟩
  · rw [Scan.run_cons, hopen, Scan.run_append, hlevel h]
    rfl
  · rw [Scan.exposed_cons, hopen, if_neg (by decide), List.nil_append, Scan.exposed_append,
      hlevel h, List.mem_append] at hc
    rcases hc with hc | hc
    · obtain ⟨u, v, rfl, hexposes⟩ := Scan.mem_exposed_iff.1 hc
      rw [hlevel fun d hd => h d (List.mem_append_left _ hd)] at hexposes
      simp [Scan.exposes] at hexposes
    · cases hc

section Params

variable {params : List SpacedName}

/-- Between the brackets there are names, white space and commas. -/
lemma isQuiet_of_mem_join {c : Char} (hc : c ∈ join "," (params.map SpacedName.text)) :
    IsQuiet c := by
  by_contra hquiet
  refine notMem_join ?_ ?_ hc
  · intro hmem
    obtain rfl := List.mem_singleton.1 hmem
    exact hquiet (Or.inl (by decide))
  · intro u hu hmem
    obtain ⟨n, -, rfl⟩ := List.mem_map.1 hu
    exact hquiet (n.isQuiet hmem)

/-- The names are found between the commas. -/
lemma segments_join_names (h : params ≠ []) :
    Scan.segments BracketPair.square.nest ',' (join "," (params.map SpacedName.text)) =
      params.map SpacedName.text := by
  induction params with
  | nil => exact absurd rfl h
  | cons n params ih =>
    have hn := n.passes fun c hc => hc.square_nest_eq_zero
    cases params with
    | nil => simpa [join] using Scan.segments_of_passes hn
    | cons m params =>
      have hjoin : join "," ((n :: m :: params).map SpacedName.text) =
          n.text ++ ',' :: join "," ((m :: params).map SpacedName.text) := by
        simp [join, List.intercalate_cons_cons]
      rw [hjoin, Scan.segments_append_separator (by decide) (by decide) hn,
        ih (List.cons_ne_nil m params)]
      rfl

/-- The names are split at the commas, and the white space around them is lost. -/
lemma splitTrim_join_names (h : params ≠ []) :
    BracketPair.square.splitTrim "," (join "," (params.map SpacedName.text)) =
      params.map SpacedName.name := by
  refine (Scan.splitTrim_eq_split BracketPair.square ',' _).trans ?_
  change (dropBlankLast (Scan.segments BracketPair.square.nest ',' _)).map trim = _
  rw [segments_join_names h, dropBlankLast_eq_self, List.map_map]
  · rfl
  · intro last hlast
    obtain ⟨n, -, rfl⟩ := List.mem_map.1 (List.mem_of_getLast? hlast)
    have hne := (isTrimmed_of_isDotted n.isDotted_trim).ne_nil
    rwa [Ne, trim_eq_nil_iff, Bool.not_eq_true] at hne

end Params

/-! ### One base -/

namespace BaseTree

open ClassHeader

/-- The brackets of `Generic`. -/
lemma print_generic (params : List SpacedName) (h : params ≠ []) :
    (generic params h).print =
      "Generic" ++ '[' :: (join "," (params.map SpacedName.text) ++ [']']) :=
  List.append_assoc _ _ _

/-- A base that is no argument can be joined by commas with others. -/
lemma isPart_print {b : BaseTree} (h : b.argument? = none) : IsPart nestAll ',' b.print := by
  have hdotted : ∀ {name : Text}, isDotted name = true → IsPart nestAll ',' name := fun hname =>
    (sealed_of_isDotted hname fun _ hcomma _ => hcomma).isPart countsSquare_nestAll
      (isTrimmed_of_isDotted hname) (not_not.2 rfl)
  cases b with
  | dropped name hname =>
    rcases hname with rfl | rfl
    · exact hdotted (by decide)
    · exact hdotted (by decide)
  | error name hname =>
    rcases hname with rfl | rfl
    · exact hdotted (by decide)
    · exact hdotted (by decide)
  | generic params hne =>
    have hword : IsPart nestAll ',' "Generic" := hdotted (by decide)
    have hquiet : ∀ c ∈ join "," (params.map SpacedName.text), IsQuiet c :=
      fun c hc => isQuiet_of_mem_join hc
    have hbracket := passes_bracket hquiet (· ≠ ',')
    rw [print_generic]
    have hend : IsTrimmed [']'] := .of_trim_eq (by decide) (by decide)
    refine ⟨hword.trimmed.of_ends hend ⟨_, rfl⟩ ?_, hword.passes.append hbracket⟩
    exact ⟨"Generic" ++ '[' :: join "," (params.map SpacedName.text), by simp⟩
  | type base hname hgeneric =>
    obtain ⟨hsealed, htrimmed⟩ := TypeTree.sealed_print base.isWellFormed
    exact hsealed.isPart countsSquare_nestAll htrimmed fun hcomma => hcomma.1 rfl
  | argument name value => cases h

/-- `Generic` contributes the names between its brackets. -/
lemma roleOf_print_generic (params : List SpacedName) (hne : params ≠ []) (className : Text) :
    roleOf className (generic params hne).print =
      .ok (.typeParams (params.map SpacedName.name)) := by
  have hinner : ∀ c ∈ join "," (params.map SpacedName.text), BracketPair.square.nest c = 0 :=
    fun c hc => (isQuiet_of_mem_join hc).square_nest_eq_zero
  have hequals : '=' ∉ (generic params hne).print := by
    have hword : '=' ∉ ("Generic" : Text) := by decide
    have hjoin : '=' ∉ join "," (params.map SpacedName.text) :=
      fun hmem => (isQuiet_of_mem_join hmem).ne '=' (by decide) (by decide) rfl
    rw [print_generic, List.mem_append, List.mem_cons, List.mem_append, not_or, not_or, not_or]
    exact ⟨hword, by decide, hjoin, by decide⟩
  have hfirst : BracketSpan.first (generic params hne).print true =
      .ok ⟨"Generic", join "," (params.map SpacedName.text), []⟩ := by
    rw [print_generic]
    unfold BracketSpan.first
    rw [cutAtChar?_append (by decide)]
    simp only [enclosed?_of_forall hinner]
    rfl
  have hstarts : startsWith "Generic[" (generic params hne).print = true := by
    have hprint : (generic params hne).print =
        "Generic[" ++ (join "," (params.map SpacedName.text) ++ "]") := List.append_assoc _ _ _
    rw [startsWith, strip?_eq_some_iff.2 hprint]
    rfl
  unfold roleOf
  rw [cutAtChar?_eq_none hequals]
  simp only [hstarts, hfirst, if_true]
  rw [← splitTrim_join_names hne]
  rfl

/-- A type without a meaning of its own contributes a class to extend. -/
lemma roleOf_print_type (base : Annotation)
    (hname : base.tree.print ∉ (["object", "ABC", "Exception", "BaseException"] : List Text))
    (hgeneric : ¬ "Generic[".toList <+: base.tree.print) (className : Text) :
    roleOf className base.tree.print = .ok (.parent (base.tree.target .value)) := by
  have hequals : '=' ∉ base.tree.print :=
    TypeTree.notMem_print base.isWellFormed (by decide) (by decide) (by decide)
  have hstarts : startsWith "Generic[" base.tree.print = false := by
    rw [← Bool.not_eq_true]
    intro hstarts
    obtain ⟨rest, hrest⟩ := Option.isSome_iff_exists.1 hstarts
    exact hgeneric ⟨rest, (strip?_eq_some_iff.1 hrest).symm⟩
  have hconvert := base.tree.convert_eq_ok base.isWellFormed
    base.isArityCorrect .value
  simp only [List.mem_cons, List.not_mem_nil, or_false, not_or] at hname
  obtain ⟨hobject, habc, hexception, hbase⟩ := hname
  unfold roleOf
  rw [cutAtChar?_eq_none hequals]
  simp only [hstarts, hobject, habc, hexception, hbase, hconvert, or_false, if_false,
    Bool.false_eq_true]
  rfl

/-- **What a base contributes**, if it is no argument. -/
lemma exists_roleOf_print {b : BaseTree} (h : b.argument? = none) (className : Text) :
    ∃ role, roleOf className b.print = .ok role ∧ role.names = b.typeParams ∧
      role.parent? = b.parent? := by
  cases b with
  | dropped name hname =>
    rcases hname with rfl | rfl
    · exact ⟨.dropped, rfl, rfl, rfl⟩
    · exact ⟨.dropped, rfl, rfl, rfl⟩
  | error name hname =>
    rcases hname with rfl | rfl
    · exact ⟨.parent "Error", rfl, rfl, rfl⟩
    · exact ⟨.parent "Error", rfl, rfl, rfl⟩
  | generic params hne => exact ⟨_, roleOf_print_generic params hne className, rfl, rfl⟩
  | type base hname hgeneric =>
    exact ⟨_, roleOf_print_type base hname hgeneric className, rfl, rfl⟩
  | argument name value => cases h

/-- **What bases contribute**, if no argument is among them. -/
lemma exists_mapM_roleOf {bases : List BaseTree} (h : ∀ b ∈ bases, b.argument? = none)
    (className : Text) :
    ∃ roles, (bases.map print).mapM (roleOf className) = .ok roles ∧
      roles.flatMap BaseRole.names = bases.flatMap typeParams ∧
      roles.filterMap BaseRole.parent? = bases.filterMap parent? := by
  induction bases with
  | nil => exact ⟨[], rfl, rfl, rfl⟩
  | cons b bases ih =>
    rw [List.forall_mem_cons] at h
    obtain ⟨role, hrole, hnames, hparent⟩ := exists_roleOf_print h.1 className
    obtain ⟨roles, hroles, hallNames, hparents⟩ := ih h.2
    refine ⟨role :: roles, ?_, ?_, ?_⟩
    · rw [List.map_cons, List.mapM_cons, hrole, hroles]
      rfl
    · rw [List.flatMap_cons, List.flatMap_cons, hnames, hallNames]
    · rw [List.filterMap_cons, List.filterMap_cons, hparent, hparents]

/-- An argument by keyword is refused, with white space in front of it and any text behind it. -/
lemma roleOf_argument (className : Text) (n : SpacedName) (m : Nat) (rest : Text) :
    roleOf className (trim (spaces m ++ n.text ++ '=' :: rest)) =
      .error (.unsupportedClassArgument className n.name) := by
  have hname : trim (trimStart (spaces m ++ n.text)) = n.name := by
    unfold trim trimStart SpacedName.name
    rw [List.dropWhile_idempotent, List.dropWhile_append_of_pos fun c => isWhite_of_mem_spaces]
    rfl
  have hequals : '=' ∉ trimStart (spaces m ++ n.text) := by
    intro hmem
    rcases List.mem_append.1 ((List.dropWhile_suffix isWhite).subset hmem) with hmem | hmem
    · cases List.eq_of_mem_replicate hmem
    · exact n.equals_notMem hmem
  unfold roleOf
  rw [trim_append_cons (by decide), cutAtChar?_append hequals]
  simp only [hname]

end BaseTree

/-! ### The list of bases -/

/-- What follows a text in a join can be counted as a part of the text. -/
lemma exists_join_append_cons (separator : Text) (us : List Text) (u : Text) (vs : List Text) :
    ∃ rest, join separator (us ++ u :: vs) = join separator (us ++ [u ++ rest]) := by
  obtain ⟨rest, hrest⟩ : ∃ rest, join separator (u :: vs) = u ++ rest := by
    cases vs with
    | nil => exact ⟨[], by simp [join]⟩
    | cons v vs => exact ⟨separator ++ join separator (v :: vs), by
        simp [join, List.intercalate_cons_cons]⟩
  have hsingle : join separator [u ++ rest] = u ++ rest := by simp [join]
  refine ⟨rest, ?_⟩
  by_cases hnil : us = []
  · rw [hnil, List.nil_append, List.nil_append, hrest, hsingle]
  · rw [join_append separator hnil (List.cons_ne_nil u vs),
      join_append separator hnil (List.cons_ne_nil _ []), hrest, hsingle]

namespace ClassHeader

/-- The bases that are read from a text are its pieces, up to blank ones. -/
lemma filter_splitTop (t : Text) :
    (splitTop ',' t).filter (!·.isEmpty) =
      ((Scan.segments nestAll ',' t).map trim).filter (!·.isEmpty) := by
  rw [Scan.splitTop_eq_split]
  change ((dropBlankLast (Scan.segments nestAll ',' t)).map trim).filter _ = _
  rcases dropBlankLast_eq_or (Scan.segments nestAll ',' t) with heq | ⟨last, hblank, heq⟩
  · rw [heq]
  · nth_rewrite 2 [heq]
    simp [trim_eq_nil_of_isBlank hblank]

/-- A header is refused for its first base that is. -/
lemma render_of_error {h : ClassHeader} {e : Error}
    (herror : h.bases.mapM (roleOf h.name) = .error e) : h.render = .error e := by
  unfold render
  rw [herror]
  rfl

/-- A header is put together from what its bases contribute, unless there are two classes to
extend. -/
lemma render_of_ok {h : ClassHeader} {roles : List BaseRole}
    (hroles : h.bases.mapM (roleOf h.name) = .ok roles) :
    h.render =
      let parents := roles.filterMap BaseRole.parent?
      if 1 < parents.length then .error (.multipleInheritance h.name parents)
      else .ok (spaces h.indent ++ "class " ++ h.name
        ++ ClassTree.targetParams (roles.flatMap BaseRole.names) ++ ClassTree.targetParent parents
        ++ " \x7b" ++ h.trailing) := by
  have hparams : ∀ params : List Text,
      (if params.isEmpty then [] else ("<" ++ join ", " params ++ ">" : Text)) =
        ClassTree.targetParams params := by
    intro params
    simp only [ClassTree.targetParams, List.isEmpty_iff]
  unfold render
  rw [hroles]
  simp only [bind, Except.bind, hparams]
  generalize roles.filterMap BaseRole.parent? = parents
  match parents with
  | [] =>
    rw [if_neg (by decide), ClassTree.targetParent, List.head?_nil, List.append_nil]
    rfl
  | [parent] =>
    rw [if_neg (by simp), ClassTree.targetParent, List.head?_cons, ← List.append_assoc]
    rfl
  | first :: second :: more =>
    rw [if_pos (by simp)]
    rfl

/-- The bases end at the parenthesis behind them. -/
lemma cutBases?_append {inside : Text} (h : ¬ "):".toList <:+: inside) (trailing : Text) :
    cutBases? (inside ++ "):" ++ trailing) = some (inside, trailing) := by
  induction inside with
  | nil => rfl
  | cons c inside ih =>
    have hrest : ¬ "):".toList <:+: inside := fun hinfix => h (List.infix_cons hinfix)
    have hstrip : strip? "):" (c :: (inside ++ "):" ++ trailing)) = none := by
      rw [Option.eq_none_iff_forall_ne_some]
      intro rest hrest
      have heq := strip?_eq_some_iff.1 hrest
      obtain ⟨rfl, htail⟩ := List.cons.inj heq
      cases inside with
      | nil => cases htail
      | cons d inside =>
        obtain ⟨rfl, -⟩ := List.cons.inj htail
        exact h ⟨[], inside, rfl⟩
    rw [List.cons_append, List.cons_append, cutBases?, hstrip]
    simp only [ih hrest]
    rfl

end ClassHeader

namespace BaseTree

open ClassHeader

section Bases

variable {bases : List BaseTree} (h : ∀ b ∈ bases, b.argument? = none)
include h

/-- Bases without an argument among them can be joined by commas. -/
lemma isPart_of_mem_map_print : ∀ u ∈ bases.map print, IsPart nestAll ',' u := by
  intro u hu
  obtain ⟨b, hb, rfl⟩ := List.mem_map.1 hu
  exact isPart_print (h b hb)

lemma filter_map_print : (bases.map print).filter (!·.isEmpty) = bases.map print := by
  rw [List.filter_eq_self]
  intro u hu
  simpa using (isPart_of_mem_map_print h u hu).trimmed.ne_nil

/-- Bases without an argument among them are found as they were written. -/
lemma filter_splitTop_join :
    (splitTop ',' (join ", " (bases.map print))).filter (!·.isEmpty) = bases.map print := by
  rw [Segment.splitTop_join_commas (isPart_of_mem_map_print h), filter_map_print h]

/-- In front of a text with an equals sign behind a name, bases are found as they were written.  The
piece behind them begins with the name, wherever the text is cut. -/
lemma exists_filter_splitTop_join (n : SpacedName) (value : Text) :
    ∃ m rest others,
      (splitTop ',' (join ", " (bases.map print ++ [n.text ++ '=' :: value]))).filter (!·.isEmpty) =
        bases.map print ++ trim (spaces m ++ n.text ++ '=' :: rest) :: others := by
  obtain ⟨m, hm⟩ := Scan.exists_segments_join (by decide) (by decide) (by decide) (by decide) 0 1 0
    (isPart_of_mem_map_print h) (n.text ++ '=' :: value)
  have hequals : Passes nestAll (· ≠ ',') ['='] := .of_forall (forall_mem_of_all (by decide))
  have hpasses : Passes nestAll (· ≠ ',') (spaces m ++ n.text ++ ['=']) :=
    ((Scan.passes_spaces (by decide) (by decide) m).append
      (n.passes fun c hc => hc.nestAll_eq_zero)).append hequals
  have hsegments : Scan.segments nestAll ',' (spaces m ++ (n.text ++ '=' :: value)) =
      (spaces m ++ n.text ++ '=' :: (Scan.cut nestAll ',' {} value).1) ::
        (Scan.cut nestAll ',' {} value).2 := by
    have hcut := Scan.cut_append_of_passes hpasses value
    simp only [List.append_assoc, List.singleton_append] at hcut
    simp [Scan.segments, hcut]
  refine ⟨m, (Scan.cut nestAll ',' {} value).1,
    ((Scan.cut nestAll ',' {} value).2.map trim).filter (!·.isEmpty), ?_⟩
  have hne : (!(trim (spaces m ++ n.text ++ '=' :: (Scan.cut nestAll ',' {} value).1)).isEmpty) =
      true := by
    rw [trim_append_cons (by decide)]
    simp
  have hbases : ((Scan.segments nestAll ',' (join ", " (bases.map print ++
      [n.text ++ '=' :: value]))).map trim) = _ := hm
  rw [ClassHeader.filter_splitTop, hbases, hsegments, List.map_cons, List.filter_append,
    filter_map_print h, List.filter_cons, if_pos hne]

/-- Bases are refused for their first argument, whatever follows it. -/
lemma mapM_roleOf_of_argument {b : BaseTree} {name : Text} (hb : b.argument? = some name)
    (after : List BaseTree) (className : Text) :
    ((splitTop ',' (join ", " ((bases ++ b :: after).map print))).filter (!·.isEmpty)).mapM
        (roleOf className) =
      .error (.unsupportedClassArgument className name) := by
  obtain ⟨n, value, rfl⟩ : ∃ n value, b = argument n value := by
    cases b with
    | argument n value => exact ⟨n, value, rfl⟩
    | dropped | error | generic | type => cases hb
  obtain ⟨roles, hroles, -⟩ := exists_mapM_roleOf h className
  obtain ⟨rest, hrest⟩ := exists_join_append_cons ", " (bases.map print) (argument n value).print
    (after.map print)
  have hargument : (argument n value).print ++ rest = n.text ++ '=' :: (value ++ rest) := by
    change n.text ++ ['='] ++ value ++ rest = _
    simp
  rw [List.map_append, List.map_cons, hrest, hargument]
  obtain ⟨m, tail, others, hfilter⟩ := exists_filter_splitTop_join h n (value ++ rest)
  rw [hfilter, List.mapM_append, hroles, List.mapM_cons, roleOf_argument]
  cases hb
  rfl

end Bases

end BaseTree

/-! ### Headers -/

namespace ClassTree

variable (t : ClassTree)

/-- The header that is read from the text of a tree. -/
def toHeader : ClassHeader where
  indent := t.indent
  name := t.name.text
  bases := (splitTop ',' t.printBases).filter (!·.isEmpty)
  trailing := t.trailing

/-- **A header is read from its text**, if that is one line. -/
lemma parse?_print (h : '\n' ∉ t.print) : ClassHeader.parse? t.print = some t.toHeader := by
  have hprint : t.print = spaces t.indent ++ 'c' :: ("lass " ++ (t.name.text ++ '(' ::
      (t.printBases ++ "):" ++ t.trailing))) := by
    simp [print]
  have hindent : leadingSpaces t.print = t.indent := by
    rw [hprint]
    exact leadingSpaces_spaces_append_cons t.indent (by decide) _
  have hdrop : t.print.drop t.indent = "class " ++ (t.name.text ++ '(' ::
      (t.printBases ++ "):" ++ t.trailing)) := by
    rw [hprint]
    exact drop_spaces_append t.indent _
  have hname := takeName?_append t.name (c := '(') (by decide)
    (t.printBases ++ "):" ++ t.trailing)
  have hending : ClassHeader.ending? ('(' :: (t.printBases ++ "):" ++ t.trailing)) =
      some (t.toHeader.bases, t.trailing) := by
    have hcut := ClassHeader.cutBases?_append t.not_ending t.trailing
    rw [ClassHeader.ending?, printBases, hcut]
    rfl
  unfold ClassHeader.parse?
  simp only [if_neg h, hindent, hdrop, strip?_eq_some_iff.2 rfl, Option.bind_eq_bind,
    Option.bind_some, hname, hending]
  rfl

/-- **A header has its form in the target**, or is refused. -/
lemma render_toHeader : t.toHeader.render = t.target := by
  unfold target
  cases hfirst : t.bases.findSome? BaseTree.argument? with
  | some argument =>
    obtain ⟨before, b, after, hbases, hb, hbefore⟩ := List.findSome?_eq_some_iff.1 hfirst
    have herror := BaseTree.mapM_roleOf_of_argument hbefore hb after t.name.text
    rw [← hbases] at herror
    exact ClassHeader.render_of_error herror
  | none =>
    have hnone := List.findSome?_eq_none_iff.1 hfirst
    have hbases : t.toHeader.bases = t.bases.map BaseTree.print :=
      BaseTree.filter_splitTop_join hnone
    obtain ⟨roles, hroles, hnames, hparents⟩ := BaseTree.exists_mapM_roleOf hnone t.name.text
    rw [← hbases] at hroles
    have hrender := ClassHeader.render_of_ok (h := t.toHeader) hroles
    rw [hnames, hparents] at hrender
    exact hrender

/-- **Class headers are translated as their trees are.**  A header on one line is found, whatever
follows its colon, and what it is rendered to, or the error that it is refused with, is that of the
tree. -/
theorem map_render_parse?_print :
    (ClassHeader.parse? t.print).map ClassHeader.render =
      if '\n' ∈ t.print then none else some t.target := by
  by_cases hnewline : '\n' ∈ t.print
  · rw [if_pos hnewline, ClassHeader.parse?, if_pos hnewline]
    rfl
  · rw [if_neg hnewline, t.parse?_print hnewline, Option.map_some, t.render_toHeader]

/-- A class with a base to extend, one to drop and type parameters.  What follows the colon looks
like the end of a header, too. -/
theorem map_render_parse?_print_generic :
    ∃ t : ClassTree,
      t.print = "  class Walker(Base[int], ABC, Generic[K, V]): pass  # (x): y" ∧
      t.target = .ok "  class Walker<K, V> extends Base<number> \x7b pass  # (x): y" ∧
      (ClassHeader.parse? t.print).map ClassHeader.render = some t.target := by
  refine ⟨⟨2, ⟨"Walker", by decide, forall_mem_of_all (by decide)⟩,
    [.type ⟨.apply (.generic "Base") [.primitive "int"], by decide, by decide⟩ (by decide)
        (by decide),
      .dropped "ABC" (.inr rfl),
      .generic [⟨"K", by decide⟩, ⟨" V", by decide⟩] (by decide)],
    " pass  # (x): y", by decide⟩, ?_, ?_, ?_⟩
  · decide +kernel
  · decide +kernel
  · rw [map_render_parse?_print]
    decide +kernel

end ClassTree

end Rebrace
