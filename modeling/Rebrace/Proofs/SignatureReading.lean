import Mathlib.Data.List.Basic
import Rebrace.Proofs.Headers
import Rebrace.Proofs.SignatureSyntax
import Rebrace.Proofs.TypeReading

/-!
# Reading function headers

A function header is found by its last parenthesis, its parameters are split at commas, joined again
without the owner and split once more, and each of them is cut at an equals sign and at a colon.
This module shows that nothing gets lost or mixed up on the way, whatever default values hold:
`SignatureTree.exists_render_eq` says that a header is read and rendered as its tree is.
-/

namespace Rebrace

open Text

/-! ### Parts of headers -/

/-- The characters that a name and its type may expose. -/
def IsHeadChar (c : Char) : Prop :=
  c ≠ ',' ∧ c ≠ '='

instance : DecidablePred IsHeadChar :=
  fun c => inferInstanceAs (Decidable (c ≠ ',' ∧ c ≠ '='))

/-- A name is passed over. -/
lemma passes_of_isNameChar {name : Text} (h : ∀ c ∈ name, isNameChar c = true) :
    Passes nestAll IsHeadChar name := by
  refine Passes.of_forall fun c hc => ?_
  have hname := h c hc
  have hchar : isTypeChar c = true := by simp [isTypeChar, isIdentifierChar, hname]
  refine ⟨nestAll_eq_zero_of_isTypeChar hchar, isQuoteMark_eq_false_of_isTypeChar hchar, ?_, ?_⟩
  · rintro rfl
    exact absurd hname (by decide)
  · rintro rfl
    exact absurd hname (by decide)

/-- There is no white space in a name. -/
lemma isTrimmed_of_isNameChar {name : Text} (hne : name ≠ [])
    (h : ∀ c ∈ name, isNameChar c = true) : IsTrimmed name := by
  have hwhite : ∀ c ∈ name, isWhite c = false :=
    fun c hc => isWhite_eq_false_of_isNameChar (h c hc)
  exact ⟨hne, fun c hc => hwhite c (List.mem_of_head? hc),
    fun c hc => hwhite c (List.mem_of_getLast? hc)⟩

/-- Only characters of names are in a name. -/
lemma notMem_of_isNameChar {name : Text} (h : ∀ c ∈ name, isNameChar c = true) {c : Char}
    (hc : isNameChar c = false) : c ∉ name := by
  intro hmem
  rw [h c hmem] at hc
  cases hc

/-- The characters of the text of a tree. -/
lemma TypeTree.notMem_print {t : TypeTree} (h : t.isWellFormed = true) {c : Char}
    (hc : isTypeChar c = false) (hopen : c ≠ '[') (hclose : c ≠ ']') : c ∉ t.print := by
  intro hmem
  rcases (sealed_print h).1.mem hmem with hchar | hchar | hchar
  · rw [hchar] at hc
    cases hc
  · exact hopen hchar
  · exact hclose hchar

/-- The text of a tree exposes neither commas nor equals signs. -/
lemma TypeTree.passes_print {t : TypeTree} (h : t.isWellFormed = true) :
    Passes nestAll IsHeadChar t.print := by
  have hpasses := (sealed_print h).1.passes countsSquare_nestAll
  refine ⟨hpasses.run_eq, fun c hc => ⟨(hpasses.exposed c hc).1, ?_⟩⟩
  rintro rfl
  exact notMem_print h (by decide) (by decide) (by decide) (Scan.mem_of_mem_exposed hc)

/-- Reads a name with its type, in front of the default value. -/
def Param.ofHead (head : Text) (default? : Option Text) : Param :=
  match cutAtChar? ':' head with
  | some (name, type) =>
    { name := camelCase (trim name)
      type? := if isBlank type then none else some (trim type)
      default? }
  | none => { name := camelCase (trim head), default? }

/-- A parameter is cut at its default value, and what stands in front of it at its type. -/
lemma Param.parse_eq (segment : Text) :
    Param.parse segment =
      match cutDefault? (trim segment) with
      | some (head, value) => Param.ofHead head (some (trim value))
      | none => Param.ofHead (trim segment) none := by
  unfold Param.parse
  simp only
  cases cutDefault? (trim segment) <;> rfl

section Typed

variable {name : Text} {type? : Option TypeTree} (hne : name ≠ [])
  (hname : ∀ c ∈ name, isNameChar c = true) (htype : ∀ t ∈ type?, t.isWellFormed = true)
include hname htype

/-- A name with its type is passed over. -/
lemma passes_printTyped : Passes nestAll IsHeadChar (printTyped name type?) := by
  have hpasses := passes_of_isNameChar hname
  cases type? with
  | none => exact hpasses
  | some t =>
    have hcolon : Passes nestAll IsHeadChar ": " :=
      Passes.of_forall (forall_mem_of_all (by decide))
    exact (hpasses.append hcolon).append (TypeTree.passes_print (htype t rfl))

include hne in
/-- There is no white space around a name with its type. -/
lemma isTrimmed_printTyped : IsTrimmed (printTyped name type?) := by
  have htrimmed := isTrimmed_of_isNameChar hne hname
  cases type? with
  | none => exact htrimmed
  | some t =>
    exact htrimmed.of_ends (TypeTree.sealed_print (htype t rfl)).2 ⟨": " ++ t.print, by
      simp [printTyped]⟩ ⟨name ++ ": ", rfl⟩

/-- A character that is neither in names nor in types, nor between them. -/
lemma notMem_printTyped {c : Char} (hc : isTypeChar c = false) (hopen : c ≠ '[') (hclose : c ≠ ']')
    (hcolon : c ≠ ':') : c ∉ printTyped name type? := by
  have hchar : isNameChar c = false := by
    simp only [isTypeChar, isIdentifierChar, Bool.or_eq_false_iff] at hc
    exact hc.1.1.1.1.1
  have hnotMem := notMem_of_isNameChar hname hchar
  cases type? with
  | none => exact hnotMem
  | some t =>
    have hspace : c ≠ ' ' := by
      rintro rfl
      exact absurd hc (by decide)
    have ht := TypeTree.notMem_print (htype t rfl) hc hopen hclose
    simp [printTyped, hnotMem, hcolon, hspace, ht]

include hne in
/-- A name with its type is cut at the colon between them, also in front of white space. -/
lemma ofHead_printTyped {tail : Text} (htail : ∀ c ∈ tail, isWhite c = true)
    (default? : Option Text) :
    Param.ofHead (printTyped name type? ++ tail) default? =
      ⟨camelCase name, type?.map TypeTree.print, default?⟩ := by
  have htrimmed := isTrimmed_of_isNameChar hne hname
  have hcolon : ':' ∉ name := notMem_of_isNameChar hname (by decide)
  unfold Param.ofHead
  cases type? with
  | none =>
    have htail' : ':' ∉ tail := fun hmem => absurd (htail ':' hmem) (by decide)
    have hcut : cutAtChar? ':' (name ++ tail) = none :=
      cutAtChar?_eq_none (by simp [hcolon, htail'])
    have htrim := htrimmed.trim_append (List.forall_mem_nil _) htail
    rw [List.nil_append] at htrim
    simp only [printTyped, hcut, htrim, Option.map_none]
  | some t =>
    have ht := (TypeTree.sealed_print (htype t rfl)).2
    have hspace : ∀ c ∈ (" " : Text), isWhite c = true := forall_mem_of_all (by decide)
    have htrim := ht.trim_append hspace htail
    have hblank : isBlank (" " ++ (t.print ++ tail)) = false := by
      by_contra hblank
      rw [Bool.not_eq_false] at hblank
      rw [trim_eq_nil_of_isBlank hblank] at htrim
      exact ht.ne_nil htrim.symm
    have hcut : cutAtChar? ':' (printTyped name (some t) ++ tail) =
        some (name, " " ++ (t.print ++ tail)) := by
      have happend : printTyped name (some t) ++ tail =
          name ++ ':' :: (" " ++ (t.print ++ tail)) := by simp [printTyped]
      rw [happend]
      exact cutAtChar?_append hcolon _
    simp only [hcut, hblank, htrim, htrimmed.trim_eq, Bool.false_eq_true, ↓reduceIte,
      Option.map_some]

end Typed

/-- A default value has no white space at its ends. -/
lemma DefaultValue.isTrimmed (d : DefaultValue) : IsTrimmed d.text :=
  .of_trim_eq d.ne_nil d.trim_eq

/-- A default value does not expose commas. -/
lemma DefaultValue.passes (d : DefaultValue) : Passes nestAll (· ≠ ',') d.text := by
  refine ⟨d.run_eq, ?_⟩
  rintro c hc rfl
  exact d.comma_notMem hc

/-! ### One parameter -/

namespace ParamTree

/-- The parameter that is read from the text of a tree. -/
def toParam (p : ParamTree) : Param where
  name := camelCase p.name.text
  type? := p.type?.map fun type => type.tree.print
  default? := p.default?.map DefaultValue.text

variable (p : ParamTree)

lemma isWellFormed_of_mem_type? : ∀ t ∈ p.type?.map Annotation.tree, t.isWellFormed = true := by
  intro t ht
  obtain ⟨type, -, rfl⟩ := Option.map_eq_some_iff.1 ht
  exact type.isWellFormed

/-- The name and the type of a parameter are passed over. -/
lemma passes_printHead : Passes nestAll IsHeadChar p.printHead :=
  passes_printTyped p.name.chars p.isWellFormed_of_mem_type?

/-- There is no white space around the name and the type of a parameter. -/
lemma isTrimmed_printHead : IsTrimmed p.printHead :=
  isTrimmed_printTyped p.name.ne_nil p.name.chars p.isWellFormed_of_mem_type?

/-- The text of a parameter starts with its name. -/
lemma exists_print_eq_cons : ∃ c rest, p.print = c :: rest ∧ isNameChar c = true := by
  obtain ⟨c, letters, hname⟩ := List.exists_cons_of_ne_nil p.name.ne_nil
  have hhead : p.name.text <+: p.printHead := by
    unfold printHead printTyped
    split
    · exact ⟨": " ++ TypeTree.print _, by rw [List.append_assoc]⟩
    · exact List.prefix_rfl
  have hprint : p.printHead <+: p.print := by
    unfold print
    split
    · exact ⟨" = " ++ DefaultValue.text _, by rw [List.append_assoc]⟩
    · exact List.prefix_rfl
  obtain ⟨rest, hrest⟩ := hhead.trans hprint
  rw [hname, List.cons_append] at hrest
  exact ⟨c, letters ++ rest, hrest.symm, p.name.chars c (by simp [hname])⟩

/-- A parameter can be joined by commas with others. -/
lemma isPart_print : IsPart nestAll ',' p.print := by
  have hhead := p.passes_printHead.mono (q := (· ≠ ',')) fun c hc => hc.1
  unfold print
  cases p.default? with
  | none => exact ⟨p.isTrimmed_printHead, hhead⟩
  | some default =>
    have hequals : Passes nestAll (· ≠ ',') " = " :=
      Passes.of_forall (forall_mem_of_all (by decide))
    refine ⟨?_, (hhead.append hequals).append default.passes⟩
    exact p.isTrimmed_printHead.of_ends default.isTrimmed ⟨" = " ++ default.text, by simp⟩
      ⟨p.printHead ++ " = ", rfl⟩

/-- The first equals sign outside of brackets is the one in front of the default value. -/
lemma cutDefault?_append (value : Text) :
    cutDefault? (p.printHead ++ " = " ++ value) = some (p.printHead ++ " ", " " ++ value) := by
  have hspace : Passes nestAll IsHeadChar " " := Passes.of_forall (forall_mem_of_all (by decide))
  have hpasses := p.passes_printHead.append hspace
  have hlast : (p.printHead ++ " ").getLast? = some ' ' :=
    List.getLast?_append_of_ne_nil _ (by decide)
  have happend : p.printHead ++ " = " ++ value = (p.printHead ++ " ") ++ ("= " ++ value) := by simp
  have hstop : ∀ c ∈ Scan.exposed nestAll {} (p.printHead ++ " "), ∀ previous following,
      isLoneEquals previous c following = false := by
    intro c hc previous following
    simp [isLoneEquals, (hpasses.exposed c hc).2]
  have hequals : cutExposedFrom? isLoneEquals (some ' ') {} ("= " ++ value) =
      some ([], " " ++ value) := rfl
  unfold cutDefault?
  rw [happend, cutExposedFrom?_append hstop, hpasses.run_eq, hlast, Option.some_or, hequals]
  simp

/-- The text of a parameter without a default value has no equals sign outside of brackets. -/
lemma cutDefault?_printHead : cutDefault? p.printHead = none := by
  have hstop : ∀ c ∈ Scan.exposed nestAll {} p.printHead, ∀ previous following,
      isLoneEquals previous c following = false := by
    intro c hc previous following
    simp [isLoneEquals, (p.passes_printHead.exposed c hc).2]
  have hcut := cutExposedFrom?_append hstop none []
  rw [List.append_nil] at hcut
  exact hcut

/-- **A parameter is read from its text.** -/
lemma parse_print : Param.parse p.print = p.toParam := by
  have hhead : ∀ {tail : Text}, (∀ c ∈ tail, isWhite c = true) → ∀ default? : Option Text,
      Param.ofHead (p.printHead ++ tail) default? =
        ⟨camelCase p.name.text, (p.type?.map Annotation.tree).map TypeTree.print, default?⟩ :=
    fun htail => ofHead_printTyped p.name.ne_nil p.name.chars p.isWellFormed_of_mem_type? htail
  have hspace : ∀ c ∈ (" " : Text), isWhite c = true := forall_mem_of_all (by decide)
  rw [Param.parse_eq, p.isPart_print.trimmed.trim_eq]
  unfold toParam print
  cases p.default? with
  | none =>
    have hplain := hhead (List.forall_mem_nil _) none
    rw [List.append_nil] at hplain
    simp only [p.cutDefault?_printHead, hplain, Option.map_map]
    rfl
  | some default =>
    have htrim := default.isTrimmed.trim_append hspace (List.forall_mem_nil _)
    rw [List.append_nil] at htrim
    simp only [p.cutDefault?_append, hhead hspace, htrim, Option.map_map]
    rfl

/-- The type of a parameter is translated. -/
lemma convertType_toParam : p.toParam.convertType = .ok p.targetType? := by
  unfold Param.convertType toParam targetType?
  cases p.type? with
  | none => rfl
  | some type =>
    have hconvert := type.tree.convert_eq_ok type.isWellFormed type.isArityCorrect .value
    simp only [Option.map_some, hconvert]
    rfl

/-- The default value of a parameter is translated. -/
lemma value?_toParam : p.toParam.value? = p.value? := by
  simp [Param.value?, toParam, value?, Function.comp_def]

/-- A positional parameter has its form in the target. -/
lemma render_toParam : p.toParam.render = .ok p.target := by
  unfold Param.render
  rw [p.convertType_toParam, p.value?_toParam]
  rfl

/-- A keyword-only parameter with a type becomes a field. -/
lemma ofParam_toParam : Field.ofParam p.toParam =
    match p.targetType? with
    | some type => .ok ⟨camelCase p.name.text, type, p.value?⟩
    | none => .error (.missingKeywordType (camelCase p.name.text)) := by
  unfold Field.ofParam
  rw [p.convertType_toParam, p.value?_toParam]
  cases p.targetType? <;> rfl

end ParamTree

/-! ### Parameter lists -/

/-- A list in which nothing fails. -/
lemma mapM_eq_ok {α β : Type} {f : α → Except Error β} {g : α → β} {l : List α}
    (h : ∀ a ∈ l, f a = .ok (g a)) : l.mapM f = .ok (l.map g) := by
  induction l with
  | nil => rfl
  | cons a l ih =>
    obtain ⟨ha, hl⟩ := List.forall_mem_cons.1 h
    rw [List.mapM_cons, ha, ih hl]
    rfl

namespace Segment

/-- A segment can be joined by commas with others. -/
lemma isPart_print (s : Segment) : IsPart nestAll ',' s.print := by
  have hslash : IsPart nestAll ',' "/" :=
    ⟨.of_trim_eq (by decide) (by decide), .of_forall (forall_mem_of_all (by decide))⟩
  have hstar : IsPart nestAll ',' "*" :=
    ⟨.of_trim_eq (by decide) (by decide), .of_forall (forall_mem_of_all (by decide))⟩
  have hstars : ∀ {u : Text}, IsPart nestAll ',' u → IsPart nestAll ',' ("*" ++ u) := by
    intro u hu
    exact ⟨hstar.trimmed.of_ends hu.trimmed ⟨u, rfl⟩ ⟨"*", rfl⟩, hstar.passes.append hu.passes⟩
  match s with
  | slash => exact hslash
  | star => exact hstar
  | param p => exact p.isPart_print
  | variadic false p => exact hstars p.isPart_print
  | variadic true p => exact hstars (hstars p.isPart_print)

/-- A collecting segment starts with a star and does not end there. -/
lemma exists_print_variadic (twice : Bool) (p : ParamTree) :
    ∃ c rest, (variadic twice p).print = '*' :: c :: rest := by
  obtain ⟨c, rest, hprint, -⟩ := p.exists_print_eq_cons
  cases twice with
  | false => exact ⟨c, rest, congrArg (List.cons '*') hprint⟩
  | true => exact ⟨'*', p.print, rfl⟩

/-- The parameters of a list; all of them are keyword-only behind a star. -/
def paramList (keyword : Bool) (segments : List Segment) : ParamList :=
  if keyword then ⟨[], (segments.filterMap param?).map ParamTree.toParam⟩
  else ⟨(positional segments).map ParamTree.toParam, (keywordOnly segments).map ParamTree.toParam⟩

/-- **The segments are sorted into parameters**, unless one of them collects arguments. -/
lemma ofSegments_map_print (keyword : Bool) (segments : List Segment) :
    ParamList.ofSegments keyword (segments.map print) =
      match segments.find? isVariadic with
      | some segment => .error (.unsupportedParameter segment.print)
      | none => .ok (paramList keyword segments) := by
  induction segments generalizing keyword with
  | nil => cases keyword <;> rfl
  | cons segment segments ih =>
    rw [List.map_cons, ParamList.ofSegments]
    cases segment with
    | slash =>
      have hmark : slash.print.isEmpty = true ∨ slash.print = "/" := Or.inr rfl
      rw [if_pos hmark, ih]
      rfl
    | star =>
      have hmark : ¬(star.print.isEmpty = true ∨ star.print = "/") := by decide
      have hlone : star.print = "*" := rfl
      rw [if_neg hmark, if_pos hlone, ih]
      cases keyword <;> rfl
    | param p =>
      obtain ⟨c, rest, hprint, hc⟩ := p.exists_print_eq_cons
      have hslash : c ≠ '/' := by
        rintro rfl
        exact absurd hc (by decide)
      have hstar : c ≠ '*' := by
        rintro rfl
        exact absurd hc (by decide)
      have hmark : ¬((param p).print.isEmpty = true ∨ (param p).print = "/") := by
        simp [print, hprint, hslash]
      have hlone : ¬(param p).print = "*" := by simp [print, hprint, hstar]
      have hstarts : ¬startsWith "*" (param p).print = true := by
        simp [print, hprint, startsWith, strip?, Ne.symm hstar]
      have hparse : Param.parse (param p).print = p.toParam := p.parse_print
      have hfind : (param p :: segments).find? isVariadic = segments.find? isVariadic := rfl
      rw [if_neg hmark, if_neg hlone, if_neg hstarts, ih, hparse, hfind]
      cases segments.find? isVariadic with
      | some segment => rfl
      | none => cases keyword <;> rfl
    | variadic twice p =>
      obtain ⟨c, rest, hprint⟩ := exists_print_variadic twice p
      have hmark : ¬((variadic twice p).print.isEmpty = true ∨ (variadic twice p).print = "/") := by
        simp [hprint]
      have hlone : ¬(variadic twice p).print = "*" := by simp [hprint]
      have hstarts : startsWith "*" (variadic twice p).print = true := by
        simp [hprint, startsWith, strip?]
      rw [if_neg hmark, if_neg hlone, if_pos hstarts]
      rfl

/-- Segments that are joined by commas are found again. -/
lemma splitTop_join_commas {us : List Text} (h : ∀ u ∈ us, IsPart nestAll ',' u) :
    splitTop ',' (join ", " us) = us := by
  rw [Scan.splitTop_eq_split]
  exact Scan.split_join (by decide) (by decide) (by decide) (by decide) 0 1 h

/-- The field of a keyword-only parameter with a type. -/
def toField (p : ParamTree) : Field :=
  ⟨camelCase p.name.text, p.targetType?.getD [], p.value?⟩

/-- The keyword-only parameters become fields, unless one of them has no type. -/
lemma mapM_ofParam (ps : List ParamTree) :
    (ps.map ParamTree.toParam).mapM Field.ofParam =
      match ps.find? (·.type?.isNone) with
      | some p => .error (.missingKeywordType (camelCase p.name.text))
      | none => .ok (ps.map toField) := by
  induction ps with
  | nil => rfl
  | cons p ps ih =>
    rw [List.map_cons, List.mapM_cons, p.ofParam_toParam, ih]
    unfold ParamTree.targetType?
    cases htype : p.type? with
    | none =>
      rw [List.find?_cons_of_pos (by simp [htype])]
      rfl
    | some type =>
      rw [List.find?_cons_of_neg (by simp [htype])]
      cases ps.find? (·.type?.isNone) with
      | some q => rfl
      | none => simp [toField, ParamTree.targetType?, htype, bind, Except.bind, pure, Except.pure]

/-- The object of the keyword-only parameters. -/
lemma renderObject_map_toField (positional keywordOnly : List ParamTree) :
    ParamList.renderObject (keywordOnly.map toField) (positional.any (·.value?.isSome)) =
      targetObject positional keywordOnly := by
  have hbinding : (keywordOnly.map toField).map Field.binding =
      keywordOnly.map ParamTree.binding := by
    rw [List.map_map]
    rfl
  have hsignature : (keywordOnly.map toField).map Field.signature =
      keywordOnly.map fun p => p.field (p.targetType?.getD []) := by
    rw [List.map_map]
    rfl
  have hrequired : (keywordOnly.map toField).any Field.isRequired =
      !keywordOnly.all (·.value?.isSome) := by
    rw [List.any_map, List.not_all_eq_any_not]
    refine congrArg (List.any keywordOnly) (funext fun p => ?_)
    simp [toField, Field.isRequired]
  unfold ParamList.renderObject targetObject
  rw [hbinding, hsignature, hrequired]
  cases keywordOnly.all (·.value?.isSome) <;> cases positional.any (·.value?.isSome) <;> rfl

/-- The parameter list has its form in the target, unless a keyword-only parameter has no type. -/
lemma render_paramList (segments : List Segment) :
    (paramList false segments).render =
      match (keywordOnly segments).find? (·.type?.isNone) with
      | some p => .error (.missingKeywordType (camelCase p.name.text))
      | none => .ok (join ", " (targetParams segments)) := by
  have hpositional : (paramList false segments).positional.mapM Param.render =
      .ok ((positional segments).map ParamTree.target) := by
    change ((positional segments).map ParamTree.toParam).mapM Param.render = _
    rw [List.mapM_map]
    exact mapM_eq_ok fun p _ => p.render_toParam
  have hoptional : (paramList false segments).hasOptional =
      (positional segments).any (·.value?.isSome) := by
    change ((positional segments).map ParamTree.toParam).any _ = _
    rw [List.any_map]
    refine congrArg (List.any (positional segments)) (funext fun p => ?_)
    simp [ParamTree.toParam, ParamTree.value?]
  have hfields : (paramList false segments).fields = _ := mapM_ofParam (keywordOnly segments)
  have hempty : (paramList false segments).keywordOnly.isEmpty = (keywordOnly segments).isEmpty :=
    List.isEmpty_map
  unfold ParamList.render targetParams
  rw [hpositional, hfields, hempty, hoptional, ← renderObject_map_toField]
  cases keywordOnly segments with
  | nil =>
    rw [List.isEmpty_nil, if_pos rfl, List.append_nil]
    rfl
  | cons p ps =>
    rw [List.isEmpty_cons, if_neg (by decide)]
    cases (p :: ps).find? (·.type?.isNone) <;> rfl

end Segment

/-! ### Headers -/

/-- The text between the parentheses ends at the last of them. -/
lemma Signature.cutParams?_append {rest : Text} (hparen : ')' ∉ rest) {ending : Option Text × Text}
    (hending : ending? rest = some ending) (inside : Text) :
    cutParams? (inside ++ ')' :: rest) = some (inside, ending) := by
  have hnone : ∀ {t : Text}, ')' ∉ t → cutParams? t = none := by
    intro t ht
    induction t with
    | nil => rfl
    | cons c t ih =>
      rw [List.mem_cons, not_or] at ht
      rw [cutParams?, ih ht.2]
      exact if_neg (Ne.symm ht.1)
  induction inside with
  | nil =>
    rw [List.nil_append, cutParams?, hnone hparen]
    simp [hending]
  | cons c inside ih => rw [List.cons_append, cutParams?, ih]

/-- A name is taken as a whole where no character of names follows. -/
lemma takeName?_append (name : Identifier) {c : Char} (hc : isNameChar c = false) (rest : Text) :
    takeName? (name.text ++ c :: rest) = some (name.text, c :: rest) := by
  obtain ⟨htake, hdrop⟩ : (name.text ++ c :: rest).takeWhile isNameChar = name.text ∧
      (name.text ++ c :: rest).dropWhile isNameChar = c :: rest := by
    refine takeWhile_dropWhile_append name.chars fun d hd => ?_
    obtain rfl : c = d := Option.some.inj hd
    exact hc
  obtain ⟨d, letters, htext⟩ := List.exists_cons_of_ne_nil name.ne_nil
  unfold takeName?
  rw [htake, hdrop, htext]

namespace Owner

variable (o : Owner)

/-- The name of an owner is a name. -/
lemma isNameChar_of_mem : ∀ c ∈ o.name, isNameChar c = true := by
  have hself : ∀ c ∈ ("self" : Text), isNameChar c = true := forall_mem_of_all (by decide)
  have hcls : ∀ c ∈ ("cls" : Text), isNameChar c = true := forall_mem_of_all (by decide)
  rcases o.name_eq with h | h
  · rw [h]
    exact hself
  · rw [h]
    exact hcls

lemma name_ne_nil : o.name ≠ [] := by
  rcases o.name_eq with h | h
  · rw [h]
    decide
  · rw [h]
    decide

lemma isWellFormed_of_mem_type? : ∀ t ∈ o.type?.map Subtype.val, t.isWellFormed = true := by
  intro t ht
  obtain ⟨type, -, rfl⟩ := Option.map_eq_some_iff.1 ht
  exact type.property

/-- An owner can be joined by commas with others. -/
lemma isPart_print : IsPart nestAll ',' o.print :=
  ⟨isTrimmed_printTyped o.name_ne_nil o.isNameChar_of_mem o.isWellFormed_of_mem_type?,
    (passes_printTyped o.isNameChar_of_mem o.isWellFormed_of_mem_type?).mono fun _ hc => hc.1⟩

/-- An owner is found to be one. -/
lemma isOwner_print : Signature.isOwner o.print = true := by
  have hcolon : ':' ∉ o.name := notMem_of_isNameChar o.isNameChar_of_mem (by decide)
  have hbefore : ∀ c ∈ o.name, (c != ':') = true := by
    intro c hc
    rw [bne_iff_ne]
    rintro rfl
    exact hcolon hc
  have htake : o.print.takeWhile (· != ':') = o.name := by
    unfold print printTyped
    split
    · rw [List.append_assoc, List.takeWhile_append_of_pos hbefore]
      simp
    · exact List.takeWhile_eq_self_iff.2 hbefore
  have htrim := (isTrimmed_of_isNameChar o.name_ne_nil o.isNameChar_of_mem).trim_eq
  unfold Signature.isOwner
  rw [htake, htrim]
  rcases o.name_eq with h | h
  · simp [h]
  · simp [h]

end Owner

/-- A character that is neither in the texts nor between them is not in their join. -/
lemma notMem_join {c : Char} {separator : Text} (hseparator : c ∉ separator) {us : List Text}
    (hus : ∀ u ∈ us, c ∉ u) : c ∉ join separator us := by
  induction us with
  | nil => simp [join]
  | cons u us ih =>
    obtain ⟨hu, hrest⟩ := List.forall_mem_cons.1 hus
    cases us with
    | nil => simpa [join] using hu
    | cons v us =>
      rw [join, List.intercalate_cons_cons, List.mem_append, List.mem_append, not_or, not_or]
      exact ⟨⟨hu, hseparator⟩, ih hrest⟩

/-- A segment stands on one line. -/
lemma Segment.newline_notMem (s : Segment) : '\n' ∉ s.print := by
  have hparam : ∀ p : ParamTree, '\n' ∉ p.print := by
    intro p
    have hhead : '\n' ∉ p.printHead := notMem_printTyped p.name.chars p.isWellFormed_of_mem_type?
      (by decide) (by decide) (by decide) (by decide)
    unfold ParamTree.print
    split
    · rename_i default _
      simp [hhead, default.newline_notMem]
    · exact hhead
  match s with
  | slash => decide
  | star => decide
  | param p => exact hparam p
  | variadic false p => simp [print, hparam p]
  | variadic true p => simp [print, hparam p]

namespace SignatureTree

variable (t : SignatureTree)

/-- The header that is read from the text of a tree. -/
def toSignature : Signature where
  indent := t.indent
  kind := if t.indent = 0 then .function else .method
  name := t.name.text
  params := join ", " (t.segments.map Segment.print)
  result? := t.result?.map fun result => result.tree.print
  trailing := t.trailing

/-- The parameters can be joined by commas. -/
lemma isPart_of_mem_printParams : ∀ u ∈ t.printParams, IsPart nestAll ',' u := by
  intro u hu
  rcases List.mem_append.1 hu with hu | hu
  · obtain ⟨o, -, rfl⟩ := Option.map_eq_some_iff.1 (Option.mem_toList.1 hu)
    exact o.isPart_print
  · obtain ⟨segment, -, rfl⟩ := List.mem_map.1 hu
    exact segment.isPart_print

/-- The header stands on one line. -/
lemma newline_notMem_print : '\n' ∉ t.print := by
  have hspaces : '\n' ∉ spaces t.indent := by simp [spaces]
  have hname : '\n' ∉ t.name.text := notMem_of_isNameChar t.name.chars (by decide)
  have hparams : '\n' ∉ join ", " t.printParams := by
    refine notMem_join (by decide) fun u hu => ?_
    rcases List.mem_append.1 hu with hu | hu
    · obtain ⟨o, -, rfl⟩ := Option.map_eq_some_iff.1 (Option.mem_toList.1 hu)
      exact notMem_printTyped o.isNameChar_of_mem o.isWellFormed_of_mem_type? (by decide)
        (by decide) (by decide) (by decide)
    · obtain ⟨segment, -, rfl⟩ := List.mem_map.1 hu
      exact segment.newline_notMem
  have hending : '\n' ∉ t.printEnding := by
    unfold printEnding
    split
    · rename_i result _
      have hresult : '\n' ∉ result.tree.print :=
        TypeTree.notMem_print result.isWellFormed (by decide) (by decide) (by decide)
      simp [hresult, t.newline_notMem]
    · simp [t.newline_notMem]
  have hmarks : '\n' ∉ ("def " : Text) ∧ '\n' ∉ ("(" : Text) ∧ '\n' ∉ (")" : Text) := by decide
  unfold print
  simp only [List.mem_append, not_or]
  exact ⟨⟨⟨⟨⟨⟨hspaces, hmarks.1⟩, hname⟩, hmarks.2.1⟩, hparams⟩, hmarks.2.2⟩, hending⟩

/-- The text behind the parentheses is read. -/
lemma ending?_printEnding :
    Signature.ending? t.printEnding =
      some (t.result?.map fun result => result.tree.print, t.trailing) := by
  unfold printEnding
  cases t.result? with
  | none => rfl
  | some result =>
    have hcolon : ':' ∉ result.tree.print :=
      TypeTree.notMem_print result.isWellFormed (by decide) (by decide) (by decide)
    have htrim := (TypeTree.sealed_print result.isWellFormed).2.trim_eq
    have hcut : cutAtChar? ':' (result.tree.print ++ ":" ++ t.trailing) =
        some (result.tree.print, t.trailing) := by
      rw [List.append_assoc]
      exact cutAtChar?_append hcolon _
    have hstrip : strip? " -> " (" -> " ++ result.tree.print ++ ":" ++ t.trailing) =
        some (result.tree.print ++ ":" ++ t.trailing) := by
      rw [strip?_eq_some_iff]
      simp
    have hending : Signature.ending? (" -> " ++ result.tree.print ++ ":" ++ t.trailing) =
        (strip? " -> " (" -> " ++ result.tree.print ++ ":" ++ t.trailing)).bind fun rest =>
          (cutAtChar? ':' rest).map fun parts => (some (trim parts.1), parts.2) := rfl
    simp only [hending, hstrip, Option.bind_some, hcut, Option.map_some, htrim]

/-- No parenthesis stands behind those of the parameters. -/
lemma paren_notMem_printEnding : ')' ∉ t.printEnding := by
  unfold printEnding
  split
  · rename_i result _
    have hresult : ')' ∉ result.tree.print :=
      TypeTree.notMem_print result.isWellFormed (by decide) (by decide) (by decide)
    simp [hresult, t.paren_notMem]
  · simp [t.paren_notMem]

/-- The owner tells a method, and is left out. -/
lemma kindOf?_printParams :
    Signature.kindOf? t.indent t.printParams =
      some (t.toSignature.kind, join ", " (t.segments.map Segment.print)) := by
  unfold Signature.kindOf? toSignature
  simp only
  cases howner : t.owner? with
  | none =>
    have hindent : t.indent = 0 := by simp [indent, howner]
    have hparams : t.printParams = t.segments.map Segment.print := by simp [printParams, howner]
    rw [if_pos hindent, if_pos hindent, hparams]
  | some o =>
    have hindent : t.indent ≠ 0 := by
      have hpos := o.indent_pos
      simp only [indent, howner, Option.map_some, Option.getD_some]
      omega
    have hparams : t.printParams = o.print :: t.segments.map Segment.print := by
      simp [printParams, howner]
    rw [if_neg hindent, if_neg hindent, hparams]
    simp only
    rw [if_pos o.isOwner_print]

/-- **A header is read from its text.** -/
lemma parse?_print : Signature.parse? t.print = some t.toSignature := by
  have hprint : t.print = spaces t.indent ++ 'd' :: ("ef " ++ (t.name.text ++ '(' ::
      (join ", " t.printParams ++ ')' :: t.printEnding))) := by
    simp [print]
  have hindent : leadingSpaces t.print = t.indent := by
    rw [hprint]
    exact leadingSpaces_spaces_append_cons t.indent (by decide) _
  have hname : takeName? (t.name.text ++ '(' :: (join ", " t.printParams ++ ')' :: t.printEnding)) =
      some (t.name.text, '(' :: (join ", " t.printParams ++ ')' :: t.printEnding)) :=
    takeName?_append t.name (by decide) _
  refine Signature.parse?_eq_some_iff.2 ⟨t.newline_notMem_print, hindent.symm, _,
    join ", " t.printParams ++ ')' :: t.printEnding, join ", " t.printParams, ?_, hname, ?_, ?_⟩
  · rw [hindent, hprint, drop_spaces_append]
    rfl
  · exact Signature.cutParams?_append t.paren_notMem_printEnding t.ending?_printEnding _
  · rw [Segment.splitTop_join_commas t.isPart_of_mem_printParams]
    exact t.kindOf?_printParams

/-- **A header has its form in the target**, or is refused. -/
lemma render_toSignature : t.toSignature.render = t.target := by
  have hsplit : splitTop ',' t.toSignature.params = t.segments.map Segment.print := by
    refine Segment.splitTop_join_commas fun u hu => ?_
    obtain ⟨segment, -, rfl⟩ := List.mem_map.1 hu
    exact segment.isPart_print
  have hresult : t.toSignature.renderResult = .ok t.targetResult := by
    unfold Signature.renderResult toSignature targetResult
    cases t.result? with
    | none => rfl
    | some result =>
      have hconvert := result.tree.convert_eq_ok result.isWellFormed result.isArityCorrect .result
      simp only [Option.map_some, hconvert]
      split <;> rfl
  unfold Signature.render convertParams ParamList.parse target
  rw [hsplit, Segment.ofSegments_map_print, hresult]
  cases t.segments.find? Segment.isVariadic with
  | some segment => rfl
  | none =>
    simp only [bind, Except.bind, Segment.render_paramList]
    cases (Segment.keywordOnly t.segments).find? (·.type?.isNone) with
    | some p => rfl
    | none =>
      unfold targetStart toSignature
      by_cases hindent : t.indent = 0
      · simp only [if_pos hindent]
        rfl
      · simp only [if_neg hindent]
        rfl

/-- **Function headers are translated as their trees are.**  A header that is written down is found,
it is a method exactly if it is indented, and what it is rendered to, or the error that it is
refused with, is that of the tree. -/
theorem exists_render_eq :
    ∃ s, Signature.parse? t.print = some s ∧ (s.kind = .method ↔ 0 < t.indent) ∧
      s.render = t.target := by
  refine ⟨t.toSignature, t.parse?_print, ?_, t.render_toSignature⟩
  unfold toSignature
  by_cases hindent : t.indent = 0
  · simp [hindent]
  · simp [hindent, Nat.pos_of_ne_zero hindent]

/-- A method with a keyword-only parameter, whose default value has a comma in it. -/
theorem exists_render_eq_method :
    ∃ t : SignatureTree,
      t.print = "  def scale(self, *, by: int = pick(1, 2)) -> None: # all" ∧
      t.target = .ok
        "  scale(\x7b by = pick(1, 2) \x7d: \x7b by?: number \x7d = \x7b\x7d): void \x7b # all" ∧
      ∃ s, Signature.parse? t.print = some s ∧ (s.kind = .method ↔ 0 < t.indent) ∧
        s.render = t.target := by
  let factor : ParamTree :=
    { name := ⟨"by", by decide, forall_mem_of_all (by decide)⟩
      type? := some ⟨.primitive "int", by decide, by decide⟩
      default? := some ⟨"pick(1, 2)", by decide, by decide, by decide, by decide, by decide⟩ }
  refine ⟨⟨⟨"scale", by decide, forall_mem_of_all (by decide)⟩,
    some ⟨2, by decide, "self", .inl rfl, none⟩, [.star, .param factor],
    some ⟨.absent, by decide, by decide⟩, " # all", by decide, by decide⟩,
    ?_, ?_, exists_render_eq _⟩
  · decide +kernel
  · decide +kernel

end SignatureTree

end Rebrace
