import Mathlib.Data.List.Basic
import Rebrace.Proofs.Steps
import Rebrace.Proofs.TypeSyntax

/-!
# Reading type annotations

A type annotation is read without a grammar: its text is split at bars, at the first bracket and at
commas, and its parts are read in the same way.  This module shows that what is read is the tree
that the text was written from.  `Shape.classify` finds the outermost construct of the text of a
tree, case by case, and the main statement, `TypeExpr.convert_print`, follows by induction on trees.
-/

namespace Rebrace

open Text

/-! ### Reading the parts of a shape -/

namespace TypeExpr

/-- The tree of a shape whose parts are read by `read`. -/
def ofShape (read : Text → Except Error TypeExpr) : Shape → Except Error TypeExpr
  | .primitive target => .ok (primitive target)
  | .absent => .ok absent
  | .union members => union <$> members.mapM read
  | .optional item => optional <$> read item
  | .sequence item => sequence <$> read item
  | .mapping key value => do
    let k ← read key
    let v ← read value
    return mapping k v
  | .iterator item => iterator <$> read item
  | .iterable item => iterable <$> read item
  | .tuple items => tuple <$> items.mapM read
  | .uniformTuple item => uniformTuple <$> read item
  | .function params result => do
    let r ← read result
    let ps ← params.mapM read
    return function ps r
  | .anyFunction result => anyFunction <$> read result
  | .generic name args => generic name <$> args.mapM read
  | .named name => .ok (named name)

/-- Parts are read whether or not it is known that they are parts. -/
lemma mapM_attach {α β : Type} (l : List α) (f : α → Except Error β) :
    (l.attach.mapM fun a => f a.val) = l.mapM f := by
  change l.attach.mapM (f ∘ Subtype.val) = _
  rw [← List.mapM_map, List.attach_map_subtype_val]

/-- A type expression is read by its shape. -/
lemma parse_eq (expr : Text) : parse expr = Shape.classify expr >>= ofShape parse := by
  have hshape : ∀ {shape}, Shape.classify expr = .ok shape →
      Shape.classify expr >>= ofShape parse = ofShape parse shape := by
    intro shape h
    rw [h]
    rfl
  rw [parse]
  split
  all_goals rename_i h
  case h_1 e =>
    rw [h]
    rfl
  all_goals rw [hshape h]
  case h_4 members | h_10 members | h_14 name members =>
    exact congrArg _ (mapM_attach members parse)
  case h_12 params result =>
    refine bind_congr fun r => ?_
    exact congrArg (· >>= _) (mapM_attach params parse)
  all_goals rfl

end TypeExpr

/-! ### The outermost construct -/

/-- A text with a character that stands in no name is neither a primitive name nor `None`. -/
lemma lookup?_primitives_eq_none {t : Text} {c : Char} (hc : c ∈ t) (hname : isNameChar c = false) :
    lookup? Shape.primitives t = none ∧ t ≠ "None" := by
  have htable : ∀ entry ∈ Shape.primitives, entry.1.all isNameChar = true := by decide
  have hnone : ("None" : Text).all isNameChar = true := by decide
  have hnot : ∀ name : Text, name.all isNameChar = true → t ≠ name := by
    rintro name hall rfl
    rw [List.all_eq_true.1 hall c hc] at hname
    cases hname
  refine ⟨?_, hnot _ hnone⟩
  rw [lookup?, Option.map_eq_none_iff, List.find?_eq_none]
  intro entry hentry heq
  exact hnot entry.1 (htable entry hentry) (beq_iff_eq.1 heq).symm

/-- A part without an exposed bar is not split at bars. -/
lemma splitTrim_bar_eq {t : Text} (h : IsPart BracketPair.square.nest '|' t) :
    BracketPair.square.splitTrim "|" t = [t] := by
  have hsplit := Scan.split_join (by decide) (by decide) (by decide) (by decide) 1 1
    (List.forall_mem_singleton.2 h)
  rw [← Scan.splitTrim_eq_split] at hsplit
  simpa [join] using hsplit

/-- Texts joined by bars are split again. -/
lemma splitTrim_join_bars {us : List Text}
    (h : ∀ u ∈ us, IsPart BracketPair.square.nest '|' u) :
    BracketPair.square.splitTrim "|" (join " | " us) = us := by
  have hsplit := Scan.split_join (by decide) (by decide) (by decide) (by decide) 1 1 h
  rwa [← Scan.splitTrim_eq_split] at hsplit

/-- Texts joined by commas are split again. -/
lemma splitTrim_join_commas {us : List Text}
    (h : ∀ u ∈ us, IsPart BracketPair.square.nest ',' u) :
    BracketPair.square.splitTrim "," (join ", " us) = us := by
  have hsplit := Scan.split_join (by decide) (by decide) (by decide) (by decide) 0 1 h
  rwa [← Scan.splitTrim_eq_split] at hsplit

/-- The first bracket of a name applied to arguments is that behind the name. -/
lemma first_application {name : Text} (hname : isDotted name = true) {args : List Text}
    (hargs : ∀ u ∈ args, Sealed (fun _ => True) u) :
    BracketSpan.first (application name args) true = .ok ⟨name, join ", " args, []⟩ := by
  have hcut : cutAtChar? '[' (application name args) = some (name, join ", " args ++ "]") := by
    have hnotMem : '[' ∉ name := notMem_of_isDotted hname (by decide) (by decide)
    unfold application
    rw [List.append_assoc, List.append_assoc]
    exact cutAtChar?_append hnotMem _
  have henclosed : BracketPair.square.enclosed? 0 (join ", " args ++ "]") =
      some (join ", " args, []) := by
    rw [(sealed_join_commas hargs).enclosed?_append]
    simp [BracketPair.enclosed?, BracketPair.square]
  unfold BracketSpan.first
  rw [hcut]
  simp only
  rw [henclosed]
  rfl

namespace Shape

/-- A text without white space at its ends is classified as it is. -/
lemma classify_of_isTrimmed {t : Text} (h : IsTrimmed t) : classify t = classifyTrimmed t := by
  rw [classify, h.trim_eq]

/-- A primitive name. -/
lemma classify_primitive {name target : Text} (h : lookup? primitives name = some target) :
    classify name = .ok (.primitive target) := by
  have hname := isDotted_of_isSome_lookup? (Option.isSome_of_mem h)
  rw [classify_of_isTrimmed (isTrimmed_of_isDotted hname), classifyTrimmed, h]

/-- A text that is neither primitive nor `None`, and without exposed bars. -/
lemma classifyTrimmed_eq {t : Text} (hprimitive : lookup? primitives t = none) (hnone : t ≠ "None")
    (hpart : IsPart BracketPair.square.nest '|' t) :
    classifyTrimmed t =
      if '[' ∉ t then .ok (named t)
      else
        match BracketSpan.first t true with
        | .error e => .error e
        | .ok span =>
          ofApplication (trim span.before) (BracketPair.square.splitTrim "," span.inner) t := by
  unfold classifyTrimmed
  rw [hprimitive]
  simp only
  rw [if_neg hnone, splitTrim_bar_eq hpart]
  exact if_neg (by simp)

/-- Any other name. -/
lemma classify_named {name : Text} (hname : isDotted name = true)
    (hprimitive : lookup? primitives name = none) (hnone : name ≠ "None") :
    classify name = .ok (.named name) := by
  have htrimmed := isTrimmed_of_isDotted hname
  have hsealed : Sealed (fun c => c ≠ '|') name := sealed_of_isDotted hname fun c _ hbar => hbar
  have hpart : IsPart BracketPair.square.nest '|' name :=
    hsealed.isPart countsSquare_square htrimmed (by simp)
  have hbracket : '[' ∉ name := notMem_of_isDotted hname (by decide) (by decide)
  rw [classify_of_isTrimmed htrimmed, classifyTrimmed_eq hprimitive hnone hpart, if_pos hbracket]

/-- Members between bars. -/
lemma classify_bars {us : List Text} (hlength : 2 ≤ us.length)
    (h : ∀ u ∈ us, IsPart BracketPair.square.nest '|' u) :
    classify (join " | " us) = .ok (.union us) := by
  have hsplit := splitTrim_join_bars h
  obtain ⟨u, v, us, rfl⟩ : ∃ u v vs, us = u :: v :: vs := by
    match us, hlength with
    | u :: v :: vs, _ => exact ⟨u, v, vs, rfl⟩
  have htrimmed : IsTrimmed (join " | " (u :: v :: us)) :=
    IsTrimmed.join fun w hw => (h w hw).trimmed
  have hbar : '|' ∈ join " | " (u :: v :: us) := by simp [join, List.intercalate_cons_cons]
  obtain ⟨hprimitive, hnone⟩ := lookup?_primitives_eq_none hbar (by decide)
  rw [classify_of_isTrimmed htrimmed]
  unfold classifyTrimmed
  rw [hprimitive]
  simp only
  rw [if_neg hnone, hsplit, if_pos (by omega)]

/-- A name applied to arguments. -/
lemma classify_application {name : Text} (hname : isDotted name = true) {args : List Text}
    (hargs : ∀ u ∈ args, Sealed (fun _ => True) u)
    (hparts : ∀ u ∈ args, IsPart BracketPair.square.nest ',' u) :
    classify (application name args) = ofApplication name args (application name args) := by
  have htrimmed := isTrimmed_application (fun _ => isWhite_of_mem_isDotted hname) args
  have hsealed : Sealed (fun c => c ≠ '|') (application name args) :=
    sealed_application (sealed_of_isDotted hname fun c _ hbar => hbar) hargs
  have hpart : IsPart BracketPair.square.nest '|' (application name args) :=
    hsealed.isPart countsSquare_square htrimmed (by simp)
  have hbracket : '[' ∈ application name args := by simp [application]
  obtain ⟨hprimitive, hnone⟩ := lookup?_primitives_eq_none hbracket (by decide)
  rw [classify_of_isTrimmed htrimmed, classifyTrimmed_eq hprimitive hnone hpart,
    if_neg (not_not.2 hbracket), first_application hname hargs]
  simp only
  rw [(isTrimmed_of_isDotted hname).trim_eq, splitTrim_join_commas hparts]

/-- The shape of an applied name. -/
lemma ofApplication_name {head : TypeHead} {count : Nat} (h : head.admits count = true)
    (args : List Text) (text : Text) :
    ofApplication head.name args text =
      match head with
      | .union => .ok (union args)
      | .optional => optional <$> single "Optional" args text
      | .sequence _ => sequence <$> single "List" args text
      | .mapping _ => (fun pair => mapping pair.1 pair.2) <$> double "Mapping" args text
      | .iterator => iterator <$> single "Iterator" args text
      | .iterable => iterable <$> single "Iterable" args text
      | .tuple _ => .ok (ofTuple args)
      | .generic name => .ok (generic name args) := by
  cases head with
  | union | optional | iterator | iterable => rfl
  | sequence name =>
    have hname : name ∈ TypeHead.sequenceNames := List.contains_iff_mem.1 h
    simp only [TypeHead.sequenceNames, List.mem_cons, List.not_mem_nil, or_false] at hname
    rcases hname with rfl | rfl | rfl <;> rfl
  | mapping name =>
    have hname : name ∈ TypeHead.mappingNames := List.contains_iff_mem.1 h
    simp only [TypeHead.mappingNames, List.mem_cons, List.not_mem_nil, or_false] at hname
    rcases hname with rfl | rfl | rfl <;> rfl
  | tuple name =>
    simp only [TypeHead.admits, Bool.and_eq_true] at h
    have hname : name ∈ TypeHead.tupleNames := List.contains_iff_mem.1 h.1
    simp only [TypeHead.tupleNames, List.mem_cons, List.not_mem_nil, or_false] at hname
    rcases hname with rfl | rfl <;> rfl
  | generic name =>
    simp only [TypeHead.admits, Bool.and_eq_true, Bool.not_eq_eq_eq_not, Bool.not_true] at h
    have hne : ∀ reserved : Text, TypeHead.reservedNames.contains reserved = true →
        name ≠ reserved := by
      rintro reserved hmem rfl
      rw [hmem] at h
      cases h.1.2
    change ofApplication name args text = .ok (generic name args)
    unfold ofApplication
    rw [if_neg (hne "Union" rfl), if_neg (hne "Optional" rfl),
      if_neg (not_or.2 ⟨hne "List" rfl, not_or.2 ⟨hne "list" rfl, hne "Sequence" rfl⟩⟩),
      if_neg (not_or.2 ⟨hne "Mapping" rfl, not_or.2 ⟨hne "Dict" rfl, hne "dict" rfl⟩⟩),
      if_neg (hne "Iterator" rfl), if_neg (hne "Iterable" rfl),
      if_neg (not_or.2 ⟨hne "Tuple" rfl, hne "tuple" rfl⟩), if_neg (hne "Callable" rfl)]

/-- Parameters in brackets of their own, in front of a result. -/
lemma ofApplication_function {params : List Text} (result text : Text)
    (h : ∀ u ∈ params, IsPart BracketPair.square.nest ',' u) :
    ofApplication "Callable" [application [] params, result] text =
      .ok (function params result) := by
  have hstrip : (strip? "[" (application [] params)).bind (stripEnd? "]") =
      some (join ", " params) := by
    have hend : stripEnd? "]" (join ", " params ++ "]") = some (join ", " params) :=
      stripEnd?_eq_some_iff.2 rfl
    unfold application
    rw [List.nil_append, strip?_eq_some_iff.2 (List.append_assoc _ _ _)]
    exact hend
  have hdots : application [] params ≠ "..." := by
    unfold application
    rw [List.nil_append, List.append_assoc]
    exact fun heq => absurd (List.cons.inj heq).1 (by decide)
  change ofFunction (application [] params) result = _
  unfold ofFunction
  rw [if_neg hdots, hstrip]
  simp only
  rw [splitTrim_join_commas h]

/-- An ellipsis in front of a result. -/
lemma ofApplication_anyFunction (result text : Text) :
    ofApplication "Callable" ["...", result] text = .ok (anyFunction result) := rfl

end Shape

/-! ### Reading the text of a tree -/

/-- The result of reading a text: if the tree of the text is arity-correct, something `good`, and
otherwise a failure that tells a wrong number of arguments. -/
def Settles {α : Type} (correct : Bool) (good : α → Prop) (result : Except Error α) : Prop :=
  (correct = true ∧ ∃ a, result = .ok a ∧ good a) ∨
    (correct = false ∧ ∃ construct expected found text,
      result = .error (.arityMismatch construct expected found text))

namespace Settles

variable {α β : Type} {correct correct' : Bool} {good : α → Prop} {good' : β → Prop}
  {result : Except Error α}

/-- A result that is good. -/
lemma ok {a : α} (h : good a) : Settles true good (.ok a) :=
  Or.inl ⟨rfl, a, rfl, h⟩

/-- A weaker condition on the result. -/
lemma mono (h : Settles correct good result) {better : α → Prop} (hgood : ∀ a, good a → better a) :
    Settles correct better result := by
  rcases h with ⟨hcorrect, a, rfl, ha⟩ | h
  · exact Or.inl ⟨hcorrect, a, rfl, hgood a ha⟩
  · exact Or.inr h

/-- A function of a result. -/
lemma map (h : Settles correct good result) {f : α → β} (hf : ∀ a, good a → good' (f a)) :
    Settles correct good' (f <$> result) := by
  rcases h with ⟨hcorrect, a, rfl, hgood⟩ | ⟨hcorrect, construct, expected, found, text, rfl⟩
  · exact Or.inl ⟨hcorrect, f a, rfl, hf a hgood⟩
  · exact Or.inr ⟨hcorrect, construct, expected, found, text, rfl⟩

/-- A second result after a first one. -/
lemma bind (h : Settles correct good result) {f : α → Except Error β}
    (hf : ∀ a, good a → Settles correct' good' (f a)) :
    Settles (correct && correct') good' (result >>= f) := by
  rcases h with ⟨rfl, a, rfl, hgood⟩ | ⟨rfl, construct, expected, found, text, rfl⟩
  · rw [Bool.true_and]
    exact hf a hgood
  · exact Or.inr ⟨rfl, construct, expected, found, text, rfl⟩

end Settles

namespace TypeTree

open TypeExpr

/-- The tree is read from its text. -/
def IsRead (t : TypeTree) : Prop :=
  Settles t.isArityCorrect (fun e => ∀ place, render place e = t.target place) (parse t.print)

/-- Parts are read one after the other. -/
lemma settles_mapM {ts : List TypeTree} (h : ∀ t ∈ ts, t.IsRead) :
    Settles (areArityCorrect ts) (fun es => renderAll es = targetAll ts)
      ((printAll ts).mapM parse) := by
  induction ts with
  | nil => exact .ok rfl
  | cons t ts ih =>
    obtain ⟨hhead, htail⟩ := List.forall_mem_cons.1 h
    rw [areArityCorrect, printAll, List.mapM_cons]
    refine Settles.bind hhead fun e he => Settles.map (ih htail) fun es hes => ?_
    rw [renderAll, targetAll, he, hes]

/-- The only argument of a name is read. -/
lemma settles_single {args : List TypeTree} (h : ∀ t ∈ args, t.IsRead) (construct text : Text) :
    Settles ((1 == args.length) && areArityCorrect args)
      (fun e => targetAll args = [render .value e])
      (Shape.single construct (printAll args) text >>= parse) := by
  match args with
  | [] => exact Or.inr ⟨rfl, _, _, _, _, rfl⟩
  | [t] =>
    have ht : t.IsRead := List.forall_mem_singleton.1 h
    have hcorrect : ((1 == [t].length) && areArityCorrect [t]) = t.isArityCorrect := by
      simp [areArityCorrect]
    rw [hcorrect]
    refine Settles.mono ht fun e he => ?_
    rw [he]
    rfl
  | t :: u :: ts => exact Or.inr ⟨rfl, _, _, _, _, rfl⟩

/-- A name is read with its only argument. -/
lemma settles_wrap {args : List TypeTree} (h : ∀ t ∈ args, t.IsRead) (construct text : Text)
    {shape : Text → Shape} {wrap : TypeExpr → TypeExpr} {form : Text}
    (hshape : ∀ item, ofShape parse (shape item) = wrap <$> parse item)
    (hform : ∀ e place, targetAll args = [render .value e] → render place (wrap e) = form) :
    Settles ((1 == args.length) && areArityCorrect args)
      (fun e => ∀ place, render place e = form)
      (shape <$> Shape.single construct (printAll args) text >>= ofShape parse) := by
  have hwrap : shape <$> Shape.single construct (printAll args) text >>= ofShape parse =
      wrap <$> (Shape.single construct (printAll args) text >>= parse) := by
    rw [bind_map_left, map_bind]
    exact bind_congr hshape
  rw [hwrap]
  exact Settles.map (settles_single h construct text) fun e he place => hform e place he

/-- The two arguments of a mapping are read. -/
lemma settles_double {args : List TypeTree} (h : ∀ t ∈ args, t.IsRead) (construct text : Text) :
    Settles ((2 == args.length) && areArityCorrect args)
      (fun e => ∀ place, render place e = targetApplication "Map" (targetAll args))
      (Shape.double construct (printAll args) text >>= fun pair =>
        ofShape parse (.mapping pair.1 pair.2)) := by
  match args with
  | [] => exact Or.inr ⟨rfl, _, _, _, _, rfl⟩
  | [t] => exact Or.inr ⟨rfl, _, _, _, _, rfl⟩
  | [t, u] =>
    have ht : t.IsRead := h t (by simp)
    have hu : u.IsRead := h u (by simp)
    have hcorrect : ((2 == [t, u].length) && areArityCorrect [t, u]) =
        (t.isArityCorrect && u.isArityCorrect) := by
      simp [areArityCorrect]
    rw [hcorrect]
    refine Settles.bind ht fun k hk => Settles.map hu fun v hv => ?_
    intro place
    change TypeExpr.apply "Map" [render .value k, render .value v] = _
    rw [hk, hv]
    rfl
  | t :: u :: v :: ts => exact Or.inr ⟨rfl, _, _, _, _, rfl⟩

/-- The text of a tree can be joined by commas with others. -/
lemma isPart_comma_print {t : TypeTree} (h : t.isWellFormed = true) :
    IsPart BracketPair.square.nest ',' t.print := by
  obtain ⟨hsealed, htrimmed⟩ := sealed_print h
  exact hsealed.isPart countsSquare_square htrimmed fun hcomma => hcomma.1 rfl

/-- The text of a member can be joined by bars with others. -/
lemma isPart_bar_print {t : TypeTree} (h : t.isWellFormed = true) (hbars : t.isBars = false) :
    IsPart BracketPair.square.nest '|' t.print := by
  obtain ⟨hsealed, htrimmed⟩ := sealed_print h
  refine hsealed.isPart countsSquare_square htrimmed fun hbar => ?_
  rw [hbar.2 rfl] at hbars
  cases hbars

/-- The texts of arguments stand between brackets and are split at commas. -/
lemma of_mem_printAll {ts : List TypeTree} (h : ∀ t ∈ ts, t.isWellFormed = true) :
    ∀ u ∈ printAll ts, Sealed (fun _ => True) u ∧ IsPart BracketPair.square.nest ',' u := by
  intro u hu
  rw [printAll_eq_map] at hu
  obtain ⟨t, ht, rfl⟩ := List.mem_map.1 hu
  exact ⟨(sealed_print (h t ht)).1.mono fun _ _ => trivial, isPart_comma_print (h t ht)⟩

/-- No tree has an ellipsis as its text. -/
lemma print_ne_ellipsis {t : TypeTree} (h : t.isWellFormed = true) : t.print ≠ "..." := by
  have hmem : ∀ c ∈ t.print, c ≠ '.' → t.print ≠ "..." := by
    intro c hc hne heq
    have hdots : ∀ c ∈ ("..." : Text), c = '.' := forall_mem_of_all (by decide)
    exact hne (hdots c (heq ▸ hc))
  have hdotted : ∀ {name : Text}, isDotted name = true → name ≠ "..." := by
    rintro name hname rfl
    exact absurd hname (by decide)
  cases t with
  | primitive name => exact hdotted (isDotted_of_isSome_lookup? h)
  | absent => exact hdotted (by decide)
  | named name =>
    simp only [isWellFormed, Bool.and_eq_true] at h
    exact hdotted h.1.1
  | bars members =>
    simp only [isWellFormed, Bool.and_eq_true, decide_eq_true_eq] at h
    obtain ⟨t, rest, rfl⟩ := List.exists_cons_of_length_pos (Nat.lt_of_lt_of_le (by decide) h.1.1)
    have hrest : 0 < rest.length := Nat.le_of_succ_le_succ h.1.1
    obtain ⟨u, ts, rfl⟩ := List.exists_cons_of_length_pos hrest
    exact hmem '|' (by simp [print, printAll, join, List.intercalate_cons_cons]) (by decide)
  | apply | repeated | function | anyFunction =>
    exact hmem '[' (by simp [print, application]) (by decide)

/-- The items of a tuple are no ellipsis. -/
lemma ofTuple_printAll {ts : List TypeTree} (h : ∀ t ∈ ts, t.isWellFormed = true) :
    Shape.ofTuple (printAll ts) = .tuple (printAll ts) := by
  match ts with
  | [] | [t] | t :: u :: v :: ts => rfl
  | [t, u] => exact if_neg (print_ne_ellipsis (h u (by simp)))

/-- A name is read with its arguments. -/
lemma isRead_apply {head : TypeHead} {args : List TypeTree}
    (hhead : head.admits args.length = true) (hargs : ∀ t ∈ args, t.isWellFormed = true)
    (ih : ∀ t ∈ args, t.IsRead) : (apply head args).IsRead := by
  have hparse : parse (apply head args).print =
      Shape.ofApplication head.name (printAll args) (apply head args).print >>= ofShape parse := by
    rw [parse_eq, print, Shape.classify_application (TypeHead.isDotted_name hhead)
      (fun u hu => (of_mem_printAll hargs u hu).1) fun u hu => (of_mem_printAll hargs u hu).2]
  have hform : ∀ place, (apply head args).target place = head.target (targetAll args) :=
    fun place => by rw [target]
  unfold IsRead
  simp only [hform]
  rw [hparse, Shape.ofApplication_name hhead, isArityCorrect]
  have hall := settles_mapM ih
  cases head with
  | union =>
    refine Settles.map hall fun es hes place => ?_
    rw [← hes]
    rfl
  | optional =>
    refine settles_wrap ih _ _ (fun item => rfl) fun e place he => ?_
    rw [he, TypeHead.target, join, List.intercalate_singleton]
    rfl
  | sequence name | iterator | iterable =>
    refine settles_wrap ih _ _ (fun item => rfl) fun e place he => ?_
    rw [he]
    rfl
  | mapping name =>
    rw [bind_map_left]
    exact settles_double ih _ _
  | tuple name =>
    rw [ofTuple_printAll hargs]
    refine Settles.map hall fun es hes place => ?_
    rw [← hes]
    rfl
  | generic name =>
    refine Settles.map hall fun es hes place => ?_
    rw [← hes]
    rfl

/-- **A well-formed tree is read from its text.** -/
lemma isRead_of_isWellFormed {t : TypeTree} (h : t.isWellFormed = true) : t.IsRead := by
  have hcallable : isDotted "Callable" = true := by decide
  have hdots : Sealed (fun c => c ≠ ',') ("..." : Text) :=
    Sealed.of_forall (forall_mem_of_all (by decide))
  have hdotsPart : IsPart BracketPair.square.nest ',' "..." :=
    hdots.isPart countsSquare_square (.of_trim_eq (by decide) (by decide)) (by simp)
  induction t using TypeTree.induction with
  | primitive name =>
    rw [isWellFormed] at h
    obtain ⟨spelling, hspelling⟩ := Option.isSome_iff_exists.1 h
    unfold IsRead
    rw [parse_eq, print, Shape.classify_primitive hspelling]
    refine Settles.ok fun place => ?_
    rw [target, hspelling]
    rfl
  | absent =>
    have hparse : parse absent.print = .ok TypeExpr.absent := by
      rw [parse_eq]
      rfl
    unfold IsRead
    rw [hparse]
    exact Settles.ok fun place => by cases place <;> rfl
  | named name =>
    simp only [isWellFormed, Bool.and_eq_true, Option.isNone_iff_eq_none, bne_iff_ne] at h
    unfold IsRead
    rw [parse_eq, print, Shape.classify_named h.1.1 h.1.2 h.2]
    exact Settles.ok fun place => by rw [target]; rfl
  | bars members ih =>
    simp only [isWellFormed, Bool.and_eq_true, areWellFormed_iff, decide_eq_true_eq,
      List.all_eq_true, Bool.not_eq_eq_eq_not, Bool.not_true] at h
    have hparts : ∀ u ∈ printAll members, IsPart BracketPair.square.nest '|' u := by
      intro u hu
      rw [printAll_eq_map] at hu
      obtain ⟨member, hmember, rfl⟩ := List.mem_map.1 hu
      exact isPart_bar_print (h.2 member hmember) (h.1.2 member hmember)
    have hlength : 2 ≤ (printAll members).length := by
      rw [printAll_eq_map, List.length_map]
      exact h.1.1
    unfold IsRead
    rw [parse_eq, print, Shape.classify_bars hlength hparts, isArityCorrect]
    refine Settles.map (settles_mapM fun t ht => ih t ht (h.2 t ht)) fun es hes place => ?_
    rw [target, ← hes]
    rfl
  | apply head args ih =>
    simp only [isWellFormed, Bool.and_eq_true, areWellFormed_iff] at h
    exact isRead_apply h.1 h.2 fun t ht => ih t ht (h.2 t ht)
  | repeated name item ih =>
    simp only [isWellFormed, Bool.and_eq_true] at h
    have hhead : (TypeHead.tuple name).admits 1 = true := by
      rw [TypeHead.admits, h.1]
      rfl
    have hname : isDotted name = true := TypeHead.isDotted_name hhead
    have hitem := (sealed_print h.2).1.mono (q := fun _ => True) fun _ _ => trivial
    have hshape : ∀ text, Shape.ofApplication name [item.print, "..."] text =
        .ok (.uniformTuple item.print) := Shape.ofApplication_name hhead _
    unfold IsRead
    rw [parse_eq, print, Shape.classify_application hname
      (List.forall_mem_cons.2 ⟨hitem, List.forall_mem_singleton.2 (hdots.mono fun _ _ => trivial)⟩)
      (List.forall_mem_cons.2 ⟨isPart_comma_print h.2, List.forall_mem_singleton.2 hdotsPart⟩),
      hshape, isArityCorrect]
    refine Settles.map (ih h.2) fun e he place => ?_
    rw [target, ← he]
    rfl
  | function params result ih ihResult =>
    simp only [isWellFormed, Bool.and_eq_true, areWellFormed_iff] at h
    have hparams := of_mem_printAll h.1
    have hlist : ∀ {p : Char → Prop}, Sealed p (application [] (printAll params)) :=
      sealed_application .nil fun u hu => (hparams u hu).1
    have hlistPart : IsPart BracketPair.square.nest ',' (application [] (printAll params)) :=
      hlist.isPart (p := fun _ => False) countsSquare_square
        (isTrimmed_application (List.forall_mem_nil _) _) id
    have hresult := (sealed_print h.2).1.mono (q := fun _ => True) fun _ _ => trivial
    unfold IsRead
    rw [parse_eq, print, Shape.classify_application hcallable
      (List.forall_mem_cons.2 ⟨hlist, List.forall_mem_singleton.2 hresult⟩)
      (List.forall_mem_cons.2 ⟨hlistPart, List.forall_mem_singleton.2 (isPart_comma_print h.2)⟩),
      Shape.ofApplication_function _ _ fun u hu => (hparams u hu).2, isArityCorrect, Bool.and_comm]
    refine Settles.bind (ihResult h.2) fun r hr =>
      Settles.map (settles_mapM fun t ht => ih t ht (h.1 t ht)) fun ps hps place => ?_
    rw [target, ← hps, ← hr, numberFrom_eq_mapIdx]
    rfl
  | anyFunction result ih =>
    rw [isWellFormed] at h
    have hresult := (sealed_print h).1.mono (q := fun _ => True) fun _ _ => trivial
    unfold IsRead
    rw [parse_eq, print, Shape.classify_application hcallable
      (List.forall_mem_cons.2 ⟨hdots.mono fun _ _ => trivial, List.forall_mem_singleton.2 hresult⟩)
      (List.forall_mem_cons.2 ⟨hdotsPart, List.forall_mem_singleton.2 (isPart_comma_print h)⟩),
      Shape.ofApplication_anyFunction, isArityCorrect]
    refine Settles.map (ih h) fun e he place => ?_
    rw [target, ← he]
    rfl

end TypeTree

/-- A well-formed tree in which every name is applied to the right number of arguments has a form in
the target. -/
lemma TypeTree.convert_eq_ok {t : TypeTree} (h : t.isWellFormed = true)
    (hcorrect : t.isArityCorrect = true) (place : Place) :
    TypeExpr.convert place t.print = .ok (t.target place) := by
  rcases isRead_of_isWellFormed h with ⟨-, e, hparse, he⟩ | ⟨hfalse, -⟩
  · unfold TypeExpr.convert
    rw [hparse, ← he]
    rfl
  · rw [hcorrect] at hfalse
    cases hfalse

/-- A well-formed tree in which some name is applied to a wrong number of arguments is refused. -/
lemma TypeTree.exists_convert_eq_error {t : TypeTree} (h : t.isWellFormed = true)
    (hcorrect : t.isArityCorrect = false) (place : Place) :
    ∃ construct expected found text,
      TypeExpr.convert place t.print = .error (.arityMismatch construct expected found text) := by
  rcases isRead_of_isWellFormed h with ⟨htrue, -⟩ | ⟨-, construct, expected, found, text, hparse⟩
  · rw [hcorrect] at htrue
    cases htrue
  · refine ⟨construct, expected, found, text, ?_⟩
    unfold TypeExpr.convert
    rw [hparse]
    rfl

/-- **Annotations are translated as their trees are.**  The text of a well-formed tree is refused
for a wrong number of arguments exactly if some name in the tree is applied to one, and otherwise
translated into the form of the tree in the target. -/
theorem TypeExpr.convert_print (place : Place) {t : TypeTree} (h : t.isWellFormed = true) :
    ((∃ construct expected found text,
        convert place t.print = .error (.arityMismatch construct expected found text)) ↔
      t.isArityCorrect = false) ∧
    (t.isArityCorrect = true → convert place t.print = .ok (t.target place)) := by
  refine ⟨⟨?_, fun hcorrect => t.exists_convert_eq_error h hcorrect place⟩,
    fun hcorrect => t.convert_eq_ok h hcorrect place⟩
  rintro ⟨construct, expected, found, text, herror⟩
  rw [← Bool.not_eq_true]
  intro hcorrect
  rw [t.convert_eq_ok h hcorrect place] at herror
  cases herror

/-- A function type with a mapping as its parameter, and members between bars in its result. -/
theorem TypeExpr.convert_print_function :
    (TypeTree.function
        [.apply (.mapping "Dict") [.primitive "str", .apply (.sequence "list") [.primitive "int"]]]
        (.apply .optional [.bars [.named "a.B", .absent]])).isWellFormed = true ∧
      convert .value "Callable[[Dict[str, list[int]]], Optional[a.B | None]]" =
        .ok "(p1: Map<string, Array<number>>) => a.B | null | null" := by
  have hwellFormed : (TypeTree.function
      [.apply (.mapping "Dict") [.primitive "str", .apply (.sequence "list") [.primitive "int"]]]
      (.apply .optional [.bars [.named "a.B", .absent]])).isWellFormed = true := by decide
  exact ⟨hwellFormed, (TypeExpr.convert_print .value hwellFormed).2 (by decide)⟩

end Rebrace
