import Mathlib.Data.List.Basic
import Mathlib.Data.List.Forall2
import Rebrace.Proofs.TargetTypes
import Rebrace.Proofs.TypeReading

/-!
# Reading types of the target

A type of the target is read from the left: a bar that follows a function type belongs to its
result, as there are no parentheses around types.  Where translation puts no bar behind the result
of a function type, the type that is read is the type that the tree stands for, so that trees with
equal translations stand for the same type (`TypeTree.meaning_eq_of_convert_eq`).  Elsewhere they
need not.
-/

namespace Rebrace

open Text

/-! ### Readers -/

/-- Reads one thing after the other, as long as `separator` follows. -/
def readSeparated {α : Type} (read : Text → Option (α × Text)) (separator : Text) :
    Nat → Text → Option (List α × Text)
  | 0, _ => none
  | n + 1, t =>
    (read t).bind fun first =>
      match strip? separator first.2 with
      | some rest =>
        (readSeparated read separator n rest).map fun others => (first.1 :: others.1, others.2)
      | none => some ([first.1], first.2)

/-- The characters of names in the target. -/
def isTargetNameChar (c : Char) : Bool :=
  isIdentifierChar c || c == '.'

namespace Target

/-- What follows the name of a parameter. -/
def skipLabel (t : Text) : Text :=
  (t.dropWhile (· != ' ')).drop 1

section Step

variable (readType : Text → Option (Target × Text)) (n : Nat)

/-- Reads what follows the bracket of a tuple. -/
def readTuple (t : Text) : Option (Target × Text) :=
  (readSeparated readType ", " n t).bind fun items =>
    (strip? "]" items.2).map fun rest => (tuple items.1, rest)

/-- Reads the parameters of a function type. -/
def readParams (t : Text) : Option (List Target × Text) :=
  match strip? ")" t with
  | some _ => some ([], t)
  | none => readSeparated (fun u => readType (skipLabel u)) ", " n t

/-- Reads what follows the parenthesis of a function type. -/
def readFunction (t : Text) : Option (Target × Text) :=
  match strip? "...args: any[]) => " t with
  | some rest => (readType rest).map fun result => (anyFunction result.1, result.2)
  | none =>
    (readParams readType n t).bind fun params =>
      (strip? ") => " params.2).bind fun rest =>
        (readType rest).map fun result => (function params.1 result.1, result.2)

/-- Reads a name, and its arguments if there are some. -/
def readName (t : Text) : Option (Target × Text) :=
  match strip? "<" (t.dropWhile isTargetNameChar) with
  | some inside =>
    (readSeparated readType ", " n inside).bind fun args =>
      (strip? ">" args.2).map fun rest => (apply (t.takeWhile isTargetNameChar) args.1, rest)
  | none => some (named (t.takeWhile isTargetNameChar), t.dropWhile isTargetNameChar)

/-- Reads a type that is not a union, where `readType` reads the types in it. -/
def readStep (t : Text) : Option (Target × Text) :=
  match t with
  | '[' :: rest => readTuple readType n rest
  | '(' :: rest => readFunction readType n rest
  | _ => readName readType n t

end Step

/-- Reads a union whose members `read` reads. -/
def readUnion (read : Text → Option (Target × Text)) (n : Nat) (t : Text) :
    Option (Target × Text) :=
  (readSeparated read " | " n t).map fun members => (union members.1, members.2)

/-- Reads a type that is not a union, up to some depth. -/
def readAlternative : Nat → Text → Option (Target × Text)
  | 0, _ => none
  | n + 1, t => readStep (readUnion (readAlternative n) n) n t

/-- Reads a type. -/
def readType (n : Nat) : Text → Option (Target × Text) :=
  readUnion (readAlternative n) n

/-! ### Texts that are read -/

section Reads

variable {α : Type} (read : Nat → Text → Option (α × Text)) (ends : Text → Prop)

/-- Wherever a text stands in front of one for which `ends` holds, it is read as `a` if the depth
suffices. -/
def Reads (u : Text) (a : α) : Prop :=
  ∃ bound, ∀ n ≥ bound, ∀ rest, ends rest → read n (u ++ rest) = some (a, rest)

/-- Wherever a text stands in front of one for which `ends` holds, it is read as things with
`separator` between them if the depth and the number of things that may be read suffice. -/
def ReadsAll (separator u : Text) (as : List α) : Prop :=
  ∃ bound, ∀ n ≥ bound, ∀ k ≥ bound, ∀ rest, ends rest →
    readSeparated (read n) separator k (u ++ rest) = some (as, rest)

end Reads

section ReadsAll

variable {α : Type} {read : Nat → Text → Option (α × Text)} {ends ends' : Text → Prop}
  {separator u v : Text} {a : α} {as bs : List α}

/-- A text is read in one way. -/
lemma ReadsAll.unique (ha : ReadsAll read ends separator u as)
    (hb : ReadsAll read ends separator u bs) (hends : ends []) : as = bs := by
  obtain ⟨m, hm⟩ := ha
  obtain ⟨n, hn⟩ := hb
  have hleft := hm (max m n) (le_max_left m n) _ (le_max_left m n) [] hends
  have hright := hn (max m n) (le_max_right m n) _ (le_max_right m n) [] hends
  exact congrArg Prod.fst (Option.some.inj (hleft.symm.trans hright))

/-- The last of several things. -/
lemma Reads.last (h : Reads read ends u a) (hends : ∀ rest, ends' rest → ends rest)
    (hseparator : ∀ rest, ends' rest → strip? separator rest = none) :
    ReadsAll read ends' separator u [a] := by
  obtain ⟨bound, hbound⟩ := h
  refine ⟨bound + 1, fun n hn k hk rest hrest => ?_⟩
  obtain ⟨k, rfl⟩ : ∃ j, k = j + 1 := ⟨k - 1, by omega⟩
  have hread := hbound n (by omega) rest (hends rest hrest)
  simp only [readSeparated, hread, hseparator rest hrest, Option.bind_some]

/-- A thing that others follow. -/
lemma Reads.cons (h : Reads read ends u a) (hends : ∀ rest, ends (separator ++ rest))
    (hv : ReadsAll read ends' separator v as) :
    ReadsAll read ends' separator (u ++ separator ++ v) (a :: as) := by
  obtain ⟨m, hm⟩ := h
  obtain ⟨m', hm'⟩ := hv
  refine ⟨max m m' + 1, fun n hn k hk rest hrest => ?_⟩
  obtain ⟨k, rfl⟩ : ∃ j, k = j + 1 := ⟨k - 1, by omega⟩
  have hfirst := hm n (by omega) (separator ++ (v ++ rest)) (hends _)
  have hothers := hm' n (by omega) k (by omega) rest hrest
  have hstrip : strip? separator (separator ++ (v ++ rest)) = some (v ++ rest) :=
    strip?_eq_some_iff.2 rfl
  have happend : u ++ separator ++ v ++ rest = u ++ (separator ++ (v ++ rest)) := by simp
  rw [happend]
  simp only [readSeparated, hfirst, hstrip, hothers, Option.bind_some, Option.map_some]

/-- Things that are read one by one are read together. -/
lemma ReadsAll.join {us : List Text} (hne : us ≠ []) (h : List.Forall₂ (Reads read ends) us as)
    (hcons : ∀ rest, ends (separator ++ rest)) (hlast : ∀ rest, ends' rest → ends rest)
    (hseparator : ∀ rest, ends' rest → strip? separator rest = none) :
    ReadsAll read ends' separator (join separator us) as := by
  induction h with
  | nil => exact absurd rfl hne
  | @cons u a us as hu hus ih =>
    cases hus with
    | nil =>
      have hjoin : Text.join separator [u] = u := List.intercalate_singleton
      rw [hjoin]
      exact hu.last hlast hseparator
    | @cons v b us as hv hus =>
      have hjoin : Text.join separator (u :: v :: us) =
          u ++ separator ++ Text.join separator (v :: us) := List.intercalate_cons_cons
      rw [hjoin]
      exact hu.cons hcons (ih (List.cons_ne_nil v us))

end ReadsAll

/-- What ends a name that is not applied to arguments. -/
def EndsName (rest : Text) : Prop :=
  ∀ c ∈ rest.head?, isTargetNameChar c = false ∧ c ≠ '<'

/-- What ends a type. -/
def EndsType (rest : Text) : Prop :=
  EndsName rest ∧ strip? " | " rest = none

/-- What ends several types. -/
def EndsTypes (rest : Text) : Prop :=
  EndsType rest ∧ strip? ", " rest = none

/-- A text is read as the type with these members. -/
def IsType (u : Text) (members : List Target) : Prop :=
  ReadsAll readAlternative EndsType " | " u members

/-- A text is read as these members of a type, also if others follow. -/
def Continues (u : Text) (members : List Target) : Prop :=
  ∀ v others, IsType v others → IsType (u ++ " | " ++ v) (members ++ others)

/-! ### Ends -/

/-- A character that ends types, also behind several of them. -/
lemma endsTypes_cons {c : Char} (hname : isTargetNameChar c = false) (hopen : c ≠ '<')
    (hspace : c ≠ ' ') (hcomma : c ≠ ',') (rest : Text) : EndsTypes (c :: rest) := by
  refine ⟨⟨fun d hd => ?_, if_neg (Ne.symm hspace)⟩, if_neg (Ne.symm hcomma)⟩
  obtain rfl : c = d := Option.some.inj hd
  exact ⟨hname, hopen⟩

/-- A type ends at a comma. -/
lemma endsType_comma (rest : Text) : EndsType (", " ++ rest) := by
  refine ⟨fun c hc => ?_, rfl⟩
  obtain rfl : ',' = c := Option.some.inj hc
  decide

/-- A name ends at a bar. -/
lemma endsName_bar (rest : Text) : EndsName (" | " ++ rest) := by
  intro c hc
  obtain rfl : ' ' = c := Option.some.inj hc
  decide

/-- A type ends where the text does. -/
lemma endsType_nil : EndsType [] :=
  ⟨fun _ hc => (nomatch hc), rfl⟩

/-! ### Members -/

section Members

variable {u v : Text} {a : Target} {as bs : List Target}

/-- The members of a type are read as a union. -/
lemma IsType.reads (h : IsType u as) : Reads readType EndsType u (union as) := by
  obtain ⟨bound, hbound⟩ := h
  refine ⟨bound, fun n hn rest hrest => ?_⟩
  have hread := hbound n hn n hn rest hrest
  simp only [readType, readUnion, hread, Option.map_some]

/-- A text is read as only one type. -/
lemma IsType.unique (has : IsType u as) (hbs : IsType u bs) : as = bs :=
  ReadsAll.unique has hbs endsType_nil

/-- A member that a bar does not follow. -/
lemma Reads.isType (h : Reads readAlternative EndsType u a) : IsType u [a] :=
  h.last (fun _ hrest => hrest) fun _ hrest => hrest.2

/-- A member that a name ends, also in front of a bar. -/
lemma Reads.isType_and_continues (h : Reads readAlternative EndsName u a) :
    IsType u [a] ∧ Continues u [a] :=
  ⟨h.last (fun _ hrest => hrest.1) fun _ hrest => hrest.2, fun _ _ hv => h.cons endsName_bar hv⟩

lemma Continues.append (hu : Continues u as) (hv : Continues v bs) :
    Continues (u ++ " | " ++ v) (as ++ bs) := by
  intro w others hw
  have hread := hu _ _ (hv w others hw)
  rw [← List.append_assoc, ← List.append_assoc, ← List.append_assoc] at hread
  exact hread

/-- Texts between bars are read as the members of all of them. -/
lemma isType_join {read : Text → List Target} {us : List Text} (hne : us ≠ [])
    (htype : ∀ u ∈ us, IsType u (read u)) (hcontinues : ∀ u ∈ us.dropLast, Continues u (read u)) :
    IsType (join " | " us) (us.flatMap read) := by
  induction us with
  | nil => exact absurd rfl hne
  | cons u us ih =>
    obtain ⟨hu, hus⟩ := List.forall_mem_cons.1 htype
    cases us with
    | nil => simpa [join] using hu
    | cons v us =>
      obtain ⟨hfirst, hothers⟩ := List.forall_mem_cons.1 hcontinues
      have hjoin : join " | " (u :: v :: us) = u ++ " | " ++ join " | " (v :: us) :=
        List.intercalate_cons_cons
      rw [hjoin, List.flatMap_cons]
      exact hfirst _ _ (ih (List.cons_ne_nil v us) hus hothers)

/-- The same if others follow. -/
lemma continues_join {read : Text → List Target} {us : List Text} (hne : us ≠ [])
    (hcontinues : ∀ u ∈ us, Continues u (read u)) :
    Continues (join " | " us) (us.flatMap read) := by
  induction us with
  | nil => exact absurd rfl hne
  | cons u us ih =>
    obtain ⟨hu, hus⟩ := List.forall_mem_cons.1 hcontinues
    cases us with
    | nil => simpa [join] using hu
    | cons v us =>
      have hjoin : join " | " (u :: v :: us) = u ++ " | " ++ join " | " (v :: us) :=
        List.intercalate_cons_cons
      rw [hjoin, List.flatMap_cons]
      exact hu.append (ih (List.cons_ne_nil v us) hus)

end Members

/-! ### Alternatives -/

/-- A type that is not a union is read one level deeper than the types in it. -/
lemma reads_alternative {ends : Text → Prop} {u : Text} {a : Target} (bound : Nat)
    (h : ∀ n ≥ bound, ∀ rest, ends rest → readStep (readType n) n (u ++ rest) = some (a, rest)) :
    Reads readAlternative ends u a := by
  refine ⟨bound + 1, fun n hn rest hrest => ?_⟩
  obtain ⟨m, rfl⟩ : ∃ m, n = m + 1 := ⟨n - 1, by omega⟩
  exact h m (by omega) rest hrest

/-- Types between commas. -/
lemma readsAll_join {us : List Text} {ms : List (List Target)} (hne : us ≠ [])
    (h : List.Forall₂ IsType us ms) :
    ReadsAll readType EndsTypes ", " (join ", " us) (ms.map union) := by
  have hreads : List.Forall₂ (Reads readType EndsType) us (ms.map union) :=
    List.forall₂_map_right_iff.2 (h.imp fun _ _ hu => hu.reads)
  exact .join hne hreads endsType_comma (fun _ hrest => hrest.1) fun _ hrest => hrest.2

/-- A tuple is read. -/
lemma reads_tuple {us : List Text} {ms : List (List Target)} (hne : us ≠ [])
    (h : List.Forall₂ IsType us ms) :
    Reads readAlternative EndsName ("[" ++ join ", " us ++ "]") (tuple (ms.map union)) := by
  obtain ⟨bound, hbound⟩ := readsAll_join hne h
  refine reads_alternative bound fun n hn rest _ => ?_
  have hitems := hbound n hn n hn (']' :: rest)
    (endsTypes_cons (by decide) (by decide) (by decide) (by decide) rest)
  have happend : "[" ++ join ", " us ++ "]" ++ rest = '[' :: (join ", " us ++ ']' :: rest) := by
    simp
  have hstrip : strip? "]" (']' :: rest) = some rest := strip?_eq_some_iff.2 rfl
  rw [happend]
  simp only [readStep, readTuple, hitems, hstrip, Option.bind_some, Option.map_some]

section Names

variable {name : Text} (hne : name ≠ []) (hname : ∀ c ∈ name, isTargetNameChar c = true)
include hname

include hne in
/-- A text that starts with a name is read as a name. -/
lemma readStep_eq_readName (read : Text → Option (Target × Text)) (n : Nat) (rest : Text) :
    readStep read n (name ++ rest) = readName read n (name ++ rest) := by
  obtain ⟨c, letters, rfl⟩ := List.exists_cons_of_ne_nil hne
  have hc := hname c List.mem_cons_self
  unfold readStep
  split
  · rename_i heq
    obtain rfl := (List.cons.inj heq).1
    exact absurd hc (by decide)
  · rename_i heq
    obtain rfl := (List.cons.inj heq).1
    exact absurd hc (by decide)
  · rfl

include hne in
/-- A name that is not applied is read. -/
lemma reads_named : Reads readAlternative EndsName name (named name) := by
  refine reads_alternative 0 fun n _ rest hrest => ?_
  obtain ⟨htake, hdrop⟩ := takeWhile_dropWhile_append hname fun c hc => (hrest c hc).1
  have hopen : strip? "<" rest = none := by
    cases rest with
    | nil => rfl
    | cons c rest => exact if_neg (Ne.symm (hrest c rfl).2)
  rw [readStep_eq_readName hne hname]
  simp only [readName, htake, hdrop, hopen]

include hne in
/-- A name that is applied is read. -/
lemma reads_apply {us : List Text} {ms : List (List Target)} (hus : us ≠ [])
    (h : List.Forall₂ IsType us ms) :
    Reads readAlternative EndsName (targetApplication name us) (apply name (ms.map union)) := by
  obtain ⟨bound, hbound⟩ := readsAll_join hus h
  refine reads_alternative bound fun n hn rest _ => ?_
  have hargs := hbound n hn n hn ('>' :: rest)
    (endsTypes_cons (by decide) (by decide) (by decide) (by decide) rest)
  have happend : targetApplication name us ++ rest =
      name ++ ("<" ++ (join ", " us ++ '>' :: rest)) := by simp [targetApplication]
  have hends : ∀ c ∈ ("<" ++ (join ", " us ++ '>' :: rest)).head?, isTargetNameChar c = false := by
    intro c hc
    obtain rfl : '<' = c := Option.some.inj hc
    decide
  obtain ⟨htake, hdrop⟩ := takeWhile_dropWhile_append hname hends
  have hopen : strip? "<" ("<" ++ (join ", " us ++ '>' :: rest)) =
      some (join ", " us ++ '>' :: rest) := strip?_eq_some_iff.2 rfl
  have hclose : strip? ">" ('>' :: rest) = some rest := strip?_eq_some_iff.2 rfl
  rw [happend, readStep_eq_readName hne hname]
  simp only [readName, htake, hdrop, hopen, hargs, hclose, Option.bind_some, Option.map_some]

end Names

/-- The name of a parameter is skipped. -/
lemma skipLabel_append (k : Nat) (t : Text) : skipLabel ("p" ++ decimal k ++ ": " ++ t) = t := by
  have hlabel : ∀ c ∈ "p" ++ decimal k ++ ":", (c != ' ') = true := by
    intro c hc
    rw [bne_iff_ne]
    rintro rfl
    have hdigit : ' ' ∉ decimal k := fun hmem =>
      absurd (Nat.isDigit_of_mem_toDigits (by decide) (by decide) hmem) (by decide)
    simp [hdigit] at hc
  have happend : "p" ++ decimal k ++ ": " ++ t = "p" ++ decimal k ++ ":" ++ ' ' :: t := by simp
  unfold skipLabel
  rw [happend, List.dropWhile_append_of_pos hlabel]
  rfl

/-- The parameters of a function type are read. -/
lemma readsAll_numberFrom (first : Nat) {us : List Text} {ms : List (List Target)}
    (hne : us ≠ []) (h : List.Forall₂ IsType us ms) :
    ReadsAll (fun n t => readType n (skipLabel t)) EndsTypes ", "
      (join ", " (TypeTree.numberFrom first us)) (ms.map union) := by
  have hreads : List.Forall₂ (Reads (fun n t => readType n (skipLabel t)) EndsType)
      (TypeTree.numberFrom first us) (ms.map union) := by
    clear hne
    induction h generalizing first with
    | nil => exact .nil
    | @cons u m us ms hu _ ih =>
      obtain ⟨bound, hbound⟩ := hu.reads
      refine .cons ⟨bound, fun n hn rest hrest => ?_⟩ (ih (first + 1))
      have hskip := skipLabel_append first (u ++ rest)
      rw [← List.append_assoc] at hskip
      exact (congrArg (readType n) hskip).trans (hbound n hn rest hrest)
  have hnumbers : TypeTree.numberFrom first us ≠ [] := by
    cases us with
    | nil => exact absurd rfl hne
    | cons u us => exact List.cons_ne_nil _ _
  exact .join hnumbers hreads endsType_comma (fun _ hrest => hrest.1) fun _ hrest => hrest.2

/-- What the parameters of a function type start with. -/
lemma exists_join_numberFrom_eq_cons (first : Nat) (u : Text) (us : List Text) :
    ∃ t, join ", " (TypeTree.numberFrom first (u :: us)) = 'p' :: t := by
  cases us with
  | nil => exact ⟨_, rfl⟩
  | cons v us => exact ⟨_, rfl⟩

/-- The parameters of a function type are read, also if there are none. -/
lemma exists_readParams_eq {us : List Text} {ms : List (List Target)}
    (h : List.Forall₂ IsType us ms) :
    ∃ bound, ∀ n ≥ bound, ∀ rest,
      readParams (readType n) n (join ", " (TypeTree.numberFrom 1 us) ++ ')' :: rest) =
        some (ms.map union, ')' :: rest) := by
  cases h with
  | nil => exact ⟨0, fun n _ rest => rfl⟩
  | @cons u m us ms hu hus =>
    obtain ⟨bound, hbound⟩ := readsAll_numberFrom 1 (List.cons_ne_nil u us) (.cons hu hus)
    refine ⟨bound, fun n hn rest => ?_⟩
    have hparams := hbound n hn n hn (')' :: rest)
      (endsTypes_cons (by decide) (by decide) (by decide) (by decide) rest)
    have hstrip :
        strip? ")" (join ", " (TypeTree.numberFrom 1 (u :: us)) ++ ')' :: rest) = none := by
      obtain ⟨t, ht⟩ := exists_join_numberFrom_eq_cons 1 u us
      rw [ht]
      rfl
    simp only [readParams, hstrip, hparams]

/-- A function type is read, with all that follows in its result. -/
lemma reads_function {us : List Text} {ms : List (List Target)} (h : List.Forall₂ IsType us ms)
    {v : Text} {rs : List Target} (hv : IsType v rs) :
    Reads readAlternative EndsType (targetFunction (join ", " (TypeTree.numberFrom 1 us)) v)
      (function (ms.map union) (union rs)) := by
  obtain ⟨m, hm⟩ := exists_readParams_eq h
  obtain ⟨m', hm'⟩ := hv.reads
  refine reads_alternative (max m m') fun n hn rest hrest => ?_
  have hparams := hm n (by omega) (" => " ++ (v ++ rest))
  have hresult := hm' n (by omega) rest hrest
  have happend : targetFunction (join ", " (TypeTree.numberFrom 1 us)) v ++ rest =
      '(' :: (join ", " (TypeTree.numberFrom 1 us) ++ ')' :: (" => " ++ (v ++ rest))) := by
    simp [targetFunction]
  have hany : strip? "...args: any[]) => "
      (join ", " (TypeTree.numberFrom 1 us) ++ ')' :: (" => " ++ (v ++ rest))) = none := by
    cases us with
    | nil => rfl
    | cons u us =>
      obtain ⟨t, ht⟩ := exists_join_numberFrom_eq_cons 1 u us
      rw [ht]
      rfl
  have hstrip : strip? ") => " (')' :: (" => " ++ (v ++ rest))) = some (v ++ rest) :=
    strip?_eq_some_iff.2 rfl
  rw [happend]
  simp only [readStep, readFunction, hany, hparams, hstrip, hresult, Option.bind_some,
    Option.map_some]

/-- The type of the functions that take any arguments is read, with all that follows in the
result. -/
lemma reads_anyFunction {v : Text} {rs : List Target} (hv : IsType v rs) :
    Reads readAlternative EndsType (targetFunction "...args: any[]" v)
      (anyFunction (union rs)) := by
  obtain ⟨bound, hbound⟩ := hv.reads
  refine reads_alternative bound fun n hn rest hrest => ?_
  have hresult := hbound n hn rest hrest
  have happend : targetFunction "...args: any[]" v ++ rest =
      '(' :: ("...args: any[]) => " ++ (v ++ rest)) := by simp [targetFunction]
  have hstrip : strip? "...args: any[]) => " ("...args: any[]) => " ++ (v ++ rest)) =
      some (v ++ rest) := strip?_eq_some_iff.2 rfl
  rw [happend]
  simp only [readStep, readFunction, hstrip, hresult, Option.map_some]

/-! ### Trees -/

/-- A text is read as the type `a`, and also if a bar follows unless it ends in the result of a
function type. -/
def Recovers (u : Text) (endsInResult : Bool) (a : Target) : Prop :=
  ∃ ms, IsType u ms ∧ (endsInResult = false → Continues u ms) ∧ (union ms).type = a.type

section Recovers

variable {u v : Text} {a b : Target}

lemma type_union_single (a : Target) : (union [a]).type = a.type :=
  Quot.sound (Law.single a)

/-- A type that is not a union, and does not end in the result of a function type. -/
lemma Reads.recovers (h : Reads readAlternative EndsName u a) (hab : a.type = b.type)
    (endsInResult : Bool) : Recovers u endsInResult b := by
  obtain ⟨htype, hcontinues⟩ := h.isType_and_continues
  exact ⟨[a], htype, fun _ => hcontinues, (type_union_single a).trans hab⟩

/-- A function type. -/
lemma Reads.recovers_result (h : Reads readAlternative EndsType u a) (hab : a.type = b.type) :
    Recovers u true b :=
  ⟨[a], h.isType, fun hfalse => absurd hfalse (by decide), (type_union_single a).trans hab⟩

/-- A type that null is added to. -/
lemma Recovers.optional (h : Recovers u false a) (endsInResult : Bool) :
    Recovers (u ++ " | null") endsInResult (union [a, named "null"]) := by
  obtain ⟨ms, -, hcontinues, htype⟩ := h
  have hreads : Reads readAlternative EndsName "null" (named "null") :=
    reads_named (by decide) (forall_mem_of_all (by decide))
  obtain ⟨hnull, hnulls⟩ := hreads.isType_and_continues
  have happend : u ++ " | null" = u ++ " | " ++ "null" := by simp
  rw [happend]
  refine ⟨ms ++ [named "null"], hcontinues rfl _ _ hnull,
    fun _ => (hcontinues rfl).append hnulls, ?_⟩
  calc (union (ms ++ [named "null"])).type
      = (union [union ms, named "null"]).type :=
        (Quot.sound (Law.flatten [] ms [named "null"])).symm
    _ = (union [a, named "null"]).type :=
        type_congr_list Law.member (.cons htype (.cons rfl .nil))

/-- Types that are read one by one. -/
lemma exists_forall₂_isType {ts : List TypeTree}
    (h : ∀ t ∈ ts, Recovers (t.target .value) t.endsInResult (t.denote .value)) :
    ∃ ms, List.Forall₂ IsType (TypeTree.targetAll ts) ms ∧
      List.Forall₂ (fun a b => a.type = b.type) (ms.map union) (TypeTree.denoteAll ts) := by
  induction ts with
  | nil => exact ⟨[], .nil, .nil⟩
  | cons t ts ih =>
    obtain ⟨⟨m, hm, -, htype⟩, hts⟩ := List.forall_mem_cons.1 h
    obtain ⟨ms, hms, htypes⟩ := ih hts
    exact ⟨m :: ms, .cons hm hms, .cons htype htypes⟩

/-- How the texts of trees are read depends on the texts only. -/
lemma exists_reading {ts : List TypeTree}
    (h : ∀ t ∈ ts, Recovers (t.target .value) t.endsInResult (t.denote .value)) :
    ∃ read : Text → List Target, ∀ t ∈ ts, IsType (t.target .value) (read (t.target .value)) ∧
      (t.endsInResult = false → Continues (t.target .value) (read (t.target .value))) ∧
      (union (read (t.target .value))).type = (t.denote .value).type := by
  have hchoice : ∀ u : Text, ∃ ms, (∃ ms', IsType u ms') → IsType u ms := by
    intro u
    by_cases hu : ∃ ms', IsType u ms'
    · obtain ⟨ms, hms⟩ := hu
      exact ⟨ms, fun _ => hms⟩
    · exact ⟨[], fun hu' => absurd hu' hu⟩
  choose read hread using hchoice
  refine ⟨read, fun t ht => ?_⟩
  obtain ⟨ms, hms, hcontinues, htype⟩ := h t ht
  have heq : read (t.target .value) = ms := (hread _ ⟨ms, hms⟩).unique hms
  rw [heq]
  exact ⟨hms, hcontinues, htype⟩

/-- Removing duplicates keeps what is in front of the last text there. -/
lemma mem_dropLast_of_mem_eraseDups {us : List Text} {u : Text} (h : u ∈ us.eraseDups.dropLast) :
    u ∈ us.dropLast := by
  rcases List.eq_nil_or_concat us with rfl | ⟨init, x, rfl⟩
  · exact h
  · rw [List.concat_eq_append, List.eraseDups_append] at h
    rw [List.concat_eq_append, List.dropLast_concat]
    by_cases hx : x ∈ init
    · have hnone : [x].removeAll init = [] := by simp [List.removeAll, hx]
      rw [hnone, List.eraseDups_nil, List.append_nil] at h
      exact List.mem_eraseDups.1 (List.dropLast_subset _ h)
    · have hone : [x].removeAll init = [x] := by simp [List.removeAll, hx]
      have hsingle : [x].eraseDups = [x] := rfl
      rw [hone, hsingle, List.dropLast_concat] at h
      exact List.mem_eraseDups.1 h

/-- Where no result of a function type is last, there is none. -/
lemma endsInResult_eq_false {ts : List TypeTree} (hseparate : TypeTree.areSeparate ts = true)
    (hlast : TypeTree.lastEndsInResult ts = false) : ∀ t ∈ ts, t.endsInResult = false := by
  induction ts with
  | nil => exact List.forall_mem_nil _
  | cons t ts ih =>
    cases ts with
    | nil => simpa [TypeTree.lastEndsInResult] using hlast
    | cons t' ts =>
      simp only [TypeTree.areSeparate, List.dropLast_cons_cons, List.all_cons, Bool.and_eq_true,
        Bool.not_eq_eq_eq_not, Bool.not_true] at hseparate
      exact List.forall_mem_cons.2 ⟨hseparate.1, ih hseparate.2 hlast⟩

/-- A union, in which texts that are equal are given once. -/
lemma recovers_union {ts : List TypeTree} (hne : ts ≠ [])
    (h : ∀ t ∈ ts, Recovers (t.target .value) t.endsInResult (t.denote .value))
    (hseparate : TypeTree.areSeparate ts = true) :
    Recovers (join " | " (TypeTree.targetAll ts).eraseDups) (TypeTree.lastEndsInResult ts)
      (union (TypeTree.denoteAll ts)) := by
  obtain ⟨read, hread⟩ := exists_reading h
  rw [TypeTree.targetAll_eq_map, TypeTree.denoteAll_eq_map]
  have hne' : (ts.map (TypeTree.target .value)).eraseDups ≠ [] := by
    obtain ⟨t, ts, rfl⟩ := List.exists_cons_of_ne_nil hne
    exact List.ne_nil_of_mem (List.mem_eraseDups.2 List.mem_cons_self)
  refine ⟨(ts.map (TypeTree.target .value)).eraseDups.flatMap read,
    isType_join hne' (fun u hu => ?_) fun u hu => ?_,
    fun hlast => continues_join hne' fun u hu => ?_, ?_⟩
  · obtain ⟨t, ht, rfl⟩ := List.mem_map.1 (List.mem_eraseDups.1 hu)
    exact (hread t ht).1
  · have hmem := mem_dropLast_of_mem_eraseDups hu
    rw [← List.map_dropLast] at hmem
    obtain ⟨t, ht, rfl⟩ := List.mem_map.1 hmem
    have hends := List.all_eq_true.1 hseparate t ht
    exact (hread t (List.dropLast_subset _ ht)).2.1 (by simpa using hends)
  · obtain ⟨t, ht, rfl⟩ := List.mem_map.1 (List.mem_eraseDups.1 hu)
    exact (hread t ht).2.1 (endsInResult_eq_false hseparate hlast t ht)
  · have hset : ∀ a, a ∈ (ts.map (TypeTree.target .value)).eraseDups.flatMap read ↔
        a ∈ (ts.map fun t => read (t.target .value)).flatten := by
      intro a
      simp [List.mem_flatMap, List.mem_eraseDups]
    have hmembers : List.Forall₂ (fun a b => a.type = b.type)
        ((ts.map fun t => read (t.target .value)).map union) (ts.map (TypeTree.denote .value)) := by
      rw [List.map_map, List.forall₂_map_left_iff, List.forall₂_map_right_iff, List.forall₂_same]
      exact fun t ht => (hread t ht).2.2
    calc (union ((ts.map (TypeTree.target .value)).eraseDups.flatMap read)).type
        = (union (ts.map fun t => read (t.target .value)).flatten).type :=
          Quot.sound (Law.members hset)
      _ = (union ((ts.map fun t => read (t.target .value)).map union)).type :=
          (type_union_map_union _).symm
      _ = (union (ts.map (TypeTree.denote .value))).type := type_congr_list Law.member hmembers

lemma targetAll_ne_nil {ts : List TypeTree} (h : ts ≠ []) : TypeTree.targetAll ts ≠ [] := by
  rw [TypeTree.targetAll_eq_map]
  exact fun hnil => h (List.map_eq_nil_iff.1 hnil)

/-- A name that is not applied. -/
lemma recovers_named {name : Text} (hne : name ≠ []) (hname : ∀ c ∈ name, isTargetNameChar c = true)
    (endsInResult : Bool) : Recovers name endsInResult (named name) :=
  (reads_named hne hname).recovers rfl endsInResult

/-- A name that is applied. -/
lemma recovers_apply {name : Text} (hne : name ≠ []) (hname : ∀ c ∈ name, isTargetNameChar c = true)
    {ts : List TypeTree} (hts : ts ≠ [])
    (h : ∀ t ∈ ts, Recovers (t.target .value) t.endsInResult (t.denote .value))
    (endsInResult : Bool) :
    Recovers (targetApplication name (TypeTree.targetAll ts)) endsInResult
      (apply name (TypeTree.denoteAll ts)) := by
  obtain ⟨ms, hms, htypes⟩ := exists_forall₂_isType h
  exact (reads_apply hne hname (targetAll_ne_nil hts) hms).recovers
    (type_congr_list Law.arg htypes) endsInResult

/-- A tuple. -/
lemma recovers_tuple {ts : List TypeTree} (hts : ts ≠ [])
    (h : ∀ t ∈ ts, Recovers (t.target .value) t.endsInResult (t.denote .value))
    (endsInResult : Bool) :
    Recovers ("[" ++ join ", " (TypeTree.targetAll ts) ++ "]") endsInResult
      (tuple (TypeTree.denoteAll ts)) := by
  obtain ⟨ms, hms, htypes⟩ := exists_forall₂_isType h
  exact (reads_tuple (targetAll_ne_nil hts) hms).recovers
    (type_congr_list Law.item htypes) endsInResult

/-- A function type. -/
lemma recovers_function {ts : List TypeTree}
    (h : ∀ t ∈ ts, Recovers (t.target .value) t.endsInResult (t.denote .value))
    {endsInResult : Bool} (hv : Recovers v endsInResult b) :
    Recovers (targetFunction (join ", " (TypeTree.numberFrom 1 (TypeTree.targetAll ts))) v) true
      (function (TypeTree.denoteAll ts) b) := by
  obtain ⟨ms, hms, htypes⟩ := exists_forall₂_isType h
  obtain ⟨rs, hrs, -, hresult⟩ := hv
  refine (reads_function hms hrs).recovers_result ?_
  calc (function (ms.map union) (union rs)).type
      = (function (TypeTree.denoteAll ts) (union rs)).type :=
        type_congr_list (f := fun params => function params (union rs)) Law.param htypes
    _ = (function (TypeTree.denoteAll ts) b).type := type_congr Law.result hresult

/-- The type of the functions that take any arguments. -/
lemma recovers_anyFunction {endsInResult : Bool} (hv : Recovers v endsInResult b) :
    Recovers (targetFunction "...args: any[]" v) true (anyFunction b) := by
  obtain ⟨rs, hrs, -, hresult⟩ := hv
  exact (reads_anyFunction hrs).recovers_result (type_congr Law.anyResult hresult)

end Recovers

/-- A dotted name is a name in the target. -/
lemma isTargetNameChar_of_isDotted {name : Text} (h : isDotted name = true) :
    name ≠ [] ∧ ∀ c ∈ name, isTargetNameChar c = true := by
  cases name with
  | nil => cases h
  | cons c name =>
    rw [isDotted, Bool.and_eq_true, List.all_eq_true] at h
    refine ⟨List.cons_ne_nil c name, List.forall_mem_cons.2 ⟨?_, h.2⟩⟩
    rw [isTargetNameChar, h.1, Bool.true_or]

/-- The spellings of primitive types are names in the target. -/
lemma isTargetNameChar_of_lookup? {name spelling : Text}
    (h : lookup? Shape.primitives name = some spelling) :
    spelling ≠ [] ∧ ∀ c ∈ spelling, isTargetNameChar c = true := by
  obtain ⟨entry, hmem, rfl⟩ := exists_mem_of_lookup? h
  have hall : ∀ entry ∈ Shape.primitives, entry.2 ≠ [] ∧ entry.2.all isTargetNameChar = true := by
    decide
  exact (hall entry hmem).imp_right List.all_eq_true.1

end Target

/-- Where a name is applied to the number of arguments that it needs, there are arguments. -/
lemma TypeHead.pos_of_admits {head : TypeHead} {count : Nat} (hadmits : head.admits count = true)
    (harity : head.arity?.all (· == count) = true) : 0 < count := by
  cases head with
  | union => simpa [admits] using hadmits
  | tuple name =>
    simp only [admits, Bool.and_eq_true, decide_eq_true_eq] at hadmits
    exact hadmits.2
  | generic name =>
    simp only [admits, Bool.and_eq_true, decide_eq_true_eq] at hadmits
    exact hadmits.2
  | optional | sequence name | mapping name | iterator | iterable =>
    simp only [arity?, Option.all_some, beq_iff_eq] at harity
    omega

namespace TypeTree

open Target

/-- A name that is applied to arguments. -/
lemma recovers_applied {head : TypeHead} {args : List TypeTree}
    (hadmits : head.admits args.length = true) (harity : head.arity?.all (· == args.length) = true)
    (h : ∀ t ∈ args, Recovers (t.target .value) t.endsInResult (t.denote .value))
    (hseparate : areSeparateIn args head = true) :
    Recovers (head.target (targetAll args)) (apply head args).endsInResult
      (head.denote (denoteAll args)) := by
  have hpos := TypeHead.pos_of_admits hadmits harity
  have hne : args ≠ [] := List.length_pos_iff.1 hpos
  cases head with
  | union => exact recovers_union hne h hseparate
  | optional =>
    rw [TypeHead.arity?, Option.all_some, beq_iff_eq] at harity
    obtain ⟨t, rfl⟩ := List.length_eq_one_iff.1 harity.symm
    rw [areSeparateIn, List.all_cons, List.all_nil, Bool.and_true, Bool.not_eq_eq_eq_not,
      Bool.not_true] at hseparate
    have ht := h t List.mem_cons_self
    rw [hseparate] at ht
    have hjoin : join " | " (targetAll [t]) = t.target .value := List.intercalate_singleton
    rw [TypeHead.target, hjoin]
    exact ht.optional _
  | sequence name => exact recovers_apply (by decide) (forall_mem_of_all (by decide)) hne h _
  | mapping name => exact recovers_apply (by decide) (forall_mem_of_all (by decide)) hne h _
  | iterator => exact recovers_apply (by decide) (forall_mem_of_all (by decide)) hne h _
  | iterable => exact recovers_apply (by decide) (forall_mem_of_all (by decide)) hne h _
  | tuple name => exact recovers_tuple hne h _
  | generic name =>
    simp only [TypeHead.admits, Bool.and_eq_true] at hadmits
    obtain ⟨hname, hchars⟩ := isTargetNameChar_of_isDotted hadmits.1.1
    exact recovers_apply hname hchars hne h _

/-- **The type that a tree stands for is read from its form in the target**, unless a bar follows
the result of a function type. -/
lemma recovers_target {t : TypeTree} (h : t.isWellFormed = true)
    (hcorrect : t.isArityCorrect = true) (hclear : t.isUnambiguous = true) (place : Place) :
    Recovers (t.target place) t.endsInResult (t.denote place) := by
  induction t using TypeTree.induction generalizing place with
  | primitive name =>
    rw [isWellFormed] at h
    obtain ⟨spelling, hspelling⟩ := Option.isSome_iff_exists.1 h
    obtain ⟨hne, hchars⟩ := isTargetNameChar_of_lookup? hspelling
    rw [target, denote, hspelling, Option.getD_some]
    exact recovers_named hne hchars _
  | absent =>
    cases place with
    | result => exact recovers_named (by decide) (forall_mem_of_all (by decide)) _
    | value => exact recovers_named (by decide) (forall_mem_of_all (by decide)) _
  | named name =>
    rw [isWellFormed, Bool.and_eq_true, Bool.and_eq_true] at h
    obtain ⟨hne, hchars⟩ := isTargetNameChar_of_isDotted h.1.1
    exact recovers_named hne hchars _
  | bars members ih =>
    rw [isWellFormed, Bool.and_eq_true, Bool.and_eq_true, decide_eq_true_eq, areWellFormed_iff] at h
    rw [isArityCorrect, areArityCorrect_iff] at hcorrect
    rw [isUnambiguous, Bool.and_eq_true, areUnambiguous_iff] at hclear
    have hne : members ≠ [] := List.length_pos_iff.1 (by omega)
    have hmembers : ∀ t ∈ members, Recovers (t.target .value) t.endsInResult (t.denote .value) :=
      fun t ht => ih t ht (h.2 t ht) (hcorrect t ht) (hclear.2 t ht) .value
    exact recovers_union hne hmembers hclear.1
  | apply head args ih =>
    rw [isWellFormed, Bool.and_eq_true, areWellFormed_iff] at h
    rw [isArityCorrect, Bool.and_eq_true, areArityCorrect_iff] at hcorrect
    rw [isUnambiguous, Bool.and_eq_true, areUnambiguous_iff] at hclear
    have hargs : ∀ t ∈ args, Recovers (t.target .value) t.endsInResult (t.denote .value) :=
      fun t ht => ih t ht (h.2 t ht) (hcorrect.2 t ht) (hclear.2 t ht) .value
    exact recovers_applied h.1 hcorrect.1 hargs hclear.1
  | repeated name item ih =>
    rw [isWellFormed, Bool.and_eq_true] at h
    rw [isArityCorrect] at hcorrect
    rw [isUnambiguous] at hclear
    have hitems : ∀ t ∈ [item], Recovers (t.target .value) t.endsInResult (t.denote .value) :=
      List.forall_mem_singleton.2 (ih h.2 hcorrect hclear .value)
    exact recovers_apply (by decide) (forall_mem_of_all (by decide)) (List.cons_ne_nil item [])
      hitems _
  | function params result ihparams ihresult =>
    rw [isWellFormed, Bool.and_eq_true, areWellFormed_iff] at h
    rw [isArityCorrect, Bool.and_eq_true, areArityCorrect_iff] at hcorrect
    rw [isUnambiguous, Bool.and_eq_true, areUnambiguous_iff] at hclear
    have hparams : ∀ t ∈ params, Recovers (t.target .value) t.endsInResult (t.denote .value) :=
      fun t ht => ihparams t ht (h.1 t ht) (hcorrect.1 t ht) (hclear.1 t ht) .value
    exact recovers_function hparams (ihresult h.2 hcorrect.2 hclear.2 .result)
  | anyFunction result ih =>
    rw [isWellFormed] at h
    rw [isArityCorrect] at hcorrect
    rw [isUnambiguous] at hclear
    exact recovers_anyFunction (ih h hcorrect hclear .result)

/-- **Equal translations stand for the same type**, where no bar follows the result of a function
type. -/
theorem meaning_eq_of_convert_eq {t₁ t₂ : TypeTree} (h₁ : t₁.isWellFormed = true)
    (hcorrect₁ : t₁.isArityCorrect = true) (hclear₁ : t₁.isUnambiguous = true)
    (h₂ : t₂.isWellFormed = true) (hcorrect₂ : t₂.isArityCorrect = true)
    (hclear₂ : t₂.isUnambiguous = true)
    (heq : TypeExpr.convert .value t₁.print = TypeExpr.convert .value t₂.print) :
    t₁.meaning = t₂.meaning := by
  rw [t₁.convert_eq_ok h₁ hcorrect₁, t₂.convert_eq_ok h₂ hcorrect₂, Except.ok.injEq] at heq
  obtain ⟨ms₁, hms₁, -, htype₁⟩ := recovers_target h₁ hcorrect₁ hclear₁ .value
  obtain ⟨ms₂, hms₂, -, htype₂⟩ := recovers_target h₂ hcorrect₂ hclear₂ .value
  rw [heq] at hms₁
  have hms : ms₁ = ms₂ := hms₁.unique hms₂
  calc t₁.meaning = (Target.union ms₁).type := htype₁.symm
    _ = (Target.union ms₂).type := by rw [hms]
    _ = t₂.meaning := htype₂

/-- Two ways to write down a union whose last member is a function type. -/
theorem meaning_eq_of_convert_eq_function :
    TypeExpr.convert .value "Union[str, Callable[[], int]]" = .ok "string | () => number" ∧
      (apply .union [primitive "str", function [] (primitive "int")]).meaning =
        (bars [primitive "str", function [] (primitive "float")]).meaning := by
  have hunion := convert_eq_ok (t := apply .union [primitive "str", function [] (primitive "int")])
    (by decide) (by decide) .value
  have hbars := convert_eq_ok (t := bars [primitive "str", function [] (primitive "float")])
    (by decide) (by decide) .value
  refine ⟨hunion, meaning_eq_of_convert_eq (by decide) (by decide) (by decide) (by decide)
    (by decide) (by decide) ?_⟩
  rw [hunion, hbars]
  rfl

/-- **A bar behind the result of a function type is lost.**  A union of a function type with another
type is translated like the function type whose result is the union, which is a different type. -/
theorem meaning_ne_of_bar_behind_result :
    ∃ t₁ t₂ : TypeTree,
      t₁.print = "Union[Callable[[], int], str]" ∧ t₂.print = "Callable[[], Union[int, str]]" ∧
      (t₁.isWellFormed = true ∧ t₁.isArityCorrect = true) ∧
      (t₂.isWellFormed = true ∧ t₂.isArityCorrect = true) ∧
      TypeExpr.convert .value t₁.print = .ok "() => number | string" ∧
      TypeExpr.convert .value t₂.print = .ok "() => number | string" ∧
      t₁.meaning ≠ t₂.meaning := by
  have h₁ : (apply .union [function [] (primitive "int"), primitive "str"]).isWellFormed = true ∧
      (apply .union [function [] (primitive "int"), primitive "str"]).isArityCorrect = true := by
    decide
  have h₂ : (function [] (apply .union [primitive "int", primitive "str"])).isWellFormed = true ∧
      (function [] (apply .union [primitive "int", primitive "str"])).isArityCorrect = true := by
    decide
  refine ⟨_, _, ?_, ?_, h₁, h₂, convert_eq_ok h₁.1 h₁.2 .value, convert_eq_ok h₂.1 h₂.2 .value, ?_⟩
  · decide
  · decide
  · -- Only the union has the name among its members.
    have hoffers : Target.offers "string"
        ((apply .union [function [] (primitive "int"), primitive "str"]).denote .value) ≠
          Target.offers "string"
            ((function [] (apply .union [primitive "int", primitive "str"])).denote .value) := by
      decide
    exact type_ne_of_offers hoffers

end TypeTree

end Rebrace
