import Mathlib
import Rebrace.Proofs.Lexical
import Rebrace.Proofs.SignatureReading

/-!
# What becomes of a line stays on one line

A header that is rendered is put together from parts of its line and from fixed texts, none of which
holds a line feed.  The same is true of the comments that documentation becomes, and of the passes
that change each line on its own.  So every line that the passes leave stands on one line, if those
that they were given do: `Pass.newline_notMem_of_runAll`.
-/

namespace Rebrace

open Text

/-! ### Parts of a text -/

/-- Trimming leaves a part of the text. -/
lemma trimEnd_subset (t : Text) : trimEnd t ⊆ t := by
  intro c hc
  have hmem := (List.dropWhile_suffix isWhite).subset (List.mem_reverse.1 hc)
  exact List.mem_reverse.1 hmem

lemma trim_subset (t : Text) : trim t ⊆ t :=
  fun _ hc => (List.dropWhile_suffix isWhite).subset (trimEnd_subset _ hc)

/-- What is joined is a part of the join. -/
lemma subset_join {separator t : Text} {ts : List Text} (h : t ∈ ts) : t ⊆ join separator ts := by
  induction ts with
  | nil => cases h
  | cons u us ih =>
    cases us with
    | nil =>
      obtain rfl := List.mem_singleton.1 h
      simp [join]
    | cons v us =>
      rw [join, List.intercalate_cons_cons]
      rcases List.mem_cons.1 h with rfl | h
      · intro c hc
        simp [hc]
      · exact fun c hc => List.mem_append_right _ (ih h hc)

/-- A piece between delimiters is a part of the text. -/
lemma subset_of_mem_split {pair : BracketPair} {delimiter t piece : Text}
    (h : piece ∈ pair.split delimiter t) : piece ⊆ t := by
  rw [← BracketPair.join_pieces pair delimiter t]
  exact subset_join (mem_of_mem_dropBlankLast h)

lemma subset_of_mem_splitTrim {pair : BracketPair} {delimiter t piece : Text}
    (h : piece ∈ pair.splitTrim delimiter t) : piece ⊆ t := by
  obtain ⟨raw, hraw, rfl⟩ := List.mem_map.1 h
  exact List.Subset.trans (trim_subset raw) (subset_of_mem_split hraw)

/-- A piece between exposed separators is a part of the text. -/
lemma subset_of_mem_cutTopFrom {separator : Char} {s : Scan} {t raw : Text}
    (h : raw ∈ (cutTopFrom separator s t).1 :: (cutTopFrom separator s t).2) : raw ⊆ t := by
  induction t generalizing s raw with
  | nil =>
    obtain rfl : raw = [] := by simpa [cutTopFrom] using h
    exact List.Subset.refl _
  | cons c t ih =>
    rw [cutTopFrom] at h
    split at h
    · rcases List.mem_cons.1 h with rfl | h
      · exact List.nil_subset _
      · exact List.subset_cons_of_subset c (ih h)
    · rcases List.mem_cons.1 h with rfl | h
      · exact List.cons_subset_cons c (ih List.mem_cons_self)
      · exact List.subset_cons_of_subset c (ih (List.mem_cons_of_mem _ h))

lemma subset_of_mem_splitTop {separator : Char} {t piece : Text}
    (h : piece ∈ splitTop separator t) : piece ⊆ t := by
  obtain ⟨raw, hraw, rfl⟩ := List.mem_map.1 h
  exact List.Subset.trans (trim_subset raw)
    (subset_of_mem_cutTopFrom (mem_of_mem_dropBlankLast hraw))

/-- The two parts of a text that is cut at a character. -/
lemma subset_of_cutAtChar? {c : Char} {t before after : Text}
    (h : cutAtChar? c t = some (before, after)) : before ⊆ t ∧ after ⊆ t := by
  rw [(cutAtChar?_eq_some h).1]
  exact ⟨fun d hd => by simp [hd], fun d hd => by simp [hd]⟩

/-- The two parts of a text that is cut at an exposed character. -/
lemma subset_of_cutExposedFrom? {stop : Option Char → Char → Option Char → Bool}
    {previous : Option Char} {s : Scan} {t before after : Text}
    (h : cutExposedFrom? stop previous s t = some (before, after)) : before ⊆ t ∧ after ⊆ t := by
  obtain ⟨c, rfl⟩ := cutExposedFrom?_eq_some h
  exact ⟨fun d hd => by simp [hd], fun d hd => by simp [hd]⟩

/-- The name at the start of a text, and what follows it. -/
lemma subset_of_takeName? {t name rest : Text} (h : takeName? t = some (name, rest)) :
    name ⊆ t ∧ rest ⊆ t := by
  rw [eq_append_of_takeName? h]
  exact ⟨List.subset_append_left _ _, List.subset_append_right _ _⟩

/-- What is stripped off at both ends leaves a part of the text. -/
lemma subset_of_strip? {start tail t inner : Text}
    (h : (strip? start t).bind (stripEnd? tail) = some inner) : inner ⊆ t := by
  obtain ⟨mid, hmid, hend⟩ := Option.bind_eq_some_iff.1 h
  rw [strip?_eq_some_iff.1 hmid, stripEnd?_eq_some_iff.1 hend]
  exact fun c hc => by simp [hc]

/-- Texts on one line that are joined by commas stay on one line. -/
lemma newline_notMem_commas {ts : List Text} (h : ∀ t ∈ ts, '\n' ∉ t) :
    '\n' ∉ join [',', ' '] ts :=
  notMem_join (by decide) h

/-- Camel case adds no line feed. -/
lemma newline_notMem_camelCase {t : Text} (h : '\n' ∉ t) : '\n' ∉ camelCase t := by
  intro hmem
  rcases mem_or_isNameChar_of_mem_camelCaseFrom hmem with hmem | hname
  · exact h hmem
  · exact absurd hname (by decide)

/-- A table without line feeds gives spellings without line feeds. -/
lemma newline_notMem_lookup? {table : List (Text × Text)} {t target : Text}
    (htable : ∀ entry ∈ table, '\n' ∉ entry.2) (h : lookup? table t = some target) :
    '\n' ∉ target := by
  obtain ⟨entry, hmem, rfl⟩ := exists_mem_of_lookup? h
  exact htable entry hmem

/-! ### Results of computations that can fail -/

/-- Whatever comes out of a computation that succeeds has the property `p`. -/
def Yields {α : Type} (x : Except Error α) (p : α → Prop) : Prop :=
  ∀ a, x = .ok a → p a

namespace Yields

variable {α β : Type} {x : Except Error α} {p : α → Prop} {q : β → Prop}

lemma ok {a : α} (h : p a) : Yields (.ok a) p := by
  rintro b ⟨⟩
  exact h

lemma error (e : Error) : Yields (.error e) p := by
  rintro b ⟨⟩

/-- A step that goes on with a result of which something is known. -/
lemma bind (hx : Yields x p) {f : α → Except Error β} (hf : ∀ a, p a → Yields (f a) q) :
    Yields (x >>= f) q := by
  intro b hb
  obtain ⟨a, ha, hfa⟩ := bind_eq_ok_iff.1 hb
  exact hf a (hx a ha) b hfa

lemma map (hx : Yields x p) {f : α → β} (hf : ∀ a, p a → q (f a)) : Yields (f <$> x) q := by
  intro b hb
  obtain ⟨a, ha, rfl⟩ := map_eq_ok_iff.1 hb
  exact hf a (hx a ha)

/-- A computation for every member of a list. -/
lemma mapM {l : List α} {f : α → Except Error β} (hf : ∀ a ∈ l, Yields (f a) q) :
    Yields (l.mapM f) fun bs => ∀ b ∈ bs, q b := by
  induction l with
  | nil => exact ok (by simp)
  | cons a l ih =>
    obtain ⟨ha, hl⟩ := List.forall_mem_cons.1 hf
    rw [List.mapM_cons]
    refine bind ha fun b hb => bind (ih hl) fun bs hbs => ok ?_
    exact List.forall_mem_cons.2 ⟨hb, hbs⟩

end Yields

/-! ### Types -/

namespace Shape

/-- The texts that a shape holds besides the parts that are left to be read. -/
def words : Shape → List Text
  | primitive target => [target]
  | generic name _ => [name]
  | named name => [name]
  | _ => []

/-- The texts of a name that is applied to arguments are the name and parts of the arguments. -/
lemma subset_of_ofApplication {name text part : Text} {args : List Text} {shape : Shape}
    (h : ofApplication name args text = .ok shape) (hpart : part ∈ shape.words ++ shape.parts) :
    part = name ∨ ∃ arg ∈ args, part ⊆ arg := by
  have self : ∀ {item : Text}, item ∈ args → item = name ∨ ∃ arg ∈ args, item ⊆ arg :=
    fun hi => Or.inr ⟨_, hi, List.Subset.refl _⟩
  have one : ∀ {construct : Text} {mk : Text → Shape},
      (∀ item, (mk item).words ++ (mk item).parts = [item]) →
      mk <$> single construct args text = .ok shape → part = name ∨ ∃ arg ∈ args, part ⊆ arg := by
    intro construct mk hmk h
    obtain ⟨item, hsingle, rfl⟩ := map_eq_ok_iff.1 h
    rw [hmk, List.mem_singleton] at hpart
    subst hpart
    exact self (by simp [eq_of_single hsingle])
  unfold ofApplication at h
  split at h
  · cases h
    exact self (by simpa [words, parts] using hpart)
  split at h
  · exact one (fun _ => rfl) h
  split at h
  · exact one (fun _ => rfl) h
  split at h
  · obtain ⟨pair, hdouble, rfl⟩ := map_eq_ok_iff.1 h
    exact self (by simpa [words, parts, eq_of_double hdouble] using hpart)
  split at h
  · exact one (fun _ => rfl) h
  split at h
  · exact one (fun _ => rfl) h
  split at h
  · cases h
    have hwords : (ofTuple args).words = [] := by
      unfold ofTuple
      split
      · split <;> rfl
      · rfl
    rw [hwords, List.nil_append] at hpart
    exact self (mem_of_mem_ofTuple hpart)
  split at h
  · split at h
    · rename_i params result hdouble
      have hargs := eq_of_double hdouble
      unfold ofFunction at h
      split at h
      · cases h
        exact self (by simpa [words, parts, hargs] using Or.inr hpart)
      · split at h
        · rename_i inner hinner
          cases h
          rcases List.mem_cons.1 hpart with rfl | hpart
          · exact self (by simp [hargs])
          · refine Or.inr ⟨params, by simp [hargs], ?_⟩
            exact List.Subset.trans (subset_of_mem_splitTrim hpart) (subset_of_strip? hinner)
        · cases h
    · cases h
  · cases h
    rcases List.mem_append.1 hpart with hpart | hpart
    · exact Or.inl (List.mem_singleton.1 hpart)
    · exact self hpart

/-- The texts of a shape are parts of the expression, apart from the names of primitive types. -/
lemma newline_notMem_of_classify {expr part : Text} {shape : Shape}
    (h : classify expr = .ok shape) (hexpr : '\n' ∉ expr)
    (hpart : part ∈ shape.words ++ shape.parts) : '\n' ∉ part := by
  have htrim : '\n' ∉ trim expr := fun hmem => hexpr (trim_subset expr hmem)
  unfold classify classifyTrimmed at h
  split at h
  · rename_i target hlookup
    cases h
    rw [List.mem_singleton.1 hpart]
    exact newline_notMem_lookup? (by decide) hlookup
  · split at h
    · cases h
      cases hpart
    · simp only at h
      split at h
      · cases h
        exact fun hmem => htrim (subset_of_mem_splitTrim hpart hmem)
      · split at h
        · cases h
          rwa [List.mem_singleton.1 hpart]
        · split at h
          · cases h
          · rename_i span hspan
            have htext := BracketSpan.text_of_first hspan
            have hbefore : span.before ⊆ trim expr := by
              rw [← htext]
              exact List.subset_append_left _ _
            have hinner : span.inner ⊆ trim expr := by
              rw [← htext]
              exact fun c hc => by simp [BracketSpan.text, hc]
            rcases subset_of_ofApplication h hpart with rfl | ⟨arg, harg, hsub⟩
            · exact fun hmem => htrim (hbefore (trim_subset _ hmem))
            · exact fun hmem => htrim (hinner (subset_of_mem_splitTrim harg (hsub hmem)))

end Shape

namespace TypeExpr

/-- A name applied to arguments stays on one line. -/
lemma newline_notMem_apply {name : Text} {args : List Text} (hname : '\n' ∉ name)
    (hargs : ∀ arg ∈ args, '\n' ∉ arg) : '\n' ∉ apply name args := by
  simp [apply, hname, newline_notMem_commas hargs]

/-- Parameters with numbers stay on one line. -/
lemma newline_notMem_numberParams {types : List Text} (htypes : ∀ type ∈ types, '\n' ∉ type) :
    ∀ param ∈ numberParams types, '\n' ∉ param := by
  intro param hparam
  obtain ⟨i, hi, rfl⟩ := List.mem_mapIdx.1 hparam
  have hdigits : '\n' ∉ decimal (i + 1) := fun hmem =>
    absurd (Nat.isDigit_of_mem_toDigits (by decide) (by decide) hmem) (by decide)
  simp [hdigits, htypes _ (List.getElem_mem hi)]

/-- A type that is read stays on one line when it is rendered. -/
lemma yields_parse {expr : Text} (h : '\n' ∉ expr) :
    Yields (parse expr) fun e => ∀ place, '\n' ∉ e.render place := by
  induction hlength : expr.length using Nat.strong_induction_on generalizing expr with
  | _ n ih =>
    rw [parse_eq]
    refine Yields.bind (fun shape hshape => hshape) fun shape hshape => ?_
    have hwords : ∀ word ∈ shape.words, '\n' ∉ word := fun word hword =>
      Shape.newline_notMem_of_classify hshape h (List.mem_append_left _ hword)
    have hread : ∀ part ∈ shape.parts,
        Yields (parse part) fun e => ∀ place, '\n' ∉ e.render place := by
      intro part hpart
      have hlt := Shape.length_lt_of_mem_parts hshape hpart
      exact ih part.length (hlength ▸ hlt)
        (Shape.newline_notMem_of_classify hshape h (List.mem_append_right _ hpart)) rfl
    have hall : ∀ {es : List TypeExpr}, (∀ e ∈ es, ∀ place, '\n' ∉ e.render place) →
        ∀ t ∈ renderAll es, '\n' ∉ t := by
      intro es hes t ht
      rw [renderAll_eq_map] at ht
      obtain ⟨e, he, rfl⟩ := List.mem_map.1 ht
      exact hes e he .value
    cases shape with
    | primitive target => exact .ok fun place => hwords target (by simp [Shape.words])
    | absent => exact .ok fun place => by cases place <;> decide
    | named name => exact .ok fun place => hwords name (by simp [Shape.words])
    | union members =>
      rw [ofShape]
      refine Yields.map (Yields.mapM hread) fun es hes place => ?_
      change '\n' ∉ join " | " (renderAll es).eraseDups
      refine notMem_join (by decide) fun t ht => hall hes t ?_
      exact List.mem_eraseDups.1 ht
    | tuple items =>
      rw [ofShape]
      refine Yields.map (Yields.mapM hread) fun es hes place => ?_
      change '\n' ∉ "[".toList ++ join [',', ' '] (renderAll es) ++ "]".toList
      simp [newline_notMem_commas (hall hes)]
    | generic name args =>
      rw [ofShape]
      refine Yields.map (Yields.mapM hread) fun es hes place => ?_
      change '\n' ∉ apply name (renderAll es)
      exact newline_notMem_apply (hwords name (by simp [Shape.words])) (hall hes)
    | optional item =>
      rw [ofShape]
      refine (hread item (by simp [Shape.parts])).map fun e he place => ?_
      change '\n' ∉ e.render .value ++ " | null".toList
      simp [he .value]
    | anyFunction result =>
      rw [ofShape]
      refine (hread result (by simp [Shape.parts])).map fun e he place => ?_
      change '\n' ∉ "(...args: any[]) => ".toList ++ e.render .result
      simp [he .result]
    | sequence item | iterator item | iterable item | uniformTuple item =>
      rw [ofShape]
      refine (hread item (by simp [Shape.parts])).map fun e he place => ?_
      change '\n' ∉ apply _ [e.render .value]
      exact newline_notMem_apply (by decide) (by simpa using he .value)
    | mapping key value =>
      rw [ofShape]
      refine (hread key (by simp [Shape.parts])).bind fun k hk => ?_
      refine (hread value (by simp [Shape.parts])).bind fun v hv => ?_
      refine .ok fun place => ?_
      change '\n' ∉ apply "Map" [k.render .value, v.render .value]
      exact newline_notMem_apply (by decide) (by simp [hk .value, hv .value])
    | function params result =>
      rw [ofShape]
      refine (hread result (by simp [Shape.parts])).bind fun r hr => ?_
      refine (Yields.mapM fun p hp => hread p (by simp [Shape.parts, hp])).bind fun ps hps => ?_
      refine .ok fun place => ?_
      change '\n' ∉ "(".toList ++ join [',', ' '] (numberParams (renderAll ps)) ++ ") => ".toList
        ++ r.render .result
      simp [newline_notMem_commas (newline_notMem_numberParams (hall hps)), hr .result]

/-- A type that is converted stays on one line. -/
lemma yields_convert {expr : Text} (h : '\n' ∉ expr) (place : Place) :
    Yields (convert place expr) ('\n' ∉ ·) :=
  (yields_parse h).map fun _ he => he place

end TypeExpr

/-! ### Parameters -/

namespace Param

/-- The texts of the parameter are on one line. -/
structure OnOneLine (p : Param) : Prop where
  /-- Its name. -/
  name : '\n' ∉ p.name
  /-- Its type, if it has one. -/
  type : ∀ type ∈ p.type?, '\n' ∉ type
  /-- Its default value, if it has one. -/
  default : ∀ value ∈ p.default?, '\n' ∉ value

lemma onOneLine_ofHead {head : Text} {default? : Option Text} (hhead : '\n' ∉ head)
    (hdefault : ∀ value ∈ default?, '\n' ∉ value) : (ofHead head default?).OnOneLine := by
  have hname : ∀ {name : Text}, name ⊆ head → '\n' ∉ camelCase (trim name) := fun hsub =>
    newline_notMem_camelCase fun hmem => hhead (hsub (trim_subset _ hmem))
  unfold ofHead
  split
  · rename_i name type hcut
    obtain ⟨hbefore, hafter⟩ := subset_of_cutAtChar? hcut
    refine ⟨hname hbefore, fun t ht => ?_, hdefault⟩
    obtain ⟨-, rfl⟩ : _ ∧ trim type = t := by simpa using ht
    exact fun hmem => hhead (hafter (trim_subset _ hmem))
  · exact ⟨hname (List.Subset.refl _), by simp, hdefault⟩

/-- A parameter that is read from one line is on one line. -/
lemma onOneLine_parse {segment : Text} (h : '\n' ∉ segment) : (parse segment).OnOneLine := by
  have htrim : '\n' ∉ trim segment := fun hmem => h (trim_subset _ hmem)
  rw [parse_eq]
  split
  · rename_i head value hcut
    obtain ⟨hbefore, hafter⟩ := subset_of_cutExposedFrom? hcut
    refine onOneLine_ofHead (fun hmem => htrim (hbefore hmem)) fun v hv => ?_
    obtain rfl : trim value = v := by simpa using hv
    exact fun hmem => htrim (hafter (trim_subset _ hmem))
  · exact onOneLine_ofHead htrim (by simp)

variable {p : Param} (h : p.OnOneLine)
include h

lemma yields_convertType : Yields p.convertType fun type? => ∀ type ∈ type?, '\n' ∉ type := by
  unfold convertType
  split
  · rename_i type htype
    refine (TypeExpr.yields_convert (h.type type htype) .value).map fun t ht => ?_
    simpa using ht
  · exact .ok (by simp)

lemma newline_notMem_value? : ∀ value ∈ p.value?, '\n' ∉ value := by
  intro value hvalue
  obtain ⟨source, hsource, rfl⟩ := Option.map_eq_some_iff.1 hvalue
  unfold spellValue
  cases hlookup : lookup? valueTable source with
  | none => exact h.default source hsource
  | some target => exact newline_notMem_lookup? (by decide) hlookup

/-- A positional parameter stays on one line when it is rendered. -/
lemma yields_render : Yields p.render ('\n' ∉ ·) := by
  have hvalue := newline_notMem_value? h
  unfold render
  refine (yields_convertType h).bind fun type? htype => .ok ?_
  cases type? <;> cases hv : p.value? <;> simp_all [h.name]

end Param

namespace Field

/-- A field of the object for keyword-only parameters stays on one line, at both its places. -/
lemma yields_ofParam {p : Param} (h : p.OnOneLine) :
    Yields (ofParam p) fun f => '\n' ∉ f.binding ∧ '\n' ∉ f.signature := by
  have hvalue := Param.newline_notMem_value? h
  have htype := Param.yields_convertType h
  unfold ofParam
  split
  · exact .error _
  · exact .error _
  · rename_i type hconvert
    have htype' := htype _ hconvert
    refine .ok ?_
    unfold binding signature
    cases hv : p.value? <;> simp_all [h.name]

end Field

namespace ParamList

/-- The parameters that are read from segments on one line are on one line. -/
lemma yields_ofSegments {segments : List Text} (h : ∀ segment ∈ segments, '\n' ∉ segment)
    (keyword : Bool) :
    Yields (ofSegments keyword segments) fun list =>
      (∀ p ∈ list.positional, p.OnOneLine) ∧ ∀ p ∈ list.keywordOnly, p.OnOneLine := by
  fun_induction ofSegments keyword segments with
  | case1 => exact .ok (by simp)
  | case2 keyword segment rest hskip ih => exact ih (List.forall_mem_cons.1 h).2
  | case3 keyword rest hskip ih => exact ih (List.forall_mem_cons.1 h).2
  | case4 => exact .error _
  | case5 keyword segment rest hskip hlone hstar ih =>
    obtain ⟨hsegment, hrest⟩ := List.forall_mem_cons.1 h
    have hp := Param.onOneLine_parse hsegment
    refine (ih hrest).map fun list hlist => ?_
    cases keyword <;> simpa [hp] using hlist

/-- A parameter list stays on one line when it is rendered. -/
lemma yields_render {list : ParamList} (hpositional : ∀ p ∈ list.positional, p.OnOneLine)
    (hkeyword : ∀ p ∈ list.keywordOnly, p.OnOneLine) : Yields list.render ('\n' ∉ ·) := by
  unfold render
  refine (Yields.mapM fun p hp => Param.yields_render (hpositional p hp)).bind fun ts hts => ?_
  split
  · exact .ok (newline_notMem_commas hts)
  · refine (Yields.mapM fun p hp => Field.yields_ofParam (hkeyword p hp)).bind fun fs hfs => ?_
    have hobject : '\n' ∉ renderObject fs list.hasOptional := by
      have hbindings : ∀ t ∈ fs.map Field.binding, '\n' ∉ t := by
        simpa using fun f hf => (hfs f hf).1
      have hsignatures : ∀ t ∈ fs.map Field.signature, '\n' ∉ t := by
        simpa using fun f hf => (hfs f hf).2
      unfold renderObject
      split <;> simp [newline_notMem_commas hbindings, newline_notMem_commas hsignatures]
    refine .ok (newline_notMem_commas fun t ht => ?_)
    rcases List.mem_append.1 ht with ht | ht
    · exact hts t ht
    · rwa [List.mem_singleton.1 ht]

end ParamList

/-- Parameters on one line stay on one line when they are converted. -/
lemma yields_convertParams {text : Text} (h : '\n' ∉ text) :
    Yields (convertParams text) ('\n' ∉ ·) := by
  refine Yields.bind (ParamList.yields_ofSegments (fun segment hsegment hmem => ?_) false)
    fun list hlist => ParamList.yields_render hlist.1 hlist.2
  exact h (subset_of_mem_splitTop hsegment hmem)

/-! ### Headers -/

namespace Signature

/-- The texts of an ending are parts of it. -/
lemma subset_of_ending? {t trailing : Text} {result? : Option Text}
    (h : ending? t = some (result?, trailing)) :
    (∀ result ∈ result?, result ⊆ t) ∧ trailing ⊆ t := by
  unfold ending? at h
  split at h
  · cases h
    exact ⟨by simp, List.subset_cons_self _ _⟩
  · obtain ⟨rest, hrest, hmap⟩ := Option.bind_eq_some_iff.1 h
    obtain ⟨⟨before, after⟩, hcut, hparts⟩ := Option.map_eq_some_iff.1 hmap
    obtain ⟨hbefore, hafter⟩ := subset_of_cutAtChar? hcut
    have hsub : rest ⊆ t := by
      rw [strip?_eq_some_iff.1 hrest]
      exact List.subset_append_right _ _
    cases hparts
    refine ⟨fun result hresult => ?_, List.Subset.trans hafter hsub⟩
    obtain rfl : trim before = result := by simpa using hresult
    exact List.Subset.trans (trim_subset _) (List.Subset.trans hbefore hsub)

/-- The parameters and the texts of the ending are parts of what follows the parenthesis. -/
lemma subset_of_cutParams? {t text trailing : Text} {result? : Option Text}
    (h : cutParams? t = some (text, result?, trailing)) :
    text ⊆ t ∧ (∀ result ∈ result?, result ⊆ t) ∧ trailing ⊆ t := by
  induction t generalizing text with
  | nil => cases h
  | cons c t ih =>
    rw [cutParams?] at h
    split at h
    · rename_i params ending hcut
      cases h
      obtain ⟨htext, hresult, htrailing⟩ := ih hcut
      exact ⟨List.cons_subset_cons c htext,
        fun result hmem => List.subset_cons_of_subset c (hresult result hmem),
        List.subset_cons_of_subset c htrailing⟩
    · obtain ⟨-, hmap⟩ := Option.ite_none_right_eq_some.1 h
      obtain ⟨ending, hending, hparts⟩ := Option.map_eq_some_iff.1 hmap
      cases hparts
      obtain ⟨hresult, htrailing⟩ := subset_of_ending? hending
      exact ⟨List.nil_subset _,
        fun result hmem => List.subset_cons_of_subset c (hresult result hmem),
        List.subset_cons_of_subset c htrailing⟩

/-- The parameters without the owner stay on one line. -/
lemma newline_notMem_of_kindOf? {indent : Nat} {segments : List Text} {kind : DefKind}
    {params : Text} (h : kindOf? indent segments = some (kind, params))
    (hsegments : ∀ segment ∈ segments, '\n' ∉ segment) : '\n' ∉ params := by
  rcases kindOf?_eq_some_iff.1 h with ⟨-, -, rfl⟩ | ⟨-, -, owner, rest, rfl, -, rfl⟩
  · exact newline_notMem_commas hsegments
  · exact newline_notMem_commas (List.forall_mem_cons.1 hsegments).2

/-- A function header stays on one line when it is rendered. -/
lemma yields_render {line : Text} {s : Signature} (h : parse? line = some s) :
    Yields s.render ('\n' ∉ ·) := by
  obtain ⟨hline, -, afterDef, inside, text, hdef, htake, hcut, hkind⟩ := parse?_eq_some_iff.1 h
  have hafter : '\n' ∉ afterDef := fun hmem =>
    hline (List.mem_of_mem_drop (hdef ▸ List.mem_append_right _ hmem))
  have hinside : '\n' ∉ inside := fun hmem =>
    hafter ((subset_of_takeName? htake).2 (List.mem_cons_of_mem _ hmem))
  obtain ⟨htext, hresult, htrailing⟩ := subset_of_cutParams? hcut
  have hname : '\n' ∉ spellMethod s.name := by
    have hsource : '\n' ∉ s.name := fun hmem => hafter ((subset_of_takeName? htake).1 hmem)
    unfold spellMethod
    cases hlookup : lookup? methodTable s.name with
    | none => exact newline_notMem_camelCase hsource
    | some target => exact newline_notMem_lookup? (by decide) hlookup
  have hparams : '\n' ∉ s.params := newline_notMem_of_kindOf? hkind fun segment hsegment hmem =>
    hinside (htext (subset_of_mem_splitTop hsegment hmem))
  have hrendered : Yields s.renderResult ('\n' ∉ ·) := by
    unfold renderResult
    split
    · exact .ok (by simp)
    · rename_i type htype
      split
      · exact .ok (by simp)
      · have hnl : '\n' ∉ type := fun hmem => hinside (hresult type htype hmem)
        exact (TypeExpr.yields_convert hnl .result).map fun t ht => by simp [ht]
  have htrail : '\n' ∉ s.trailing := fun hmem => hinside (htrailing hmem)
  unfold render
  refine (yields_convertParams hparams).bind fun params hp => hrendered.bind fun result hr => .ok ?_
  cases s.kind <;> simp [hname, hp, hr, htrail, spaces]

end Signature

namespace ClassHeader

/-- The bases and what follows the colon are parts of what follows the class name. -/
lemma subset_of_ending? {t trailing : Text} {bases : List Text}
    (h : ending? t = some (bases, trailing)) : (∀ base ∈ bases, base ⊆ t) ∧ trailing ⊆ t := by
  have hcutBases : ∀ {u before after : Text}, cutBases? u = some (before, after) →
      before ⊆ u ∧ after ⊆ u := by
    intro u
    induction u with
    | nil => exact fun h => by cases h
    | cons c u ih =>
      intro before after h
      rw [cutBases?] at h
      split at h
      · rename_i rest hstrip
        cases h
        rw [strip?_eq_some_iff.1 hstrip]
        exact ⟨List.nil_subset _, List.subset_append_right _ _⟩
      · obtain ⟨⟨before', after'⟩, hcut, hparts⟩ := Option.map_eq_some_iff.1 h
        cases hparts
        exact ⟨List.cons_subset_cons c (ih hcut).1, List.subset_cons_of_subset c (ih hcut).2⟩
  unfold ending? at h
  split at h
  · cases h
    exact ⟨by simp, List.subset_cons_self _ _⟩
  · obtain ⟨⟨before, after⟩, hcut, hparts⟩ := Option.map_eq_some_iff.1 h
    cases hparts
    obtain ⟨hbefore, hafter⟩ := hcutBases hcut
    refine ⟨fun base hbase => ?_, List.subset_cons_of_subset _ hafter⟩
    have hpiece := subset_of_mem_splitTop (List.mem_filter.1 hbase).1
    exact List.Subset.trans hpiece (List.subset_cons_of_subset _ hbefore)
  · cases h

/-- What a base contributes is on one line if the base is. -/
lemma yields_roleOf (className : Text) {base : Text} (h : '\n' ∉ base) :
    Yields (roleOf className base) fun role =>
      (∀ name ∈ role.names, '\n' ∉ name) ∧ ∀ parent ∈ role.parent?, '\n' ∉ parent := by
  unfold roleOf
  split
  · exact .error _
  · split
    · refine Yields.map (fun span hspan => BracketSpan.text_of_first hspan) fun span hspan => ?_
      refine ⟨fun name hname hmem => h ?_, by simp [BaseRole.parent?]⟩
      have hinner := subset_of_mem_splitTrim hname hmem
      rw [← hspan, BracketSpan.text]
      simp [hinner]
    · split
      · exact .ok (by simp [BaseRole.names, BaseRole.parent?])
      · split
        · exact .ok (by simp [BaseRole.names, BaseRole.parent?])
        · refine (TypeExpr.yields_convert h .value).map fun parent hparent => ?_
          simpa [BaseRole.names, BaseRole.parent?] using hparent

/-- A class header stays on one line when it is rendered. -/
lemma yields_render {line : Text} {h : ClassHeader} (hparse : parse? line = some h) :
    Yields h.render ('\n' ∉ ·) := by
  unfold parse? at hparse
  split at hparse
  · cases hparse
  rename_i hline
  simp only [Option.bind_eq_bind, Option.bind_eq_some_iff, Prod.exists, Option.pure_def,
    Option.some.injEq, strip?_eq_some_iff] at hparse
  obtain ⟨afterClass, hclass, name, afterName, htake, bases, trailing, hending, rfl⟩ := hparse
  have hafter : '\n' ∉ afterClass := fun hmem =>
    hline (List.mem_of_mem_drop (hclass ▸ List.mem_append_right _ hmem))
  obtain ⟨hname, hrest⟩ := subset_of_takeName? htake
  obtain ⟨hbases, htrailing⟩ := subset_of_ending? hending
  have hname' : '\n' ∉ name := fun hmem => hafter (hname hmem)
  have htrail : '\n' ∉ trailing := fun hmem => hafter (hrest (htrailing hmem))
  have hrole : ∀ base ∈ bases, Yields (roleOf name base) _ := fun base hbase =>
    yields_roleOf name fun hmem => hafter (hrest (hbases base hbase hmem))
  unfold render
  refine (Yields.mapM hrole).bind fun roles hroles => ?_
  have hgenerics : ∀ generic ∈ roles.flatMap BaseRole.names, '\n' ∉ generic := by
    intro generic hgeneric
    obtain ⟨role, hmem, hin⟩ := List.mem_flatMap.1 hgeneric
    exact (hroles role hmem).1 generic hin
  have hstart : '\n' ∉ (if (roles.flatMap BaseRole.names).isEmpty then []
      else "<" ++ join ", " (roles.flatMap BaseRole.names) ++ ">" : Text) := by
    split
    · simp
    · simp [newline_notMem_commas hgenerics]
  simp only
  generalize (if (roles.flatMap BaseRole.names).isEmpty then ([] : Text)
    else "<" ++ join ", " (roles.flatMap BaseRole.names) ++ ">") = generics at hstart ⊢
  split
  · exact .ok (by simp [spaces, hname', htrail, hstart])
  · rename_i parent hparent
    have hmem : parent ∈ roles.filterMap BaseRole.parent? := by simp [hparent]
    obtain ⟨role, hin, hrole⟩ := List.mem_filterMap.1 hmem
    exact .ok (by simp [spaces, hname', htrail, hstart, (hroles role hin).2 parent hrole])
  · exact .error _

end ClassHeader

/-- A declaration stays on one line when it is rendered. -/
lemma Declaration.yields_render {kind : DeclarationKind} {line : Text} {d : Declaration}
    (h : parse? kind line = some d) : Yields d.render ('\n' ∉ ·) := by
  cases kind with
  | classes =>
    obtain ⟨header, hparse, rfl⟩ := Option.map_eq_some_iff.1 h
    exact ClassHeader.yields_render hparse
  | functions =>
    obtain ⟨header, hparse, rfl⟩ := Option.map_eq_some_iff.1 h
    exact Signature.yields_render hparse

/-- The binding of a loop stays on one line. -/
lemma yields_convertMembership {condition : Text} (h : '\n' ∉ condition) :
    Yields (convertMembership condition) ('\n' ∉ ·) := by
  unfold convertMembership
  split
  · rename_i target items hsplit
    have hpiece : ∀ piece ∈ [target, items], '\n' ∉ trim piece := by
      intro piece hmem hnl
      rw [← hsplit] at hmem
      exact h (subset_of_mem_split hmem (trim_subset _ hnl))
    have hstrip : '\n' ∉ stripParens (trim target) := by
      unfold stripParens
      cases hcut : (strip? "(" (trim target)).bind (stripEnd? ")") with
      | none => exact hpiece target (by simp)
      | some inner => exact fun hmem => hpiece target (by simp) (subset_of_strip? hcut hmem)
    have hbinding : '\n' ∉ loopBinding (stripParens (trim target)) := by
      unfold loopBinding
      simp only
      split
      · have hnames : ∀ name ∈ BracketPair.round.splitTrim "," (stripParens (trim target)),
            '\n' ∉ name := fun name hname hmem => hstrip (subset_of_mem_splitTrim hname hmem)
        simpa using newline_notMem_commas hnames
      · exact hstrip
    exact .ok (by simp [hbinding, hpiece items (by simp)])
  · exact .error _

namespace Clause

/-- A clause header stays on one line when it is rendered. -/
lemma yields_render {line leading : Text} {c : Clause} (h : parse? line = some c)
    (hleading : '\n' ∉ leading) : Yields (c.render leading) ('\n' ∉ ·) := by
  obtain ⟨hline, -, rest, condition, hstart, hcut, hcondition, -⟩ := parse?_eq_some_iff.1 h
  have hrest : '\n' ∉ rest := by
    intro hmem
    have hdrop := (Keyword.ofStart?_eq_some hstart).1
    exact hline (List.mem_of_mem_drop (hdrop ▸ List.mem_append_right _ hmem))
  obtain ⟨hbefore, hafter⟩ := subset_of_cutExposedFrom? hcut
  have htrailing : '\n' ∉ c.trailing := fun hmem => hrest (hafter hmem)
  have htarget : '\n' ∉ c.keyword.target := by cases c.keyword <;> decide
  have hrendered : Yields c.renderCondition ('\n' ∉ ·) := by
    unfold renderCondition
    split
    · exact .ok (by simp)
    · rename_i text htext
      have hnl : '\n' ∉ text := by
        rw [hcondition] at htext
        obtain ⟨-, rfl⟩ : _ ∧ trim condition = text := by simpa using htext
        exact fun hmem => hrest (hbefore (trim_subset _ hmem))
      split
      · exact (yields_convertMembership hnl).map fun binding hb => by simp [hb]
      · exact .ok (by simp [hnl])
  exact hrendered.map fun text ht => by simp [spaces, hleading, htarget, ht, htrailing]

end Clause

/-! ### Documentation -/

/-- What is erased leaves a part of the text. -/
lemma eraseFrom_subset (part : Text) (skip : Nat) (t : Text) : eraseFrom part skip t ⊆ t := by
  fun_induction eraseFrom part skip t with
  | case1 => exact List.Subset.refl _
  | case2 skip c t ih => exact List.subset_cons_of_subset c ih
  | case3 c t hstart ih => exact List.subset_cons_of_subset c ih
  | case4 c t hstart ih => exact List.cons_subset_cons c ih

/-- The comment for a documentation text holds no line feed if the text holds none. -/
lemma newline_notMem_of_mem_docComment {indent : Nat} {raw : List Text}
    (h : ∀ line ∈ raw, '\n' ∉ line) : ∀ line ∈ docComment indent raw, '\n' ∉ line := by
  have herase : ∀ line, eraseDelimiters line ⊆ line := fun line =>
    List.Subset.trans (eraseFrom_subset _ _ _) (eraseFrom_subset _ _ _)
  have hcontent : ∀ line ∈ docContent raw, '\n' ∉ line := by
    intro line hline
    have hmem := (List.dropWhile_suffix _).subset ((dropBlankEnd_isPrefix _).subset hline)
    obtain ⟨erased, herased, rfl⟩ := List.mem_map.1 hmem
    obtain ⟨source, hsource, rfl⟩ := List.mem_map.1 herased
    exact fun hnl => h source hsource (herase source (List.mem_of_mem_drop hnl))
  have hdoc : ∀ line ∈ docContent raw, '\n' ∉ docLine indent line := by
    intro line hline
    have htrim : '\n' ∉ trimEnd line := fun hnl =>
      hcontent line hline (trimEnd_subset _ hnl)
    unfold docLine
    split <;> simp [spaces, htrim]
  unfold docComment
  split
  · simp
  · intro line hline
    simp only [List.cons_append, List.mem_cons, List.mem_append, List.mem_map,
      List.not_mem_nil, or_false] at hline
    rcases hline with rfl | ⟨source, hsource, rfl⟩ | rfl
    · simp [spaces]
    · exact hdoc source hsource
    · simp [spaces]

/-- A documentation text is part of its block. -/
lemma subset_of_liftDoc? {body raw rest : List Text} (h : liftDoc? body = some (raw, rest)) :
    raw ⊆ body := by
  unfold liftDoc? at h
  split at h
  · cases h
  · rename_i first more hbody
    have hsub : first :: more ⊆ body := hbody ▸ (List.dropWhile_suffix isBlank).subset
    simp only at h
    split at h
    · cases h
    · split at h
      · cases h
        exact List.Subset.trans (by simp) hsub
      · split at h
        · cases h
        · rename_i last tail htail
          cases h
          refine List.Subset.trans (fun line hline => ?_) hsub
          have hlast : last ∈ more :=
            (List.dropWhile_suffix _).subset (htail ▸ List.mem_cons_self)
          simp only [List.cons_append, List.mem_cons, List.mem_append, List.not_mem_nil,
            or_false] at hline ⊢
          rcases hline with rfl | hline | rfl
          · exact Or.inl rfl
          · exact Or.inr ((List.takeWhile_prefix _).subset hline)
          · exact Or.inr hlast

/-- The comment above a header holds no line feed if its block holds none. -/
lemma BlockParts.newline_notMem_of_mem_doc {indent : Nat} {body : List Text}
    (h : ∀ line ∈ body, '\n' ∉ line) : ∀ line ∈ (ofBody indent body).doc, '\n' ∉ line := by
  unfold ofBody
  split
  · rename_i raw rest hlift
    exact newline_notMem_of_mem_docComment fun line hline => h line (subset_of_liftDoc? hlift hline)
  · simp

end Rebrace
