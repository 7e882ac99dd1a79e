import Mathlib.Data.List.Basic
import Mathlib.Data.List.TakeWhile
import Rebrace.Pass.Clauses
import Rebrace.Pass.Declarations

/-!
# Header lines

What it means for a line to hold a header, for the three sorts of headers: clauses of control flow,
classes and functions.  `Clause.parse?_eq_some_iff` takes a clause header apart into indentation,
keyword, condition and rest of the line.  Of the other two only the word at the start is needed
here.  Every header is indented by the spaces in front of it, and no header line is blank.
-/

namespace Rebrace

open Text

/-- A text with a character that is no white space at some place is not blank. -/
lemma isBlank_eq_false_of_drop {t rest : Text} {n : Nat} {c : Char} (h : t.drop n = c :: rest)
    (hc : isWhite c = false) : isBlank t = false := by
  have hmem : c ∈ t := List.mem_of_mem_drop (h ▸ List.mem_cons_self)
  rw [isBlank, List.all_eq_false]
  exact ⟨c, hmem, by simp [hc]⟩

/-- The spaces in front of a text can be dropped. -/
lemma drop_spaces_append (n : Nat) (t : Text) : (spaces n ++ t).drop n = t :=
  List.drop_left' List.length_replicate

/-- Spaces in front of a text are counted on top of its indentation. -/
lemma leadingSpaces_spaces_append (n : Nat) (t : Text) :
    leadingSpaces (spaces n ++ t) = n + leadingSpaces t := by
  simp [leadingSpaces, spaces]

/-- The indentation of a text behind spaces, if the text does not start with a space. -/
lemma leadingSpaces_spaces_append_cons (n : Nat) {c : Char} (hc : c ≠ ' ') (rest : Text) :
    leadingSpaces (spaces n ++ c :: rest) = n := by
  rw [leadingSpaces_spaces_append]
  simp [leadingSpaces, hc]

/-! ### Characters of names -/

/-- The characters of names by their code points. -/
lemma isNameChar_iff {c : Char} :
    isNameChar c = true ↔
      (65 ≤ c.toNat ∧ c.toNat ≤ 90) ∨ (97 ≤ c.toNat ∧ c.toNat ≤ 122) ∨
        (48 ≤ c.toNat ∧ c.toNat ≤ 57) ∨ c = '_' := by
  change (((decide (c.val ≥ 65 ∧ c.val ≤ 90) ||
      (decide (c.val ≥ 97) && decide (c.val ≤ 122))) ||
      (decide (c.val ≥ 48) && decide (c.val ≤ 57))) || c == '_') = true ↔ _
  simp only [Bool.or_eq_true, Bool.and_eq_true, decide_eq_true_eq, beq_iff_eq, ge_iff_le,
    UInt32.le_iff_toNat_le]
  change (((65 ≤ c.toNat ∧ c.toNat ≤ 90) ∨ (97 ≤ c.toNat ∧ c.toNat ≤ 122)) ∨
    (48 ≤ c.toNat ∧ c.toNat ≤ 57)) ∨ c = '_' ↔ _
  simp only [or_assoc]

/-- The visible characters of ASCII are no white space. -/
lemma isWhite_eq_false_of_visible {c : Char} (h : 33 ≤ c.toNat ∧ c.toNat < 128) :
    isWhite c = false := by
  simp only [isWhite, whiteRanges, List.any_cons, List.any_nil, Bool.or_false, Bool.or_eq_false_iff,
    Bool.and_eq_false_iff, decide_eq_false_iff_not]
  omega

/-- A character of a name is visible. -/
lemma isWhite_eq_false_of_isNameChar {c : Char} (h : isNameChar c = true) : isWhite c = false := by
  refine isWhite_eq_false_of_visible ?_
  rcases isNameChar_iff.1 h with h | h | h | rfl
  · omega
  · omega
  · omega
  · decide

/-- A character of a name is a word character. -/
lemma isWord_of_isNameChar {c : Char} (h : isNameChar c = true) : isWord c = true := by
  have hascii : c.toNat < 128 := by
    rcases isNameChar_iff.1 h with h | h | h | rfl
    · omega
    · omega
    · omega
    · decide
  rw [isWord_of_ascii hascii]
  exact h

/-- A text is cut where a condition on characters starts to fail. -/
lemma takeWhile_dropWhile_append {p : Char → Bool} {t rest : Text} (ht : ∀ c ∈ t, p c = true)
    (hrest : ∀ c ∈ rest.head?, p c = false) :
    (t ++ rest).takeWhile p = t ∧ (t ++ rest).dropWhile p = rest := by
  rw [List.takeWhile_append_of_pos ht, List.dropWhile_append_of_pos ht]
  cases rest with
  | nil => simp
  | cons c rest => simp [hrest c rfl]

/-- A spelling from a table is one of its entries. -/
lemma exists_mem_of_lookup? {table : List (Text × Text)} {t target : Text}
    (h : lookup? table t = some target) : ∃ entry ∈ table, entry.2 = target := by
  obtain ⟨entry, hfind, rfl⟩ := Option.map_eq_some_iff.1 h
  exact ⟨entry, List.mem_of_find?_eq_some hfind, rfl⟩

/-! ### Clauses -/

/-- A text that begins with a keyword is the keyword followed by no word character. -/
lemma Keyword.ofStart?_eq_some {t rest : Text} {k : Keyword} (h : ofStart? t = some (k, rest)) :
    t = k.source ++ rest ∧ rest.head?.any isWord = false := by
  obtain ⟨k', -, hk⟩ := List.exists_of_findSome?_eq_some h
  obtain ⟨rest', hstrip, hrest⟩ := Option.bind_eq_some_iff.1 hk
  cases hword : rest'.head?.any isWord with
  | true => simp [hword] at hrest
  | false =>
    simp only [hword, Bool.false_eq_true, ↓reduceIte, Option.some.injEq, Prod.mk.injEq] at hrest
    obtain ⟨rfl, rfl⟩ := hrest
    exact ⟨strip?_eq_some_iff.1 hstrip, hword⟩

/-- The spelling of a keyword starts with a letter. -/
lemma Keyword.exists_source_eq_cons (k : Keyword) :
    ∃ c rest, k.source = c :: rest ∧ c.isLower = true ∧ isWhite c = false := by
  cases k <;> exact ⟨_, _, rfl, by decide, by decide⟩

/-- Two keywords are not spelled alike. -/
lemma Keyword.source_injective {k k' : Keyword} (h : k.source = k'.source) : k = k' := by
  revert h
  cases k <;> cases k' <;> decide

/-- A keyword that no word character follows is the whole name at the start of a text. -/
lemma Keyword.takeWhile_source_append (k : Keyword) {rest : Text}
    (hrest : rest.head?.any isWord = false) :
    (k.source ++ rest).takeWhile isNameChar = k.source := by
  have hsource : k.source.all isNameChar = true := by cases k <;> decide
  refine (takeWhile_dropWhile_append (List.all_eq_true.1 hsource) ?_).1
  intro c hc
  rw [← Bool.not_eq_true]
  intro hname
  rw [Option.mem_def.1 hc, Option.any_some, isWord_of_isNameChar hname] at hrest
  cases hrest

/-- A text begins with a keyword if it is the keyword followed by no word character. -/
lemma Keyword.ofStart?_source_append (k : Keyword) {rest : Text}
    (hrest : rest.head?.any isWord = false) : ofStart? (k.source ++ rest) = some (k, rest) := by
  cases hstart : ofStart? (k.source ++ rest) with
  | none =>
    have hnone := List.findSome?_eq_none_iff.1 hstart k (mem_all k)
    rw [strip?_eq_some_iff.2 rfl] at hnone
    simp [hrest] at hnone
  | some found =>
    obtain ⟨k', rest'⟩ := found
    obtain ⟨happend, hrest'⟩ := ofStart?_eq_some hstart
    have hsource : k.source = k'.source := by
      rw [← k.takeWhile_source_append hrest, happend, k'.takeWhile_source_append hrest']
    rw [hsource] at happend
    rw [source_injective hsource, List.append_cancel_left happend]

namespace Clause

/-- A line holds a clause header if it is made of spaces, a keyword, a condition that the keyword
admits, a colon outside brackets and literals, and any rest. -/
lemma parse?_eq_some_iff {line : Text} {c : Clause} :
    parse? line = some c ↔
      '\n' ∉ line ∧ c.indent = leadingSpaces line ∧
        ∃ rest condition,
          Keyword.ofStart? (line.drop (leadingSpaces line)) = some (c.keyword, rest) ∧
          cutHeaderColon? rest = some (condition, c.trailing) ∧
          c.condition? = (if isBlank condition then none else some (trim condition)) ∧
          admits c.keyword condition = true := by
  obtain ⟨indent, keyword, condition?, trailing⟩ := c
  unfold parse?
  by_cases hnl : '\n' ∈ line
  · simp [hnl]
  · simp only [hnl, ↓reduceIte, not_false_eq_true, true_and, Option.bind_eq_bind,
      Option.bind_eq_some_iff, Prod.exists, Option.ite_none_right_eq_some, Option.some.injEq,
      Clause.mk.injEq]
    constructor
    · rintro ⟨k, rest, hkey, condition, after, hcut, hadmits, rfl, rfl, rfl, rfl⟩
      exact ⟨rfl, rest, condition, hkey, hcut, rfl, hadmits⟩
    · rintro ⟨rfl, rest, condition, hkey, hcut, rfl, hadmits⟩
      exact ⟨keyword, rest, hkey, condition, trailing, hcut, hadmits, rfl, rfl, rfl, rfl⟩

/-- A clause header is indented by the spaces in front of it. -/
lemma indent_eq_of_parse? {line : Text} {c : Clause} (h : parse? line = some c) :
    c.indent = leadingSpaces line :=
  (parse?_eq_some_iff.1 h).2.1

/-- A clause header is not blank. -/
lemma isBlank_eq_false_of_parse? {line : Text} {c : Clause} (h : parse? line = some c) :
    isBlank line = false := by
  obtain ⟨-, -, rest, -, hkey, -⟩ := parse?_eq_some_iff.1 h
  obtain ⟨first, letters, hsource, -, hfirst⟩ := c.keyword.exists_source_eq_cons
  have hdrop := (Keyword.ofStart?_eq_some hkey).1
  rw [hsource, List.cons_append] at hdrop
  exact isBlank_eq_false_of_drop hdrop hfirst

/-- A blank line holds no clause header. -/
lemma parse?_eq_none_of_isBlank {line : Text} (h : isBlank line = true) : parse? line = none := by
  rw [Option.eq_none_iff_forall_ne_some]
  intro c hc
  rw [isBlank_eq_false_of_parse? hc] at h
  cases h

/-- A rendered clause header is the indentation, what stands in front of the keyword, the keyword of
the target, the condition, a brace, and the rest of the line. -/
lemma exists_eq_of_render {c : Clause} {leading header : Text} (h : c.render leading = .ok header) :
    ∃ condition, header =
      spaces c.indent ++ leading ++ c.keyword.target ++ condition ++ " \x7b" ++ c.trailing := by
  unfold render at h
  cases hcondition : c.renderCondition with
  | error e =>
    rw [hcondition] at h
    cases h
  | ok condition =>
    rw [hcondition] at h
    cases h
    exact ⟨condition, rfl⟩

/-- A rendered clause header opens a brace. -/
lemma mem_of_render {c : Clause} {leading header : Text} (h : c.render leading = .ok header) :
    '\x7b' ∈ header := by
  obtain ⟨condition, rfl⟩ := exists_eq_of_render h
  simp

end Clause

/-! ### Classes and functions -/

/-- A rendered class header starts, behind its indentation, with `class` and opens a brace. -/
lemma ClassHeader.exists_eq_of_render {h : ClassHeader} {header : Text}
    (hrender : h.render = .ok header) :
    ∃ rest, header = spaces h.indent ++ ("class " ++ rest) ∧ '\x7b' ∈ rest := by
  unfold render at hrender
  cases hroles : h.bases.mapM (roleOf h.name) with
  | error e =>
    rw [hroles] at hrender
    cases hrender
  | ok roles =>
    rw [hroles] at hrender
    simp only [bind, Except.bind] at hrender
    generalize (if (roles.flatMap BaseRole.names).isEmpty then ([] : Text)
      else "<" ++ join ", " (roles.flatMap BaseRole.names) ++ ">") = generics at hrender
    split at hrender
    · cases hrender
      exact ⟨h.name ++ generics ++ " \x7b" ++ h.trailing, by simp, by simp⟩
    · rename_i parent _
      cases hrender
      exact ⟨h.name ++ generics ++ " extends " ++ parent ++ " \x7b" ++ h.trailing,
        by simp, by simp⟩
    · cases hrender

/-- A line holds a function header if it is made of spaces, `def`, a name and a parenthesis, and a
later parenthesis closes the parameters in front of an ending. -/
lemma Signature.parse?_eq_some_iff {line : Text} {s : Signature} :
    parse? line = some s ↔
      '\n' ∉ line ∧ s.indent = leadingSpaces line ∧
        ∃ afterDef inside text,
          line.drop (leadingSpaces line) = "def " ++ afterDef ∧
          takeName? afterDef = some (s.name, '(' :: inside) ∧
          cutParams? inside = some (text, s.result?, s.trailing) ∧
          kindOf? s.indent (splitTop ',' text) = some (s.kind, s.params) := by
  obtain ⟨indent, kind, name, params, result?, trailing⟩ := s
  unfold parse?
  by_cases hnl : '\n' ∈ line
  · simp [hnl]
  · simp only [hnl, ↓reduceIte, not_false_eq_true, true_and, Option.bind_eq_bind,
      Option.bind_eq_some_iff, Prod.exists, Option.pure_def, Option.some.injEq, Signature.mk.injEq,
      strip?_eq_some_iff]
    constructor
    · rintro ⟨afterDef, hdef, name, afterName, htake, inside, rfl, text, result?, trailing, hcut,
        kind, params, hkind, rfl, rfl, rfl, rfl, rfl, rfl⟩
      exact ⟨rfl, afterDef, inside, text, hdef, htake, hcut, hkind⟩
    · rintro ⟨rfl, afterDef, inside, text, hdef, htake, hcut, hkind⟩
      exact ⟨afterDef, hdef, name, _, htake, inside, rfl, text, result?, trailing, hcut, kind,
        params, hkind, rfl, rfl, rfl, rfl, rfl, rfl⟩

/-- The name of a function is made of characters of names. -/
lemma Signature.isNameChar_of_parse? {line : Text} {s : Signature} (h : parse? line = some s) :
    ∀ c ∈ s.name, isNameChar c = true := by
  obtain ⟨-, -, afterDef, inside, -, -, htake, -⟩ := parse?_eq_some_iff.1 h
  unfold takeName? at htake
  split at htake
  · cases htake
  · simp only [Option.some.injEq, Prod.mk.injEq] at htake
    rw [← htake.1]
    exact fun c hc => List.mem_takeWhile_imp hc

/-- A name at the start of a text and what follows it make up the text. -/
lemma eq_append_of_takeName? {t name rest : Text} (h : takeName? t = some (name, rest)) :
    t = name ++ rest := by
  unfold takeName? at h
  split at h
  · cases h
  · cases h
    exact (List.takeWhile_append_dropWhile).symm

/-- A header in the first column keeps all its segments; any other begins with an owner, and keeps
the segments behind it. -/
lemma Signature.kindOf?_eq_some_iff {indent : Nat} {segments : List Text} {kind : DefKind}
    {params : Text} :
    kindOf? indent segments = some (kind, params) ↔
      (indent = 0 ∧ kind = .function ∧ params = join ", " segments) ∨
        (indent ≠ 0 ∧ kind = .method ∧ ∃ owner rest, segments = owner :: rest ∧
          isOwner owner = true ∧ params = join ", " rest) := by
  unfold kindOf?
  constructor
  · intro h
    split at h
    · cases h
      exact Or.inl ⟨‹_›, rfl, rfl⟩
    · split at h
      · obtain ⟨howner, hparts⟩ := Option.ite_none_right_eq_some.1 h
        cases hparts
        exact Or.inr ⟨‹_›, rfl, _, _, rfl, howner, rfl⟩
      · cases h
  · rintro (⟨hindent, rfl, rfl⟩ | ⟨hindent, rfl, owner, rest, rfl, howner, rfl⟩)
    · rw [if_pos hindent]
    · rw [if_neg hindent]
      exact if_pos howner

/-- A function header in the first column is the header of a function, any other is that of a
method. -/
lemma Signature.kind_eq_of_parse? {line : Text} {s : Signature} (h : parse? line = some s) :
    s.kind = if s.indent = 0 then .function else .method := by
  obtain ⟨-, -, -, -, text, -, -, -, hkind⟩ := parse?_eq_some_iff.1 h
  rcases kindOf?_eq_some_iff.1 hkind with ⟨hindent, hfunction, -⟩ | ⟨hindent, hmethod, -⟩
  · rw [if_pos hindent, hfunction]
  · rw [if_neg hindent, hmethod]

/-- A rendered function header starts with `function`, or with the indentation of a method, and
opens a brace behind the name and its parenthesis. -/
lemma Signature.exists_eq_of_render {s : Signature} {header : Text}
    (hrender : s.render = .ok header) :
    ∃ rest, header = (match s.kind with
      | .method => spaces s.indent
      | .function => "function ") ++ (spellMethod s.name ++ '(' :: rest) ∧ '\x7b' ∈ rest := by
  unfold render at hrender
  cases hparams : convertParams s.params with
  | error e =>
    rw [hparams] at hrender
    cases hrender
  | ok params =>
    cases hresult : s.renderResult with
    | error e =>
      rw [hparams, hresult] at hrender
      cases hrender
    | ok result =>
      rw [hparams, hresult] at hrender
      cases hrender
      refine ⟨params ++ ")" ++ result ++ " \x7b" ++ s.trailing, ?_, by simp⟩
      cases s.kind <;> simp

namespace Declaration

/-- The word that a declaration starts with. -/
def word : DeclarationKind → Text
  | .classes => "class "
  | .functions => "def "

/-- A declaration starts, behind its indentation, with its word. -/
lemma exists_drop_eq_of_parse? {kind : DeclarationKind} {line : Text} {d : Declaration}
    (h : parse? kind line = some d) :
    d.indent = leadingSpaces line ∧ ∃ rest, line.drop d.indent = word kind ++ rest := by
  cases kind with
  | classes =>
    obtain ⟨header, hparse, rfl⟩ := Option.map_eq_some_iff.1 h
    unfold ClassHeader.parse? at hparse
    split at hparse
    · cases hparse
    · simp only [Option.bind_eq_bind, Option.bind_eq_some_iff, Prod.exists] at hparse
      obtain ⟨rest, hstrip, _, _, _, _, _, _, hheader⟩ := hparse
      cases hheader
      exact ⟨rfl, rest, strip?_eq_some_iff.1 hstrip⟩
  | functions =>
    obtain ⟨header, hparse, rfl⟩ := Option.map_eq_some_iff.1 h
    obtain ⟨-, hindent, rest, -, -, hdrop, -⟩ := Signature.parse?_eq_some_iff.1 hparse
    refine ⟨hindent, rest, ?_⟩
    rw [show (ofFunction header).indent = leadingSpaces line from hindent]
    exact hdrop

/-- A declaration is indented by the spaces in front of it. -/
lemma indent_eq_of_parse? {kind : DeclarationKind} {line : Text} {d : Declaration}
    (h : parse? kind line = some d) : d.indent = leadingSpaces line :=
  (exists_drop_eq_of_parse? h).1

/-- A declaration is not blank. -/
lemma isBlank_eq_false_of_parse? {kind : DeclarationKind} {line : Text} {d : Declaration}
    (h : parse? kind line = some d) : isBlank line = false := by
  obtain ⟨rest, hdrop⟩ := (exists_drop_eq_of_parse? h).2
  cases kind with
  | classes => exact isBlank_eq_false_of_drop hdrop (by decide)
  | functions => exact isBlank_eq_false_of_drop hdrop (by decide)

/-- A rendered declaration opens a brace. -/
lemma mem_of_render {d : Declaration} {header : Text} (h : d.render = .ok header) :
    '\x7b' ∈ header := by
  cases d with
  | ofClass c =>
    obtain ⟨rest, rfl, hmem⟩ := ClassHeader.exists_eq_of_render h
    simp [hmem]
  | ofFunction s =>
    obtain ⟨rest, rfl, hmem⟩ := Signature.exists_eq_of_render h
    simp [hmem]

/-- A declaration in the first column is rendered there, and starts with its word in the target. -/
lemma exists_eq_of_render {kind : DeclarationKind} {line header : Text} {d : Declaration}
    (hparse : parse? kind line = some d) (hindent : d.indent = 0)
    (hrender : d.render = .ok header) :
    ∃ rest, header = "class " ++ rest ∨ header = "function " ++ rest := by
  cases kind with
  | classes =>
    obtain ⟨c, -, rfl⟩ := Option.map_eq_some_iff.1 hparse
    obtain ⟨rest, rfl, -⟩ := ClassHeader.exists_eq_of_render hrender
    refine ⟨rest, Or.inl ?_⟩
    rw [show c.indent = 0 from hindent]
    rfl
  | functions =>
    obtain ⟨s, hs, rfl⟩ := Option.map_eq_some_iff.1 hparse
    obtain ⟨rest, rfl, -⟩ := Signature.exists_eq_of_render hrender
    refine ⟨spellMethod s.name ++ '(' :: rest, Or.inr ?_⟩
    have hkind : s.kind = .function := (Signature.kind_eq_of_parse? hs).trans (if_pos hindent)
    rw [hkind]

end Declaration

end Rebrace
