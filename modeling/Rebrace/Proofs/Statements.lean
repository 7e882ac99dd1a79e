import Mathlib.Data.List.Basic
import Rebrace.Proofs.Headers
import Rebrace.Proofs.Lexical
import Rebrace.Proofs.Steps

/-!
# Every statement is converted once and in its place

The passes add closing braces, and take some of them into the header of the next clause.  The lines
that are no lone braces are the *statements*.  In a source without documentation texts the passes
neither lose nor repeat nor exchange statements: the `k`-th statement of the result is the `k`-th
statement of the source, converted.

`Follows p f lines out` says that the lines `out` are the lines `lines` one by one, where each line
with the property `p` has become its image under `f`.  For the passes that add braces it is
`Declaration.follows_of_brace` and `Clause.follows_of_braceFrom`; the other passes change each line
on its own and leave lone braces alone.  The main statement is `getElem?_statements_runAll`.
-/

namespace Rebrace

open Text

/-! ### Lone braces -/

/-- The line is made of spaces and a closing brace. -/
def isLoneBrace (line : Text) : Bool :=
  decide (line = closingLine (leadingSpaces line))

/-- The lines that are no lone braces. -/
def statements (lines : List Text) : List Text :=
  lines.filter fun line => !isLoneBrace line

@[simp] lemma isLoneBrace_closingLine (indent : Nat) : isLoneBrace (closingLine indent) = true := by
  simp [isLoneBrace]

lemma isLoneBrace_eq_false_iff {line : Text} :
    isLoneBrace line = false ↔ ∀ indent, line ≠ closingLine indent := by
  unfold isLoneBrace
  rw [decide_eq_false_iff_not]
  constructor
  · rintro h indent rfl
    exact h (by rw [leadingSpaces_closingLine])
  · exact fun h => h _

/-- A line with an opening brace is no lone closing brace. -/
lemma isLoneBrace_eq_false_of_mem {line : Text} (h : '\x7b' ∈ line) : isLoneBrace line = false := by
  rw [isLoneBrace_eq_false_iff]
  rintro indent rfl
  simp [closingLine, spaces] at h

/-- A space in front does not matter. -/
lemma isLoneBrace_space_cons (t : Text) : isLoneBrace (' ' :: t) = isLoneBrace t := by
  have hindent : leadingSpaces (' ' :: t) = leadingSpaces t + 1 := by simp [leadingSpaces]
  unfold isLoneBrace
  rw [hindent, decide_eq_decide]
  simp [closingLine, spaces, List.replicate_succ]

/-- Spaces in front do not matter. -/
lemma isLoneBrace_spaces_append (n : Nat) (t : Text) :
    isLoneBrace (spaces n ++ t) = isLoneBrace t := by
  induction n with
  | zero => rfl
  | succ n ih =>
    rw [spaces, List.replicate_succ, List.cons_append, isLoneBrace_space_cons]
    exact ih

/-- Without a space in front, a lone brace is the brace and nothing else. -/
lemma isLoneBrace_cons {c : Char} (hc : c ≠ ' ') (t : Text) :
    isLoneBrace (c :: t) = decide (c = '\x7d' ∧ t = []) := by
  simp [isLoneBrace, leadingSpaces, hc, closingLine, spaces]

/-- The lexical pass leaves lone braces alone. -/
lemma isLoneBrace_convertLexical (line : Text) :
    isLoneBrace (convertLexical line) = isLoneBrace line := by
  unfold isLoneBrace
  rw [decide_eq_decide, leadingSpaces_convertLexical, convertLexical_eq_closingLine_iff]

/-- Rescaling leaves lone braces alone. -/
lemma isLoneBrace_rescaleIndent (source target : Nat) (line : Text) :
    isLoneBrace (rescaleIndent source target line) = isLoneBrace line := by
  unfold rescaleIndent
  simp only
  split
  · rfl
  · have hle : leadingSpaces line / source * source ≤ leadingSpaces line := Nat.div_mul_le_self _ _
    rw [isLoneBrace_spaces_append]
    conv_rhs => rw [← spaces_append_drop hle, isLoneBrace_spaces_append]

/-- Comment markers leave lone braces alone. -/
lemma isLoneBrace_slashComments (line : Text) :
    isLoneBrace (slashComments line) = isLoneBrace line := by
  have hfrom : ∀ previous, previous = none ∨ previous = some ' ' →
      isLoneBrace (slashCommentsFrom previous .outside line) = isLoneBrace line := by
    induction line with
    | nil => exact fun _ _ => rfl
    | cons c t ih =>
      intro previous hprevious
      rw [slashCommentsFrom]
      by_cases hmark : c = '#'
      · have hne : previous ≠ some '#' := by rcases hprevious with rfl | rfl <;> decide
        rw [if_pos ⟨rfl, hmark, hne⟩, isLoneBrace_cons (by decide), hmark,
          isLoneBrace_cons (by decide)]
        simp
      · rw [if_neg (by simp [hmark])]
        by_cases hspace : c = ' '
        · subst hspace
          rw [isLoneBrace_space_cons, isLoneBrace_space_cons]
          exact ih (some ' ') (Or.inr rfl)
        · rw [isLoneBrace_cons hspace, isLoneBrace_cons hspace]
          cases t with
          | nil => rfl
          | cons d t =>
            have hne : slashCommentsFrom (some c) (QuoteState.outside.next c) (d :: t) ≠ [] := by
              rw [slashCommentsFrom]
              split
              · simp
              · simp
            simp [hne]
  exact hfrom none (Or.inl rfl)

/-! ### Statements -/

@[simp] lemma statements_nil : statements [] = [] := rfl

@[simp] lemma statements_append (lines below : List Text) :
    statements (lines ++ below) = statements lines ++ statements below :=
  List.filter_append lines below

lemma statements_cons_of_lone {line : Text} (h : isLoneBrace line = true) (lines : List Text) :
    statements (line :: lines) = statements lines :=
  List.filter_cons_of_neg (by simp [h])

lemma statements_cons_of_not_lone {line : Text} (h : isLoneBrace line = false) (lines : List Text) :
    statements (line :: lines) = line :: statements lines :=
  List.filter_cons_of_pos (by simp [h])

/-- A pass that changes each line on its own and leaves lone braces alone works on statements. -/
lemma statements_map {f : Text → Text} (hf : ∀ line, isLoneBrace (f line) = isLoneBrace line)
    (lines : List Text) : statements (lines.map f) = (statements lines).map f := by
  unfold statements
  rw [List.filter_map]
  simp only [Function.comp_def, hf]

/-- Closing a block adds no statement. -/
lemma statements_close (indent : Nat) (below : List Text) :
    statements (blockBody indent below ++ closingLine indent :: blockRest indent below) =
      statements below := by
  rw [statements_append, statements_cons_of_lone (isLoneBrace_closingLine indent),
    ← statements_append, blockBody_append_blockRest]

/-! ### Lines that follow other lines -/

/-- The lines `out` are the lines `lines` one by one and in the same order, and each line with the
property `p` has become `f line`. -/
def Follows (p : Text → Prop) (f : Text → Text) (lines out : List Text) : Prop :=
  lines.length = out.length ∧
    ∀ (k : Nat) (line : Text), lines[k]? = some line → p line → out[k]? = some (f line)

namespace Follows

lemma nil (p : Text → Prop) (f : Text → Text) : Follows p f [] [] :=
  ⟨rfl, by simp⟩

/-- One more line in front. -/
lemma cons {p : Text → Prop} {f : Text → Text} {line new : Text} {lines out : List Text}
    (hnew : p line → new = f line) (h : Follows p f lines out) :
    Follows p f (line :: lines) (new :: out) := by
  obtain ⟨hlength, hout⟩ := h
  refine ⟨by simp [hlength], ?_⟩
  intro k other hother hp
  cases k with
  | zero =>
    obtain rfl : line = other := by simpa using hother
    simp [hnew hp]
  | succ k => simpa using hout k other (by simpa using hother) hp

/-- A function of each line. -/
lemma map (f : Text → Text) (lines : List Text) :
    Follows (fun _ => True) f lines (lines.map f) := by
  refine ⟨by simp, ?_⟩
  intro k line hline _
  simp [hline]

/-- Lines that follow lines that follow lines. -/
lemma trans {p q : Text → Prop} {f g : Text → Text} {lines middle out : List Text}
    (h : Follows p f lines middle) (h' : Follows q g middle out) :
    Follows (fun line => p line ∧ q (f line)) (fun line => g (f line)) lines out := by
  refine ⟨h.1.trans h'.1, ?_⟩
  rintro k line hline ⟨hp, hq⟩
  exact h'.2 k (f line) (h.2 k line hline hp) hq

/-- A line that is kept comes in front, unless it is a lone brace. -/
lemma keep {p : Text → Prop} {lines out : List Text} (h : Follows p id (statements lines) out)
    (line : Text) : Follows p id (statements (line :: lines)) (statements [line] ++ out) := by
  cases hlone : isLoneBrace line with
  | true => rwa [statements_cons_of_lone hlone, statements_cons_of_lone hlone]
  | false =>
    rw [statements_cons_of_not_lone hlone, statements_cons_of_not_lone hlone]
    exact h.cons fun _ => rfl

/-- A header that is rendered comes in front. -/
lemma render {p : Text → Prop} {line header : Text} {lines out : List Text}
    (h : Follows p id (statements lines) out) (hlone : isLoneBrace line = false) (hp : ¬p line)
    (hheader : '\x7b' ∈ header) :
    Follows p id (statements (line :: lines)) (statements [header] ++ out) := by
  rw [statements_cons_of_not_lone hlone,
    statements_cons_of_not_lone (isLoneBrace_eq_false_of_mem hheader)]
  exact h.cons fun hline => absurd hline hp

/-- It is enough to follow the lines with a stronger property. -/
lemma mono {p q : Text → Prop} {f : Text → Text} {lines out : List Text} (h : Follows p f lines out)
    (hq : ∀ line, q line → p line) : Follows q f lines out :=
  ⟨h.1, fun k line hline hqline => h.2 k line hline (hq line hqline)⟩

end Follows

/-! ### Blocks without documentation -/

/-- The line starts, behind white space, with a delimiter of documentation texts. -/
def opensDoc (line : Text) : Bool :=
  docDelimiters.any (startsWith · (trimStart line))

/-- A block has no documentation if none of its lines opens one. -/
lemma liftDoc?_eq_none {body : List Text} (h : ∀ line ∈ body, opensDoc line = false) :
    liftDoc? body = none := by
  unfold liftDoc?
  split
  · rfl
  · rename_i first more hbody
    have hfirst : first ∈ body :=
      (List.dropWhile_suffix isBlank).subset (hbody ▸ List.mem_cons_self)
    have hnone : docDelimiters.find? (startsWith · (trimStart first)) = none := by
      rw [List.find?_eq_none]
      exact List.any_eq_false.1 (h first hfirst)
    simp only [hnone]

/-- A block without documentation is left whole. -/
lemma ofBody_eq {body : List Text} (h : ∀ line ∈ body, opensDoc line = false) (indent : Nat) :
    BlockParts.ofBody indent body = ⟨[], body⟩ := by
  unfold BlockParts.ofBody
  rw [liftDoc?_eq_none h]

/-- What a text starts with behind white space occurs in it. -/
lemma contains_of_startsWith_trimStart {part t : Text} (h : startsWith part (trimStart t) = true) :
    contains part t = true := by
  induction t with
  | nil =>
    cases part with
    | nil => rfl
    | cons c part => cases h
  | cons c t ih =>
    rw [contains, Bool.or_eq_true]
    by_cases hc : isWhite c
    · rw [trimStart, List.dropWhile_cons_of_pos hc] at h
      exact Or.inr (ih h)
    · rw [trimStart, List.dropWhile_cons_of_neg hc] at h
      exact Or.inl h

/-- A line in which no delimiter occurs opens no documentation. -/
lemma opensDoc_eq_false_of_contains {line : Text}
    (h : ∀ delimiter ∈ docDelimiters, contains delimiter line = false) : opensDoc line = false := by
  unfold opensDoc
  rw [List.any_eq_false]
  intro delimiter hdelimiter hstart
  have hcontains := contains_of_startsWith_trimStart hstart
  rw [h delimiter hdelimiter] at hcontains
  cases hcontains

/-- White space in front does not matter. -/
lemma opensDoc_spaces_append (n : Nat) (t : Text) : opensDoc (spaces n ++ t) = opensDoc t := by
  have hspaces : ∀ c ∈ spaces n, isWhite c = true := by
    intro c hc
    rw [List.eq_of_mem_replicate hc]
    decide
  unfold opensDoc trimStart
  rw [List.dropWhile_append_of_pos hspaces]

/-- A closing brace opens no documentation. -/
lemma opensDoc_closingLine (indent : Nat) : opensDoc (closingLine indent) = false := by
  rw [closingLine, opensDoc_spaces_append]
  decide

/-! ### Classes and functions -/

namespace Declaration

/-- A declaration is no lone brace. -/
lemma isLoneBrace_eq_false_of_parse? {kind : DeclarationKind} {line : Text} {d : Declaration}
    (h : parse? kind line = some d) : isLoneBrace line = false := by
  rw [isLoneBrace_eq_false_iff]
  rintro indent rfl
  rw [parse?_closingLine] at h
  cases h

/-- No line of what is left below a header opens a documentation text if none did before. -/
lemma opensDoc_of_mem_close {indent : Nat} {below : List Text}
    (h : ∀ line ∈ below, opensDoc line = false) :
    ∀ line ∈ blockBody indent below ++ closingLine indent :: blockRest indent below,
      opensDoc line = false := by
  intro line hline
  rw [← blockBody_append_blockRest indent below] at h
  rcases List.mem_append.1 hline with hbody | hrest
  · exact h line (List.mem_append_left _ hbody)
  · rcases List.mem_cons.1 hrest with rfl | hrest
    · exact opensDoc_closingLine indent
    · exact h line (List.mem_append_right _ hrest)

/-- Induction over the pass on lines without documentation texts: a line is kept, or a header is
rendered and its block is closed. -/
lemma braceFrom_induction (kind : DeclarationKind) {motive : List Text → List Text → Prop}
    (nil : motive [] [])
    (keep : ∀ line below out, parse? kind line = none → motive below out →
      motive (line :: below) (line :: out))
    (header : ∀ line below d rendered out, parse? kind line = some d → d.render = .ok rendered →
      motive (blockBody d.indent below ++ closingLine d.indent :: blockRest d.indent below) out →
      motive (line :: below) (rendered :: out))
    {row : Nat} {lines out : List Text} (hdoc : ∀ line ∈ lines, opensDoc line = false)
    (h : (braceFrom kind row lines).result = .ok out) : motive lines out := by
  refine braceFrom_ok_induction kind (motive := fun lines out =>
    (∀ line ∈ lines, opensDoc line = false) → motive lines out) (fun _ => nil) ?_ ?_ h hdoc
  · intro line below rest hparse ih hlines
    exact keep line below rest hparse (ih (List.forall_mem_cons.1 hlines).2)
  · intro line below d rendered rest hparse hrender ih hlines
    have hbelow := (List.forall_mem_cons.1 hlines).2
    have hparts : BlockParts.ofBody d.indent (blockBody d.indent below) =
        ⟨[], blockBody d.indent below⟩ := by
      refine ofBody_eq ?_ d.indent
      exact fun other hmem => hbelow other ((blockBody_isPrefix d.indent below).subset hmem)
    rw [hparts] at ih ⊢
    exact header line below d rendered rest hparse hrender (ih (opensDoc_of_mem_close hbelow))

/-- The pass over declarations keeps every statement in its place, and changes headers only. -/
lemma follows_of_brace {kind : DeclarationKind} {lines out : List Text}
    (hdoc : ∀ line ∈ lines, opensDoc line = false) (h : (brace kind lines).result = .ok out) :
    Follows (fun line => parse? kind line = none) id (statements lines) (statements out) := by
  refine braceFrom_induction kind (motive := fun lines out =>
    Follows (fun line => parse? kind line = none) id (statements lines) (statements out))
    ?_ ?_ ?_ hdoc h
  · exact Follows.nil _ _
  · intro line below out _ ih
    rw [← List.singleton_append (l := out), statements_append]
    exact ih.keep line
  · intro line below d rendered out hparse hrender ih
    rw [statements_close] at ih
    rw [← List.singleton_append (l := out), statements_append]
    exact ih.render (isLoneBrace_eq_false_of_parse? hparse) (by simp [hparse])
      (mem_of_render hrender)

/-- A rendered class opens no documentation. -/
lemma opensDoc_of_render {line header : Text} {d : Declaration} (h : parse? .classes line = some d)
    (hrender : d.render = .ok header) : opensDoc header = false := by
  obtain ⟨c, -, rfl⟩ := Option.map_eq_some_iff.1 h
  obtain ⟨rest, rfl, -⟩ := ClassHeader.exists_eq_of_render hrender
  rw [opensDoc_spaces_append]
  rfl

/-- The pass over classes opens no documentation. -/
lemma opensDoc_of_brace {lines out : List Text} (hdoc : ∀ line ∈ lines, opensDoc line = false)
    (h : (brace .classes lines).result = .ok out) : ∀ line ∈ out, opensDoc line = false := by
  refine braceFrom_induction .classes (motive := fun lines out =>
    (∀ line ∈ lines, opensDoc line = false) → ∀ line ∈ out, opensDoc line = false)
    ?_ ?_ ?_ hdoc h hdoc
  · exact fun hnil => hnil
  · intro line below out _ ih hlines
    rw [List.forall_mem_cons] at hlines ⊢
    exact ⟨hlines.1, ih hlines.2⟩
  · intro line below d rendered out hparse hrender ih hlines
    rw [List.forall_mem_cons] at hlines ⊢
    exact ⟨opensDoc_of_render hparse hrender, ih (opensDoc_of_mem_close hlines.2)⟩

end Declaration

/-! ### Clauses -/

namespace Clause

/-- A clause header is no lone brace. -/
lemma isLoneBrace_eq_false_of_parse? {line : Text} {c : Clause} (h : parse? line = some c) :
    isLoneBrace line = false := by
  rw [isLoneBrace_eq_false_iff]
  rintro indent rfl
  rw [parse?_closingLine] at h
  cases h

/-- A clause takes nothing but a lone brace from the lines above it. -/
lemma statements_of_joinAbove {c : Clause} {above kept : List Text} {leading : Text}
    (h : c.joinAbove above = .ok (leading, kept)) :
    statements kept.reverse = statements above.reverse := by
  rcases eq_or_eq_cons_of_joinAbove h with rfl | rfl
  · rfl
  · rw [List.reverse_cons, statements_append,
      statements_cons_of_lone (isLoneBrace_closingLine c.indent), statements_nil, List.append_nil]

/-- The pass over clauses keeps every statement in its place, and changes headers only. -/
lemma follows_of_braceFrom {above below out : List Text}
    (h : (braceFrom above below).result = .ok out) :
    ∃ rest, statements out = statements above.reverse ++ rest ∧
      Follows (fun line => parse? line = none) id (statements below) rest := by
  refine braceFrom_ok_induction (motive := fun above below =>
    ∃ rest, statements out = statements above.reverse ++ rest ∧
      Follows (fun line => parse? line = none) id (statements below) rest) ?_ ?_ ?_ h
  · rintro above rfl
    exact ⟨[], by simp, Follows.nil _ _⟩
  · rintro above line below _ ⟨rest, hout, hrest⟩
    rw [List.reverse_cons, statements_append, List.append_assoc] at hout
    exact ⟨_, hout, hrest.keep line⟩
  · rintro above line below c leading kept rendered hparse hjoin hrender ⟨rest, hout, hrest⟩
    rw [List.reverse_cons, statements_append, statements_of_joinAbove hjoin,
      List.append_assoc] at hout
    rw [statements_close] at hrest
    refine ⟨_, hout, ?_⟩
    exact hrest.render (isLoneBrace_eq_false_of_parse? hparse) (by simp [hparse])
      (mem_of_render hrender)

end Clause

/-! ### The sequence of passes -/

/-- All passes one after the other keep every statement in its place, and change a statement that
opens nothing in the way that the passes over single lines do. -/
lemma follows_of_runAll {widths : Widths} {lines out : List Text}
    (hdoc : ∀ line ∈ lines, opensDoc line = false)
    (h : (Pass.runAll widths lines Pass.order).result = .ok out) :
    Follows
      (fun line => ClassHeader.parse? line = none ∧ Signature.parse? line = none ∧
        Clause.parse? (convertLexical line) = none)
      (fun line => slashComments (rescaleIndent widths.source widths.target (convertLexical line)))
      (statements lines) (statements out) := by
  simp only [Pass.order, Pass.result_runAll_cons, bind_eq_ok_iff] at h
  obtain ⟨classes, hclasses, functions, hfunctions, lexical, hlexical, clauses, hclauses,
    rescaled, hrescaled, commented, hcommented, hout⟩ := h
  cases hlexical
  cases hrescaled
  cases hcommented
  cases hout
  have hfollowsClasses := Declaration.follows_of_brace hdoc hclasses
  have hfollowsFunctions :=
    Declaration.follows_of_brace (Declaration.opensDoc_of_brace hdoc hclasses) hfunctions
  have hfollowsLexical := Follows.map convertLexical (statements functions)
  rw [← statements_map isLoneBrace_convertLexical] at hfollowsLexical
  obtain ⟨rest, hrest, hfollowsClauses⟩ := Clause.follows_of_braceFrom hclauses
  rw [List.reverse_nil, statements_nil, List.nil_append] at hrest
  have hfollowsRescaled :=
    Follows.map (rescaleIndent widths.source widths.target) (statements clauses)
  rw [← statements_map (isLoneBrace_rescaleIndent _ _)] at hfollowsRescaled
  have hfollowsComments := Follows.map slashComments
    (statements (clauses.map (rescaleIndent widths.source widths.target)))
  rw [← statements_map isLoneBrace_slashComments] at hfollowsComments
  rw [hrest] at hfollowsRescaled
  refine (((hfollowsClasses.trans hfollowsFunctions).trans hfollowsLexical).trans
    hfollowsClauses |>.trans hfollowsRescaled |>.trans hfollowsComments).mono ?_
  rintro line ⟨hclass, hfunction, hclause⟩
  simp [Declaration.parse?, hclass, hfunction, hclause]

/-- **No statement is lost, repeated or moved.**  Let no line of a source hold a delimiter of
documentation texts, and let all passes succeed.  Then there are as many statements in the result as
in the source.  If the `k`-th one of the source opens no class, function or clause, then it is the
`k`-th one of the result, with names, comparisons, indentation and comment markers of the target. -/
theorem getElem?_statements_runAll (widths : Widths) {source : Text} {out : List Text}
    (hquotes : ∀ line ∈ (Buffer.ofSource source).lines, ∀ delimiter ∈ docDelimiters,
      contains delimiter line = false)
    (hout : (Pass.runAll widths (Buffer.ofSource source).lines Pass.order).result = .ok out) :
    (statements (Buffer.ofSource source).lines).length = (statements out).length ∧
      ∀ (k : Nat) (line : Text), (statements (Buffer.ofSource source).lines)[k]? = some line →
        ClassHeader.parse? line = none → Signature.parse? line = none →
        Clause.parse? (convertLexical line) = none →
        (statements out)[k]? = some (slashComments
          (rescaleIndent widths.source widths.target (strictEquality (spellNames line)))) := by
  have hdoc : ∀ line ∈ (Buffer.ofSource source).lines, opensDoc line = false :=
    fun line hline => opensDoc_eq_false_of_contains (hquotes line hline)
  obtain ⟨hlength, hplace⟩ := follows_of_runAll hdoc hout
  refine ⟨hlength, ?_⟩
  intro k line hline hclass hfunction hclause
  exact hplace k line hline ⟨hclass, hfunction, hclause⟩

/-- The second statement of two clauses, of which the latter joins the closing brace of the
former. -/
theorem getElem?_statements_runAll_clauses :
    (∀ line ∈ (Buffer.ofSource "if a_b == 1:\n    c_d()  # e\nelse:\n    f()\n").lines,
        ∀ delimiter ∈ docDelimiters, contains delimiter line = false) ∧
      (Pass.runAll {} (Buffer.ofSource "if a_b == 1:\n    c_d()  # e\nelse:\n    f()\n").lines
          Pass.order).result =
        .ok ["if (aB === 1) \x7b", "  cD()  // e", "\x7d else \x7b", "  f()", "\x7d"] ∧
      (statements ["if (aB === 1) \x7b", "  cD()  // e", "\x7d else \x7b", "  f()", "\x7d"])[1]? =
        some "  cD()  // e".toList := by
  have hquotes : ∀ line ∈
      (Buffer.ofSource "if a_b == 1:\n    c_d()  # e\nelse:\n    f()\n").lines,
      ∀ delimiter ∈ docDelimiters, contains delimiter line = false := by decide +kernel
  have hout : (Pass.runAll {}
      (Buffer.ofSource "if a_b == 1:\n    c_d()  # e\nelse:\n    f()\n").lines Pass.order).result =
        .ok ["if (aB === 1) \x7b", "  cD()  // e", "\x7d else \x7b", "  f()", "\x7d"] := by
    decide +kernel
  refine ⟨hquotes, hout, ?_⟩
  have hplace := (getElem?_statements_runAll {} hquotes hout).2 1 "    c_d()  # e".toList
    (by decide +kernel) (by decide +kernel) (by decide +kernel) (by decide +kernel)
  rw [hplace]
  decide +kernel

end Rebrace
