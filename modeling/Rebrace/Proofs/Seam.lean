import Mathlib.Data.List.Basic
import Rebrace.Proofs.Blocks
import Rebrace.Proofs.Headers
import Rebrace.Proofs.Lexical
import Rebrace.Proofs.Steps

/-!
# Converting a source in two parts

A source can be cut in front of a line in the first column that continues nothing, and both parts
can be converted on their own.  `StartsFresh lines` says that the lines may stand below such a cut:
the first of them that is not blank is `IsFresh`.

A pass separates if it works on the two parts as it does on the whole, `SeparatesOn`.  For the
passes that add braces this is `Declaration.separatesOn_brace` and `Clause.separatesOn_brace`: no
block above the cut reaches below it, no clause below it joins a brace above it, and the search for
the header in front of an `else` stops below it.  The main statement is
`convert_append_eq_ok_iff`: the conversion of a source succeeds if the conversions of both parts do,
and then the results are put together.
-/

namespace Rebrace

open Text

/-! ### Cuts -/

/-- A line in the first column that closes no block and continues no clause. -/
structure IsFresh (line : Text) : Prop where
  /-- The line is not indented. -/
  leadingSpaces_eq : leadingSpaces line = 0
  /-- The line is no closing brace. -/
  ne_closingLine : line ≠ closingLine 0
  /-- The line is no header of a clause that continues another one. -/
  chains_eq_false : ∀ c, Clause.parse? line = some c → c.keyword.chains = false

/-- A text that starts with no space, brace or keyword is fresh. -/
lemma isFresh_of_ofStart? {line : Text} (hindent : leadingSpaces line = 0)
    (hbrace : line ≠ ['\x7d']) (hstart : Keyword.ofStart? line = none) : IsFresh line where
  leadingSpaces_eq := hindent
  ne_closingLine := hbrace
  chains_eq_false := by
    intro c hc
    obtain ⟨-, -, rest, -, hkey, -⟩ := Clause.parse?_eq_some_iff.1 hc
    rw [hindent, List.drop_zero, hstart] at hkey
    cases hkey

/-- The first line that is not blank, if there is one, is fresh. -/
def StartsFresh (lines : List Text) : Prop :=
  ∀ line, lines.find? (fun line => !isBlank line) = some line → IsFresh line

/-- Blank lines in front do not matter. -/
lemma startsFresh_cons_of_blank {line : Text} (hline : isBlank line = true) (lines : List Text) :
    StartsFresh (line :: lines) ↔ StartsFresh lines := by
  unfold StartsFresh
  rw [List.find?_cons_of_neg (by simp [hline])]

/-- A line that is not blank decides. -/
lemma startsFresh_cons_of_not_blank {line : Text} (hline : isBlank line = false)
    (lines : List Text) : StartsFresh (line :: lines) ↔ IsFresh line := by
  unfold StartsFresh
  rw [List.find?_cons_of_pos (by simp [hline])]
  simp

/-- No block reaches below a cut. -/
lemma blockBody_append {below : List Text} (hbelow : StartsFresh below) (indent : Nat)
    (lines : List Text) : blockBody indent (lines ++ below) = blockBody indent lines := by
  induction lines with
  | nil =>
    induction below with
    | nil => rfl
    | cons line below ih =>
      cases hline : isBlank line with
      | true =>
        rw [startsFresh_cons_of_blank hline] at hbelow
        rw [List.nil_append, blockBody_cons_of_blank hline]
        exact if_pos (ih hbelow)
      | false =>
        rw [startsFresh_cons_of_not_blank hline] at hbelow
        exact blockBody_cons_of_shallow hline (by simp [hbelow.leadingSpaces_eq]) below
  | cons line lines ih =>
    cases hline : isBlank line with
    | true =>
      rw [List.cons_append, blockBody_cons_of_blank hline, blockBody_cons_of_blank hline, ih]
    | false =>
      by_cases hdeep : indent < leadingSpaces line
      · rw [List.cons_append, blockBody_cons_of_deeper hline hdeep,
          blockBody_cons_of_deeper hline hdeep, ih]
      · rw [List.cons_append, blockBody_cons_of_shallow hline (by omega),
          blockBody_cons_of_shallow hline (by omega)]

/-- What follows a block above a cut goes on with the lines below the cut. -/
lemma blockRest_append {below : List Text} (hbelow : StartsFresh below) (indent : Nat)
    (lines : List Text) :
    blockRest indent (lines ++ below) = blockRest indent lines ++ below := by
  unfold blockRest
  rw [blockBody_append hbelow,
    List.drop_append_of_le_length (blockBody_isPrefix indent lines).length_le]

/-! ### Passes that separate -/

/-- Two results one below the other. -/
def stack (x y : Except Error (List Text)) : Except Error (List Text) :=
  x >>= fun above => (above ++ ·) <$> y

lemma stack_eq_ok_iff {x y : Except Error (List Text)} {out : List Text} :
    stack x y = .ok out ↔ ∃ above below, x = .ok above ∧ y = .ok below ∧ above ++ below = out := by
  simp only [stack, bind_eq_ok_iff, map_eq_ok_iff, exists_and_left]

/-- Lines in front of two results are lines in front of the first. -/
lemma map_append_stack (lines : List Text) (x y : Except Error (List Text)) :
    (lines ++ ·) <$> stack x y = stack ((lines ++ ·) <$> x) y := by
  cases x with
  | error e => rfl
  | ok above =>
    cases y with
    | error e => rfl
    | ok below => exact congrArg Except.ok (List.append_assoc lines above below).symm

/-- Below a cut with the property `p`, the pass `f` succeeds on the whole if it does on both parts,
and with the two results one below the other. -/
def SeparatesOn (p : List Text → Prop) (f : List Text → Except Error (List Text)) : Prop :=
  ∀ lines below, p below → ∀ out, f (lines ++ below) = .ok out ↔ stack (f lines) (f below) = .ok out

/-- One pass after another separates if the first leaves a cut below which the second does. -/
lemma SeparatesOn.bind {p q : List Text → Prop} {f g : List Text → Except Error (List Text)}
    (hf : SeparatesOn p f) (hkeep : ∀ below out, p below → f below = .ok out → q out)
    (hg : SeparatesOn q g) : SeparatesOn p fun lines => f lines >>= g := by
  intro lines below hbelow out
  simp only [bind_eq_ok_iff, stack_eq_ok_iff]
  constructor
  · rintro ⟨whole, hwhole, hout⟩
    obtain ⟨x, y, hx, hy, rfl⟩ := stack_eq_ok_iff.1 ((hf lines below hbelow whole).1 hwhole)
    obtain ⟨x', y', hx', hy', rfl⟩ :=
      stack_eq_ok_iff.1 ((hg x y (hkeep below y hbelow hy) out).1 hout)
    exact ⟨x', y', ⟨x, hx, hx'⟩, ⟨y, hy, hy'⟩, rfl⟩
  · rintro ⟨x', y', ⟨x, hx, hx'⟩, ⟨y, hy, hy'⟩, rfl⟩
    refine ⟨x ++ y, (hf lines below hbelow _).2 (stack_eq_ok_iff.2 ⟨x, y, hx, hy, rfl⟩), ?_⟩
    exact (hg x y (hkeep below y hbelow hy) _).2 (stack_eq_ok_iff.2 ⟨x', y', hx', hy', rfl⟩)

/-- A pass that changes each line on its own separates everywhere. -/
lemma separatesOn_map (p : List Text → Prop) (f : Text → Text) :
    SeparatesOn p fun lines => .ok (lines.map f) := by
  intro lines below _ out
  simp only [List.map_append]
  rfl

/-! ### Classes and functions -/

namespace Declaration

/-- The pass over declarations works on the parts above and below a cut as on the whole. -/
lemma result_braceFrom_append (kind : DeclarationKind) (row : Nat) (lines : List Text)
    {below : List Text} (hbelow : StartsFresh below) :
    (braceFrom kind row (lines ++ below)).result =
      stack (braceFrom kind row lines).result (brace kind below).result := by
  fun_induction braceFrom kind row lines with
  | case1 row =>
    rw [List.nil_append, brace, result_braceFrom_row kind row 0]
    exact (id_map' _).symm
  | case2 row line lines h ih =>
    rw [List.cons_append, result_braceFrom_cons_of_none h, ih, Outcome.result_after]
    exact map_append_stack [line] _ _
  | case3 row line lines d h e hrender =>
    rw [List.cons_append, result_braceFrom_cons_of_some h, hrender]
    rfl
  | case4 row line lines d h body parts header hrender last hlt ih =>
    rw [List.cons_append, result_braceFrom_cons_of_some h, hrender, Outcome.result_after,
      ← map_append_stack, ← ih, blockBody_append hbelow, blockRest_append hbelow, List.append_assoc]
    rfl

/-- The pass over declarations separates. -/
lemma separatesOn_brace (kind : DeclarationKind) :
    SeparatesOn StartsFresh fun lines => (brace kind lines).result := by
  intro lines below hbelow out
  simp only
  rw [brace, result_braceFrom_append kind 0 lines hbelow]
  rfl

/-- The comment above a declaration in the first column is fresh, and so is its header. -/
lemma startsFresh_doc_append {kind : DeclarationKind} {line header : Text} {d : Declaration}
    (hparse : parse? kind line = some d) (hindent : d.indent = 0) (hrender : d.render = .ok header)
    (body rest : List Text) :
    StartsFresh ((BlockParts.ofBody d.indent body).doc ++ [header] ++ rest) := by
  have hheader : isBlank header = false ∧ IsFresh header := by
    obtain ⟨text, rfl | rfl⟩ := exists_eq_of_render hparse hindent hrender
    · exact ⟨rfl, isFresh_of_ofStart? rfl (by simp) rfl⟩
    · exact ⟨rfl, isFresh_of_ofStart? rfl (by simp) rfl⟩
  have hdoc : (BlockParts.ofBody d.indent body).doc = [] ∨
      ∃ more, (BlockParts.ofBody d.indent body).doc = "/**".toList :: more := by
    unfold BlockParts.ofBody
    split
    · unfold docComment
      split
      · exact .inl rfl
      · rw [hindent]
        exact .inr ⟨_, rfl⟩
    · exact .inl rfl
  rcases hdoc with hdoc | ⟨more, hdoc⟩
  · rw [hdoc]
    exact (startsFresh_cons_of_not_blank hheader.1 rest).2 hheader.2
  · rw [hdoc]
    exact (startsFresh_cons_of_not_blank (by decide) _).2
      (isFresh_of_ofStart? (by decide) (by decide) (by decide))

/-- The pass over declarations keeps a cut. -/
lemma startsFresh_of_brace (kind : DeclarationKind) {below out : List Text}
    (hbelow : StartsFresh below) (hout : (brace kind below).result = .ok out) :
    StartsFresh out := by
  induction below generalizing out with
  | nil =>
    rw [result_brace_nil] at hout
    cases hout
    exact hbelow
  | cons line below ih =>
    cases hparse : parse? kind line with
    | none =>
      rw [result_brace_cons_of_none hparse] at hout
      obtain ⟨rest, hrest, rfl⟩ := map_eq_ok_iff.1 hout
      cases hline : isBlank line with
      | true =>
        rw [startsFresh_cons_of_blank hline] at hbelow ⊢
        exact ih hbelow hrest
      | false => rwa [startsFresh_cons_of_not_blank hline] at hbelow ⊢
    | some d =>
      have hline := isBlank_eq_false_of_parse? hparse
      rw [startsFresh_cons_of_not_blank hline] at hbelow
      have hindent : d.indent = 0 := by
        rw [indent_eq_of_parse? hparse, hbelow.leadingSpaces_eq]
      rw [result_brace_cons_of_some hparse] at hout
      obtain ⟨header, hrender, hmap⟩ := bind_eq_ok_iff.1 hout
      obtain ⟨rest, -, rfl⟩ := map_eq_ok_iff.1 hmap
      exact startsFresh_doc_append hparse hindent hrender _ rest

end Declaration

/-! ### Names and comparisons -/

/-- The lexical pass keeps a cut. -/
lemma startsFresh_map_convertLexical {below : List Text} (hbelow : StartsFresh below) :
    StartsFresh (below.map convertLexical) := by
  have hfresh : ∀ line, IsFresh line → IsFresh (convertLexical line) := by
    intro line h
    refine ⟨?_, ?_, ?_⟩
    · rw [leadingSpaces_convertLexical, h.leadingSpaces_eq]
    · rw [Ne, convertLexical_eq_closingLine_iff]
      exact h.ne_closingLine
    · intro c hc
      have hkeyword := Clause.map_keyword_parse?_convertLexical line
      rw [hc, Option.map_some, eq_comm] at hkeyword
      obtain ⟨c', hc', heq⟩ := Option.map_eq_some_iff.1 hkeyword
      rw [← heq]
      exact h.chains_eq_false c' hc'
  intro line hline
  rw [List.find?_map] at hline
  obtain ⟨line, hfind, rfl⟩ := Option.map_eq_some_iff.1 hline
  refine hfresh line (hbelow line ?_)
  simpa [Function.comp_def] using hfind

/-! ### Clauses

The pass over clauses looks back at the finished lines: for a brace to join, and for the header of
the block in front of an `else`.  It looks no further than the nearest *barrier*, a line that is in
the first column and no closing brace. -/

/-- Neither a closing brace nor the search for a header gets past the line. -/
def IsBarrier (line : Text) : Prop :=
  isBlank line = false ∧ leadingSpaces line = 0 ∧ line ≠ closingLine 0

namespace Clause

/-- A barrier stays when a closing brace is taken away. -/
lemma exists_isBarrier_of_cons {indent : Nat} {lines : List Text}
    (h : ∃ line ∈ closingLine indent :: lines, IsBarrier line) :
    ∃ line ∈ lines, IsBarrier line := by
  obtain ⟨line, hmem, hline⟩ := h
  rcases List.mem_cons.1 hmem with rfl | hmem
  · obtain ⟨-, hindent, hne⟩ := hline
    rw [leadingSpaces_closingLine] at hindent
    exact absurd (by rw [hindent]) hne
  · exact ⟨line, hmem, hline⟩

/-- The search for the header in front of an `else` does not get past a barrier. -/
lemma elseBlocker?_append {near : List Text} (h : ∃ line ∈ near, IsBarrier line) (indent : Nat)
    (far : List Text) : elseBlocker? indent (near ++ far) = elseBlocker? indent near := by
  obtain ⟨line, hmem, hblank, hindent, -⟩ := h
  have hfound : (near.find? fun line => !isBlank line && leadingSpaces line ≤ indent).isSome := by
    rw [List.find?_isSome]
    exact ⟨line, hmem, by simp [hblank, hindent]⟩
  obtain ⟨found, hfound⟩ := Option.isSome_iff_exists.1 hfound
  unfold elseBlocker?
  rw [List.find?_append, hfound, Option.some_or]

/-- What lies behind a barrier has no influence on the line that a clause joins. -/
lemma joinAbove_append (c : Clause) {near : List Text} (h : ∃ line ∈ near, IsBarrier line)
    (far : List Text) :
    c.joinAbove (near ++ far) =
      (fun joined => (joined.1, joined.2 ++ far)) <$> c.joinAbove near := by
  by_cases hjoins : c.keyword.chains ∧ near.head? = some (closingLine c.indent)
  · obtain ⟨rest, rfl⟩ := List.head?_eq_some_iff.1 hjoins.2
    have hblocked : c.blockedBy? (rest ++ far) = c.blockedBy? rest := by
      unfold blockedBy?
      rw [elseBlocker?_append (exists_isBarrier_of_cons h)]
    rw [List.cons_append, joinAbove_of_joins hjoins.1, joinAbove_of_joins hjoins.1, hblocked]
    cases c.blockedBy? rest with
    | none => rfl
    | some keyword => rfl
  · have hhead : (near ++ far).head? = near.head? := by
      obtain ⟨line, hmem, -⟩ := h
      rw [List.head?_append_of_ne_nil _ (List.ne_nil_of_mem hmem)]
    rw [joinAbove_of_not_joins hjoins, joinAbove_of_not_joins (by rwa [hhead])]
    rfl

/-- A clause takes no barrier away. -/
lemma exists_isBarrier_of_joinAbove {c : Clause} {near kept : List Text} {leading : Text}
    (h : ∃ line ∈ near, IsBarrier line) (hjoin : c.joinAbove near = .ok (leading, kept)) :
    ∃ line ∈ kept, IsBarrier line := by
  rcases eq_or_eq_cons_of_joinAbove hjoin with rfl | rfl
  · exact h
  · exact exists_isBarrier_of_cons h

/-- Finished lines behind a barrier stay as they are and change nothing. -/
lemma result_braceFrom_append_above {near below : List Text} (h : ∃ line ∈ near, IsBarrier line)
    (far : List Text) :
    (braceFrom (near ++ far) below).result =
      (far.reverse ++ ·) <$> (braceFrom near below).result := by
  fun_induction braceFrom near below with
  | case1 near => simp [Functor.map, Except.map]
  | case2 near line below hparse ih =>
    obtain ⟨barrier, hmem, hbarrier⟩ := h
    rw [braceFrom_cons_of_none hparse, ← List.cons_append,
      ih ⟨barrier, List.mem_cons_of_mem _ hmem, hbarrier⟩]
  | case3 near line below c hparse e hjoin =>
    rw [result_braceFrom_cons_of_some hparse, joinAbove_append c h, hjoin]
    rfl
  | case4 near line below c hparse leading kept hjoin e hrender =>
    rw [result_braceFrom_cons_of_some hparse, joinAbove_append c h, hjoin]
    simp only [Functor.map, Except.map, bind, Except.bind, hrender]
    rfl
  | case5 near line below c hparse leading kept hjoin header hrender body first last hlt ih =>
    obtain ⟨barrier, hmem, hbarrier⟩ := exists_isBarrier_of_joinAbove h hjoin
    have hjoin' : c.joinAbove (near ++ far) = .ok (leading, kept ++ far) := by
      rw [joinAbove_append c h, hjoin]
      rfl
    rw [result_braceFrom_cons_of_render hparse hjoin' hrender, Outcome.result_after_nil]
    exact ih ⟨barrier, List.mem_cons_of_mem _ hmem, hbarrier⟩

/-- The lines below a cut are gone through with what the lines above it have become. -/
lemma result_braceFrom_append_below (above lines : List Text) {below : List Text}
    (hbelow : StartsFresh below) :
    (braceFrom above (lines ++ below)).result =
      (braceFrom above lines).result >>= fun out => (braceFrom out.reverse below).result := by
  fun_induction braceFrom above lines with
  | case1 above => simp [bind, Except.bind]
  | case2 above line lines hparse ih => rw [List.cons_append, braceFrom_cons_of_none hparse, ih]
  | case3 above line lines c hparse e hjoin =>
    rw [List.cons_append, result_braceFrom_cons_of_some hparse, hjoin]
    rfl
  | case4 above line lines c hparse leading kept hjoin e hrender =>
    rw [List.cons_append, result_braceFrom_cons_of_some hparse, hjoin]
    simp only [bind, Except.bind, hrender]
    rfl
  | case5 above line lines c hparse leading kept hjoin header hrender body first last hlt ih =>
    rw [List.cons_append, result_braceFrom_cons_of_render hparse hjoin hrender,
      Outcome.result_after_nil, ← ih, blockBody_append hbelow, blockRest_append hbelow,
      List.append_assoc, List.cons_append]

/-- A fresh clause header is rendered to a barrier. -/
lemma isBarrier_of_render {c : Clause} {header : Text} (hindent : c.indent = 0)
    (hrender : c.render [] = .ok header) : IsBarrier header := by
  obtain ⟨condition, rfl⟩ := exists_eq_of_render hrender
  have htarget : ∃ first rest, c.keyword.target = first :: rest ∧ isWhite first = false ∧
      first ≠ '\x7d' := by
    cases c.keyword <;> exact ⟨_, _, rfl, by decide, by decide⟩
  obtain ⟨first, rest, htarget, hwhite, hbrace⟩ := htarget
  have hspace : first ≠ ' ' := by
    rintro rfl
    cases hwhite
  rw [hindent, htarget]
  refine ⟨?_, ?_, ?_⟩
  · simp [isBlank, spaces, hwhite]
  · simp [leadingSpaces, spaces, hspace]
  · simp [closingLine, spaces, hbrace]

/-- Finished lines above a cut stay as they are and change nothing below it. -/
lemma result_braceFrom_of_startsFresh {near below : List Text} (hbelow : StartsFresh below)
    (far : List Text) :
    (braceFrom (near ++ far) below).result =
      (far.reverse ++ ·) <$> (braceFrom near below).result := by
  induction below generalizing near with
  | nil => simp [Functor.map, Except.map]
  | cons line below ih =>
    cases hline : isBlank line with
    | true =>
      have hparse := parse?_eq_none_of_isBlank hline
      rw [startsFresh_cons_of_blank hline] at hbelow
      rw [braceFrom_cons_of_none hparse, braceFrom_cons_of_none hparse, ← List.cons_append,
        ih hbelow]
    | false =>
      rw [startsFresh_cons_of_not_blank hline] at hbelow
      cases hparse : parse? line with
      | none =>
        have hbarrier : IsBarrier line := ⟨hline, hbelow.leadingSpaces_eq, hbelow.ne_closingLine⟩
        rw [braceFrom_cons_of_none hparse, braceFrom_cons_of_none hparse, ← List.cons_append]
        exact result_braceFrom_append_above ⟨line, List.mem_cons_self, hbarrier⟩ far
      | some c =>
        have hchains := hbelow.chains_eq_false c hparse
        have hindent : c.indent = 0 := by
          rw [indent_eq_of_parse? hparse, hbelow.leadingSpaces_eq]
        have hjoin : ∀ above, c.joinAbove above = .ok ([], above) := by
          intro above
          exact joinAbove_of_not_joins (by simp [hchains])
        cases hrender : c.render [] with
        | error e =>
          rw [result_braceFrom_cons_of_some hparse, result_braceFrom_cons_of_some hparse, hjoin,
            hjoin]
          simp only [bind, Except.bind, hrender]
          rfl
        | ok header =>
          have hbarrier := isBarrier_of_render hindent hrender
          rw [result_braceFrom_cons_of_render hparse (hjoin _) hrender,
            result_braceFrom_cons_of_render hparse (hjoin _) hrender, ← List.cons_append]
          exact result_braceFrom_append_above ⟨header, List.mem_cons_self, hbarrier⟩ far

/-- The pass over clauses separates. -/
lemma separatesOn_brace : SeparatesOn StartsFresh fun lines => (brace lines).result := by
  intro lines below hbelow out
  simp only
  rw [brace, result_braceFrom_append_below [] lines hbelow]
  have hbelow' : ∀ above, (braceFrom above.reverse below).result =
      (above ++ ·) <$> (brace below).result := by
    intro above
    rw [brace, ← List.nil_append above.reverse, result_braceFrom_of_startsFresh hbelow,
      List.reverse_reverse]
  simp only [hbelow']
  rfl

end Clause

/-! ### The sequence of passes -/

namespace Pass

/-- A pass in front of a sequence that separates below the cut that it leaves. -/
lemma separatesOn_runAll_cons {widths : Widths} {p q : List Text → Prop} {pass : Pass}
    {passes : List Pass} (hpass : SeparatesOn p fun lines => (pass.run widths lines).result)
    (hkeep : ∀ below out, p below → (pass.run widths below).result = .ok out → q out)
    (hpasses : SeparatesOn q fun lines => (runAll widths lines passes).result) :
    SeparatesOn p fun lines => (runAll widths lines (pass :: passes)).result := by
  simp only [result_runAll_cons]
  exact hpass.bind hkeep hpasses

/-- The passes one after the other separate. -/
lemma separatesOn_runAll (widths : Widths) :
    SeparatesOn StartsFresh fun lines => (runAll widths lines order).result := by
  refine separatesOn_runAll_cons (q := StartsFresh) (Declaration.separatesOn_brace .classes)
    (fun _ _ => Declaration.startsFresh_of_brace .classes) ?_
  refine separatesOn_runAll_cons (q := StartsFresh) (Declaration.separatesOn_brace .functions)
    (fun _ _ => Declaration.startsFresh_of_brace .functions) ?_
  refine separatesOn_runAll_cons (q := StartsFresh) (separatesOn_map _ convertLexical) ?_ ?_
  · rintro below out hbelow ⟨⟩
    exact startsFresh_map_convertLexical hbelow
  -- The passes that are left change each line on its own, so that they need no cut.
  refine separatesOn_runAll_cons (q := fun _ => True) Clause.separatesOn_brace
    (fun _ _ _ _ => trivial) ?_
  refine separatesOn_runAll_cons (q := fun _ => True)
    (separatesOn_map _ (rescaleIndent widths.source widths.target)) (fun _ _ _ _ => trivial) ?_
  refine separatesOn_runAll_cons (q := fun _ => True) (separatesOn_map _ slashComments)
    (fun _ _ _ _ => trivial) ?_
  exact fun _ _ _ _ => Iff.rfl

end Pass

/-! ### Passes and the number of lines -/

/-- The pass over declarations leaves no lines exactly if it was given none. -/
lemma Declaration.eq_nil_iff_of_brace {kind : DeclarationKind} {lines out : List Text}
    (h : (brace kind lines).result = .ok out) : out = [] ↔ lines = [] := by
  refine braceFrom_ok_induction kind (motive := fun lines out => out = [] ↔ lines = [])
    ?_ ?_ ?_ h
  · rfl
  · simp
  · simp

/-- The pass over clauses leaves no lines exactly if there were none. -/
lemma Clause.eq_nil_iff_of_braceFrom {above below out : List Text}
    (h : (braceFrom above below).result = .ok out) : out = [] ↔ above = [] ∧ below = [] := by
  refine braceFrom_ok_induction (motive := fun above below =>
    out = [] ↔ above = [] ∧ below = []) ?_ ?_ ?_ h
  · rintro above rfl
    simp
  · intro above line below _ ih
    simpa using ih
  · intro above line below c leading kept rendered _ _ _ ih
    simpa using ih

namespace Pass

/-- A pass leaves no lines exactly if it was given none. -/
lemma eq_nil_iff_of_run {widths : Widths} {lines out : List Text} {pass : Pass}
    (h : (pass.run widths lines).result = .ok out) : out = [] ↔ lines = [] := by
  have hmap : ∀ f : Text → Text, Except.ok (lines.map f) = (.ok out : Except Error _) →
      (out = [] ↔ lines = []) := by
    rintro f ⟨⟩
    exact List.map_eq_nil_iff
  cases pass with
  | classes => exact Declaration.eq_nil_iff_of_brace h
  | functions => exact Declaration.eq_nil_iff_of_brace h
  | lexical => exact hmap _ h
  | controlFlow => simpa using Clause.eq_nil_iff_of_braceFrom h
  | indentation => exact hmap _ h
  | comments => exact hmap _ h

/-- Passes one after the other leave no lines exactly if they were given none. -/
lemma eq_nil_iff_of_runAll {widths : Widths} {lines out : List Text} {passes : List Pass}
    (h : (runAll widths lines passes).result = .ok out) : out = [] ↔ lines = [] := by
  induction passes generalizing lines with
  | nil =>
    cases h
    rfl
  | cons pass passes ih =>
    rw [result_runAll_cons] at h
    obtain ⟨rest, hpass, hpasses⟩ := bind_eq_ok_iff.1 h
    rw [ih hpasses, eq_nil_iff_of_run hpass]

end Pass

/-! ### Sources -/

/-- A text that ends with a line feed is made of ended lines, and any text can follow. -/
lemma cutLines_append {a : Text} (ha : a.getLast? = some '\n') (b : Text) :
    (cutLines a).1 ≠ [] ∧ (cutLines a).2 = [] ∧
      cutLines (a ++ b) = ((cutLines a).1 ++ (cutLines b).1, (cutLines b).2) := by
  induction a with
  | nil => cases ha
  | cons c a ih =>
    by_cases hnil : a = []
    · subst hnil
      have hc : c = '\n' := by simpa using ha
      simp [cutLines, hc]
    · have ha' : a.getLast? = some '\n' := by
        rwa [List.getLast?_cons_of_ne_nil hnil] at ha
      obtain ⟨hne, hrest, happend⟩ := ih ha'
      obtain ⟨line, lines, hcut⟩ := List.exists_cons_of_ne_nil hne
      by_cases hc : c = '\n'
      · simp [cutLines, hc, hrest, happend]
      · simp [cutLines, hc, hrest, happend, hcut]

/-- Only the empty text has no lines. -/
lemma eq_nil_of_cutLines {t : Text} (hended : (cutLines t).1 = []) (hrest : (cutLines t).2 = []) :
    t = [] := by
  cases t with
  | nil => rfl
  | cons c t =>
    rw [cutLines] at hended hrest
    split at hended
    · cases hended
    · rename_i hc
      rw [if_neg hc] at hrest
      split at hended
      · rename_i hnil
        rw [hnil] at hrest
        cases hrest
      · cases hended

/-- Texts with a separator between them, cut at one of the separators. -/
lemma join_append (separator : Text) {x y : List Text} (hx : x ≠ []) (hy : y ≠ []) :
    join separator (x ++ y) = join separator x ++ separator ++ join separator y := by
  unfold join
  induction x with
  | nil => exact absurd rfl hx
  | cons line x ih =>
    by_cases hnil : x = []
    · subst hnil
      rw [List.singleton_append, List.intercalate_cons_of_ne_nil hy, List.intercalate_singleton]
    · rw [List.cons_append, List.intercalate_cons_of_ne_nil (by simp [hnil]),
        List.intercalate_cons_of_ne_nil hnil, ih hnil]
      simp

namespace Buffer

/-- The lines of a source whose first part ends with a line feed are those of both parts. -/
lemma lines_ofSource_append {a : Text} (ha : a = [] ∨ a.getLast? = some '\n') (b : Text) :
    (ofSource (a ++ b)).lines = (ofSource a).lines ++ (ofSource b).lines := by
  rcases ha with rfl | ha
  · rfl
  · obtain ⟨-, hrest, happend⟩ := cutLines_append ha b
    simp [ofSource, hrest, happend]

/-- Only the empty source has no lines. -/
lemma lines_ofSource_eq_nil_iff {source : Text} : (ofSource source).lines = [] ↔ source = [] := by
  constructor
  · intro h
    simp only [ofSource, List.append_eq_nil_iff, List.map_eq_nil_iff] at h
    cases hrest : (cutLines source).2 with
    | nil => exact eq_nil_of_cutLines h.1 hrest
    | cons c rest => simp [hrest] at h
  · rintro rfl
    rfl

/-- Two sources one after the other hold the lines of both. -/
lemma toSource_append {a b : Text} {x y : List Text} (ha : a = [] ∨ a.getLast? = some '\n')
    (hx : x = [] ↔ a = []) (hy : y = [] ↔ b = []) :
    toSource { ofSource (a ++ b) with lines := x ++ y } =
      toSource { ofSource a with lines := x } ++ toSource { ofSource b with lines := y } := by
  rcases ha with rfl | ha
  · rw [hx.2 rfl]
    rfl
  · by_cases hb : b = []
    · subst hb
      rw [hy.2 rfl]
      simp [toSource, ofSource, join]
    · have hane : a ≠ [] := by
        rintro rfl
        cases ha
      have hend : (a ++ b).getLast? = b.getLast? := List.getLast?_append_of_ne_nil a hb
      simp only [toSource, ofSource, ha, hend, join_append _ (mt hx.1 hane) (mt hy.1 hb)]
      simp

end Buffer

/-! ### Conversions -/

/-- A source is converted by all passes over its lines. -/
lemma convert_eq_ok_iff {widths : Widths} {source out : Text} :
    convert widths source = .ok out ↔
      ∃ lines, (Pass.runAll widths (Buffer.ofSource source).lines Pass.order).result = .ok lines ∧
        { Buffer.ofSource source with lines }.toSource = out :=
  map_eq_ok_iff

/-- **A source can be converted in two parts.**  If the first part is empty or ends with a line
feed, and the second one starts, blank lines aside, with a line in the first column that is no
closing brace and continues no clause, then the whole is converted exactly if both parts are, and to
the two results one after the other. -/
theorem convert_append_eq_ok_iff (widths : Widths) {a b : Text}
    (ha : a = [] ∨ a.getLast? = some '\n') (hb : StartsFresh (Buffer.ofSource b).lines)
    (out : Text) :
    convert widths (a ++ b) = .ok out ↔
      ∃ x y, convert widths a = .ok x ∧ convert widths b = .ok y ∧ out = x ++ y := by
  have hnil : ∀ {source : Text} {lines : List Text},
      (Pass.runAll widths (Buffer.ofSource source).lines Pass.order).result = .ok lines →
        (lines = [] ↔ source = []) := by
    intro source lines h
    rw [Pass.eq_nil_iff_of_runAll h, Buffer.lines_ofSource_eq_nil_iff]
  have hpasses := Pass.separatesOn_runAll widths (Buffer.ofSource a).lines _ hb
  simp only [convert_eq_ok_iff]
  rw [Buffer.lines_ofSource_append ha]
  constructor
  · rintro ⟨lines, hlines, rfl⟩
    obtain ⟨x, y, hx, hy, rfl⟩ := stack_eq_ok_iff.1 ((hpasses lines).1 hlines)
    exact ⟨_, _, ⟨x, hx, rfl⟩, ⟨y, hy, rfl⟩, Buffer.toSource_append ha (hnil hx) (hnil hy)⟩
  · rintro ⟨_, _, ⟨x, hx, rfl⟩, ⟨y, hy, rfl⟩, rfl⟩
    refine ⟨x ++ y, (hpasses _).2 (stack_eq_ok_iff.2 ⟨x, y, hx, hy, rfl⟩), ?_⟩
    exact Buffer.toSource_append ha (hnil hx) (hnil hy)

/-- A class below a loop, with blank lines on both sides of the cut. -/
theorem convert_append_loop_class :
    ("for x in xs:\n    y()\n\n".toList.getLast? = some '\n') ∧
      StartsFresh (Buffer.ofSource "\nclass A:\n    pass\n").lines ∧
      convert {} ("for x in xs:\n    y()\n\n".toList ++ "\nclass A:\n    pass\n".toList) =
        .ok "for (const x of xs) \x7b\n  y()\n\x7d\n\n\nclass A \x7b\n  pass\n\x7d\n" := by
  have hend : "for x in xs:\n    y()\n\n".toList.getLast? = some '\n' := by decide
  have hfresh : StartsFresh (Buffer.ofSource "\nclass A:\n    pass\n").lines := by
    have hlines : (Buffer.ofSource "\nclass A:\n    pass\n").lines =
        [[], "class A:".toList, "    pass".toList] := by decide +kernel
    rw [hlines, startsFresh_cons_of_blank (by decide), startsFresh_cons_of_not_blank (by decide)]
    exact isFresh_of_ofStart? (by decide) (by decide) (by decide)
  refine ⟨hend, hfresh, ?_⟩
  refine (convert_append_eq_ok_iff {} (Or.inr hend) hfresh _).2
    ⟨"for (const x of xs) \x7b\n  y()\n\x7d\n\n", "\nclass A \x7b\n  pass\n\x7d\n", ?_, ?_, ?_⟩
  · decide +kernel
  · decide +kernel
  · decide

end Rebrace
