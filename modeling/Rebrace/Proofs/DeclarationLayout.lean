import Rebrace.Proofs.Headers
import Rebrace.Proofs.Layout
import Rebrace.Proofs.Steps

/-!
# Braces for declarations, from the given lines alone

The pass over classes, and likewise that over functions, replaces each header, lifts the
documentation out of its block and closes the block, and it reads every later block from the lines
that it has changed so far.  `Declaration.layout` says what comes out from the given lines alone.
A row is left out if it is part of the documentation of a declaration above it; a declaration that
is not left out is visited, which means that its header is rendered and its block closed.

The main statement is `Declaration.result_declarations_eq_layout`: on every buffer the pass has the
result of `Declaration.layout`, lines or failure.
-/

namespace Rebrace

open Text

/-! ### The documentation at the start of a block -/

/-- The number of lines at the start of a block that are lifted out of it: those through the end of
its documentation, and the blank ones directly after it. -/
def liftedLength (body : List Text) : Nat :=
  match liftDoc? body with
  | none => 0
  | some (raw, _) =>
    let last := (body.takeWhile isBlank).length + raw.length
    last + ((body.drop last).takeWhile isBlank).length

/-- The documentation of a block stands behind the blank lines at its start, and the blank lines
after it go with it. -/
lemma exists_append_of_liftDoc? {body raw rest : List Text} (h : liftDoc? body = some (raw, rest)) :
    ∃ after, body.dropWhile isBlank = raw ++ after ∧ rest = after.dropWhile isBlank := by
  unfold liftDoc? at h
  split at h
  · cases h
  · rename_i first more hbody
    simp only at h
    split at h
    · cases h
    · rename_i delimiter _
      split at h
      · simp only [Option.some.injEq, Prod.mk.injEq] at h
        exact ⟨more, by rw [hbody, ← h.1]; rfl, h.2.symm⟩
      · split at h
        · cases h
        · rename_i last after hmore
          simp only [Option.some.injEq, Prod.mk.injEq] at h
          refine ⟨after, ?_, h.2.symm⟩
          have hsplit := List.takeWhile_append_dropWhile
            (p := fun line => !contains delimiter line) (l := more)
          rw [hmore] at hsplit
          rw [hbody, ← h.1]
          nth_rewrite 1 [← hsplit]
          simp

/-- A block is the lines that are lifted out of it, followed by what remains of it. -/
lemma exists_append_body_ofBody (indent : Nat) (body : List Text) :
    ∃ lifted, body = lifted ++ (BlockParts.ofBody indent body).body ∧
      lifted.length = liftedLength body := by
  unfold BlockParts.ofBody liftedLength
  cases hlift : liftDoc? body with
  | none => exact ⟨[], rfl, rfl⟩
  | some lifted =>
    obtain ⟨raw, rest⟩ := lifted
    obtain ⟨after, hbody, rfl⟩ := exists_append_of_liftDoc? hlift
    have hsplit : body = body.takeWhile isBlank ++ raw ++ after := by
      rw [List.append_assoc, ← hbody, List.takeWhile_append_dropWhile]
    have hafter : body.drop ((body.takeWhile isBlank).length + raw.length) = after := by
      rw [← List.length_append]
      nth_rewrite 2 [hsplit]
      exact List.drop_left
    refine ⟨body.takeWhile isBlank ++ raw ++ after.takeWhile isBlank, ?_, ?_⟩
    · rw [List.append_assoc, List.takeWhile_append_dropWhile]
      exact hsplit
    · simp only [hafter, List.length_append]

/-- What remains of a block is the block without the lines that are lifted out of it. -/
lemma body_ofBody (indent : Nat) (body : List Text) :
    (BlockParts.ofBody indent body).body = body.drop (liftedLength body) := by
  obtain ⟨lifted, hbody, hlength⟩ := exists_append_body_ofBody indent body
  rw [← hlength]
  nth_rewrite 2 [hbody]
  exact List.drop_left.symm

/-- Only lines of the block are lifted out of it. -/
lemma liftedLength_le (body : List Text) : liftedLength body ≤ body.length := by
  obtain ⟨lifted, hbody, hlength⟩ := exists_append_body_ofBody 0 body
  have hle := congrArg List.length hbody
  rw [List.length_append] at hle
  omega

/-- The lines of the block that row `k` of a buffer opens. -/
def Buffer.blockLines (b : Buffer) (k : Nat) : List Text :=
  match b.blockEnd? k with
  | some last => (b.lines.take (last + 1)).drop (k + 1)
  | none => []

namespace Declaration

/-! ### The layout of the given lines -/

variable (kind : DeclarationKind) (b : Buffer)

/-- The declaration that row `k` of a buffer opens. -/
def headerAt? (k : Nat) : Option Declaration :=
  (b.line? k).bind (parse? kind)

/-- Is row `k` lifted out of the block of a header in row `h`? -/
def isLifted (h k : Nat) : Bool :=
  h < k && k ≤ h + liftedLength (b.blockLines h)

/-- Does row `k` open a declaration that is not part of the documentation of one visited above? -/
def isVisited (k : Nat) : Bool :=
  (headerAt? kind b k).isSome &&
    (List.range k).attach.all fun h => !(isVisited h.1 && isLifted b h.1 k)
termination_by k
decreasing_by exact List.mem_range.1 h.2

/-- Is row `k` part of the documentation of a visited declaration? -/
def isLeftOut (k : Nat) : Bool :=
  (List.range k).any fun h => isVisited kind b h && isLifted b h k

/-- The indentation of the declaration in row `k`, if it is visited. -/
def indentAt? (k : Nat) : Option Nat :=
  if isVisited kind b k then (headerAt? kind b k).map indent else none

/-- What a row becomes: nothing if it is left out, the rendered header below its documentation if it
is visited, and itself otherwise. -/
def rowForm (line : Text) (k : Nat) : Except Error (List Text) :=
  if isLeftOut kind b k then .ok []
  else
    match parse? kind line with
    | some d =>
      (fun header => (BlockParts.ofBody d.indent (b.blockLines k)).doc ++ [header]) <$> d.render
    | none => .ok [line]

/-- What a row becomes, with the closing braces of the blocks that end there. -/
def closedRowForm (row : Text × Nat) : Except Error (List Text) :=
  (· ++ b.closingsAt (indentAt? kind b) row.2) <$> rowForm kind b row.1 row.2

/-- All rows of a buffer, with the declarations in their form in the target. -/
def layout : Except Error (List Text) :=
  List.flatten <$> b.lines.zipIdx.mapM (closedRowForm kind b)

/-! ### Visited rows -/

variable {kind b}

lemma isLeftOut_iff {k : Nat} :
    isLeftOut kind b k = true ↔
      ∃ h < k, isVisited kind b h = true ∧ k ≤ h + liftedLength (b.blockLines h) := by
  simp only [isLeftOut, isLifted, List.any_eq_true, List.mem_range, Bool.and_eq_true,
    decide_eq_true_eq]
  constructor
  · rintro ⟨h, hk, hvisited, -, hle⟩
    exact ⟨h, hk, hvisited, hle⟩
  · rintro ⟨h, hk, hvisited, hle⟩
    exact ⟨h, hk, hvisited, hk, hle⟩

/-- The visited rows are the headers that are not left out. -/
lemma isVisited_eq (k : Nat) :
    isVisited kind b k = ((headerAt? kind b k).isSome && !isLeftOut kind b k) := by
  rw [isVisited, isLeftOut, ← List.not_any_eq_all_not,
    List.any_subtype (g := fun h => isVisited kind b h && isLifted b h k) fun _ _ => rfl,
    List.unattach_attach]

/-- The rows of visited declarations have the indentation of their line. -/
lemma marksHeaders_indentAt? (kind : DeclarationKind) (b : Buffer) :
    MarksHeaders b (indentAt? kind b) := by
  intro k indent h
  unfold indentAt? at h
  split at h
  · obtain ⟨d, hd, rfl⟩ := Option.map_eq_some_iff.1 h
    obtain ⟨line, hline, hparse⟩ := Option.bind_eq_some_iff.1 hd
    exact ⟨line, hline, isBlank_eq_false_of_parse? hparse, (indent_eq_of_parse? hparse).symm⟩
  · cases h

/-- The lines of the block of a declaration. -/
lemma blockLines_eq_blockBody {k : Nat} {line : Text} {d : Declaration}
    (hline : b.line? k = some line) (hparse : parse? kind line = some d) :
    b.blockLines k = blockBody d.indent (b.lines.drop (k + 1)) := by
  unfold Buffer.blockLines
  rw [Buffer.blockEnd?_of_line hline (isBlank_eq_false_of_parse? hparse),
    ← indent_eq_of_parse? hparse]
  have hprefix := blockBody_isPrefix d.indent (b.lines.drop (k + 1))
  rw [List.prefix_iff_eq_take] at hprefix
  simp only [List.drop_take, Nat.add_sub_add_right, Nat.add_sub_cancel_left]
  exact hprefix.symm

/-- In front of row `k` there are `skip` rows to be left out: the documentation of the visited
declarations above ends there, and it lies inside all open blocks. -/
structure Skips (kind : DeclarationKind) (b : Buffer) (k skip : Nat) : Prop where
  /-- No documentation reaches further. -/
  lt : ∀ h < k, isVisited kind b h = true → h + liftedLength (b.blockLines h) < k + skip
  /-- Some documentation reaches as far. -/
  exists_eq : 0 < skip →
    ∃ h < k, isVisited kind b h = true ∧ h + liftedLength (b.blockLines h) + 1 = k + skip
  /-- The open blocks reach at least as far. -/
  le : ∀ indent ∈ b.opensAt (indentAt? kind b) k,
    skip ≤ (blockBody indent (b.lines.drop k)).length

namespace Skips

/-- In front of the first row there is nothing to be left out. -/
lemma zero (kind : DeclarationKind) (b : Buffer) : Skips kind b 0 0 where
  lt h hh := absurd hh (Nat.not_lt_zero h)
  exists_eq hpos := absurd hpos (Nat.lt_irrefl 0)
  le _ _ := Nat.zero_le _

/-- A row is left out exactly if there are rows to be left out in front of it. -/
lemma isLeftOut_eq {k skip : Nat} (hskips : Skips kind b k skip) :
    isLeftOut kind b k = decide (0 < skip) := by
  rw [Bool.eq_iff_iff, isLeftOut_iff, decide_eq_true_eq]
  constructor
  · rintro ⟨h, hhk, hvisited, hle⟩
    have hlt := hskips.lt h hhk hvisited
    omega
  · intro hpos
    obtain ⟨h, hhk, hvisited, heq⟩ := hskips.exists_eq hpos
    exact ⟨h, hhk, hvisited, by omega⟩

/-- The open blocks in front of the next row are among those that reach this row. -/
lemma mem_of_mem_opensAt_succ {k indent : Nat}
    (hmem : indent ∈ b.opensAt (indentAt? kind b) (k + 1)) :
    indent ∈ (indentAt? kind b k).toList ++ b.opensAt (indentAt? kind b) k := by
  have hmarks := marksHeaders_indentAt? kind b
  rw [← filter_not_isOver hmarks, opensAmong_range_succ hmarks] at hmem
  exact List.mem_of_mem_filter hmem

/-- A row that is left out leaves one row less to be left out. -/
lemma succ_of_pos {k skip : Nat} (hskips : Skips kind b k (skip + 1)) :
    Skips kind b (k + 1) skip where
  lt h hh hvisited := by
    rcases Nat.lt_succ_iff_lt_or_eq.1 hh with hlt | rfl
    · have := hskips.lt h hlt hvisited
      omega
    · rw [isVisited_eq, hskips.isLeftOut_eq] at hvisited
      simp at hvisited
  exists_eq hpos := by
    obtain ⟨h, hlt, hvisited, heq⟩ := hskips.exists_eq (Nat.succ_pos skip)
    exact ⟨h, Nat.lt_succ_of_lt hlt, hvisited, by omega⟩
  le indent hmem := by
    have hvisited : isVisited kind b k = false := by
      rw [isVisited_eq, hskips.isLeftOut_eq]
      simp
    have hmem' := mem_of_mem_opensAt_succ hmem
    simp only [indentAt?, hvisited] at hmem'
    have hlen := length_blockBody_drop_succ (marksHeaders_indentAt? kind b) hmem'
    have hle := hskips.le indent hmem'
    omega

/-- A visited declaration leaves its documentation to be left out. -/
lemma succ_of_isVisited {k : Nat} (hskips : Skips kind b k 0) (hvisited : isVisited kind b k = true)
    (hle : ∀ indent ∈ (indentAt? kind b k).toList ++ b.opensAt (indentAt? kind b) k,
      liftedLength (b.blockLines k) ≤ (blockBody indent (b.lines.drop (k + 1))).length) :
    Skips kind b (k + 1) (liftedLength (b.blockLines k)) where
  lt h hh hvisited' := by
    rcases Nat.lt_succ_iff_lt_or_eq.1 hh with hlt | rfl
    · have := hskips.lt h hlt hvisited'
      omega
    · omega
  exists_eq _ := ⟨k, Nat.lt_succ_self k, hvisited, by omega⟩
  le indent hmem := hle indent (mem_of_mem_opensAt_succ hmem)

/-- A row that is kept as it is leaves nothing to be left out. -/
lemma succ_of_not_isVisited {k : Nat} (hskips : Skips kind b k 0)
    (hvisited : isVisited kind b k = false) : Skips kind b (k + 1) 0 where
  lt h hh hvisited' := by
    rcases Nat.lt_succ_iff_lt_or_eq.1 hh with hlt | rfl
    · have := hskips.lt h hlt hvisited'
      omega
    · rw [hvisited] at hvisited'
      cases hvisited'
  exists_eq hpos := absurd hpos (Nat.lt_irrefl 0)
  le _ _ := Nat.zero_le _

end Skips

/-! ### The pass follows the layout -/

/-- The rows of a layout one by one. -/
lemma flatten_mapM_cons {α β ε : Type} (f : α → Except ε (List β)) (a : α) (l : List α) :
    List.flatten <$> (a :: l).mapM f =
      (do
        let first ← f a
        (first ++ ·) <$> (List.flatten <$> l.mapM f)) := by
  rw [List.mapM_cons]
  cases f a with
  | error e => rfl
  | ok first =>
    simp only [bind, Except.bind]
    cases l.mapM f <;> rfl

lemma closedRowForm_of_isLeftOut {k : Nat} (h : isLeftOut kind b k = true) (line : Text) :
    closedRowForm kind b (line, k) = .ok (b.closingsAt (indentAt? kind b) k) := by
  simp [closedRowForm, rowForm, h]

lemma closedRowForm_of_none {k : Nat} {line : Text} (h : isLeftOut kind b k = false)
    (hparse : parse? kind line = none) :
    closedRowForm kind b (line, k) = .ok (line :: b.closingsAt (indentAt? kind b) k) := by
  simp [closedRowForm, rowForm, h, hparse]

lemma closedRowForm_of_some {k : Nat} {line : Text} {d : Declaration}
    (h : isLeftOut kind b k = false) (hparse : parse? kind line = some d) :
    closedRowForm kind b (line, k) =
      (fun header => (BlockParts.ofBody d.indent (b.blockLines k)).doc ++ [header] ++
        b.closingsAt (indentAt? kind b) k) <$> d.render := by
  simp [closedRowForm, rowForm, h, hparse]

/-- After row `k`, and the rows left out below it, the pass goes over the closing braces that belong
there. -/
lemma result_brace_weave_after {k skip : Nat} (hk : k < b.lines.length)
    (hle : ∀ indent ∈ (indentAt? kind b k).toList ++ b.opensAt (indentAt? kind b) k,
      skip ≤ (blockBody indent (b.lines.drop (k + 1))).length) :
    (brace kind (weave ((indentAt? kind b k).toList ++ b.opensAt (indentAt? kind b) k)
        (b.lines.drop (k + 1 + skip)))).result =
      (b.closingsAt (indentAt? kind b) k ++ ·) <$>
        (brace kind (weave (b.opensAt (indentAt? kind b) (k + 1))
          (b.lines.drop (k + 1 + skip)))).result := by
  have hpassed : ∀ closing ∈ b.closingsAt (indentAt? kind b) k, parse? kind closing = none := by
    intro closing hmem
    obtain ⟨indent, rfl⟩ := Buffer.exists_eq_closingLine_of_mem_closingsAt hmem
    exact parse?_closingLine kind indent
  rw [weave_opensAt (marksHeaders_indentAt? kind b) hk skip hle,
    result_brace_append_of_none hpassed]

section Header

variable {k : Nat} {line : Text} {below : List Text} {d : Declaration}
  (hbelow : b.lines.drop k = line :: below) (hparse : parse? kind line = some d)

include hbelow hparse

/-- A declaration is nested in the open blocks. -/
lemma lt_indent_of_mem_opensAt : ∀ outer ∈ b.opensAt (indentAt? kind b) k, outer < d.indent := by
  intro outer hmem
  rw [indent_eq_of_parse? hparse]
  exact lt_leadingSpaces_of_mem_opensAt (marksHeaders_indentAt? kind b) hbelow
    (isBlank_eq_false_of_parse? hparse) hmem

/-- The lines that are lifted out of a block belong to it and to all open blocks around it. -/
lemma liftedLength_blockLines_le : ∀ outer ∈ d.indent :: b.opensAt (indentAt? kind b) k,
    liftedLength (b.blockLines k) ≤ (blockBody outer below).length := by
  intro outer hmem
  obtain ⟨-, hline, hnext⟩ := Buffer.row_of_drop_eq_cons hbelow
  have houter : outer ≤ d.indent := by
    rcases List.mem_cons.1 hmem with rfl | hmem
    · exact le_rfl
    · exact (lt_indent_of_mem_opensAt hbelow hparse outer hmem).le
  rw [blockLines_eq_blockBody hline hparse, hnext]
  calc liftedLength (blockBody d.indent below) ≤ (blockBody d.indent below).length :=
        liftedLength_le _
    _ ≤ (blockBody outer below).length := length_blockBody_le_of_le houter below

/-- A declaration is rendered below its documentation, its block becomes one of the open blocks, and
the pass goes on behind the lines that are lifted out of the block. -/
lemma result_brace_weave_header :
    (brace kind (line :: weave (b.opensAt (indentAt? kind b) k) below)).result =
      (do
        let header ← d.render
        ((BlockParts.ofBody d.indent (b.blockLines k)).doc ++ [header] ++ ·) <$>
          (brace kind (weave (d.indent :: b.opensAt (indentAt? kind b) k)
            (below.drop (liftedLength (b.blockLines k))))).result) := by
  obtain ⟨-, hline, hnext⟩ := Buffer.row_of_drop_eq_cons hbelow
  have hnested := lt_indent_of_mem_opensAt hbelow hparse
  have hblock : b.blockLines k = blockBody d.indent below := by
    rw [blockLines_eq_blockBody hline hparse, hnext]
  rw [result_brace_cons_of_some hparse, weave_drop (liftedLength_blockLines_le hbelow hparse),
    weave_cons_eq_blockBody_append hnested, blockBody_weave hnested, ← hblock,
    List.drop_append_of_le_length (liftedLength_le _)]
  refine bind_congr fun header => ?_
  simp only [body_ofBody]

end Header

/-- From row `k` on, the pass over the lines below, with the closing braces of the open blocks among
them and the rows to be left out removed, gives the rows of the layout. -/
lemma result_brace_weave (k skip : Nat) (below : List Text) (hbelow : b.lines.drop k = below)
    (hskips : Skips kind b k skip) :
    (brace kind (weave (b.opensAt (indentAt? kind b) k) (below.drop skip))).result =
      List.flatten <$> (below.zipIdx k).mapM (closedRowForm kind b) := by
  have hmarks := marksHeaders_indentAt? kind b
  induction below generalizing k skip with
  | nil =>
    rw [Buffer.opensAt_eq_nil (List.drop_eq_nil_iff.1 hbelow)]
    simp [pure, Except.pure, Functor.map, Except.map]
  | cons line below ih =>
    obtain ⟨hk, hline, hnext⟩ := Buffer.row_of_drop_eq_cons hbelow
    have hrow : ∀ skip', Skips kind b (k + 1) skip' →
        (∀ indent ∈ (indentAt? kind b k).toList ++ b.opensAt (indentAt? kind b) k,
          skip' ≤ (blockBody indent below).length) →
        (brace kind (weave ((indentAt? kind b k).toList ++ b.opensAt (indentAt? kind b) k)
          (below.drop skip'))).result =
        (b.closingsAt (indentAt? kind b) k ++ ·) <$>
          (List.flatten <$> (below.zipIdx (k + 1)).mapM (closedRowForm kind b)) := by
      intro skip' hskips' hle
      have hafter := result_brace_weave_after hk (by rwa [hnext])
      rw [← List.drop_drop, hnext] at hafter
      rw [hafter, ih (k + 1) skip' hnext hskips']
    have hleftOut := hskips.isLeftOut_eq
    have hvisited : isVisited kind b k = _ := isVisited_eq k
    rw [headerAt?, hline, Option.bind_some, hleftOut] at hvisited
    rw [List.zipIdx_cons, flatten_mapM_cons]
    cases skip with
    | succ skip =>
      have hindent : indentAt? kind b k = none := by simp [indentAt?, hvisited]
      rw [hindent] at hrow
      rw [closedRowForm_of_isLeftOut (by simpa using hleftOut)]
      refine hrow skip hskips.succ_of_pos fun indent hmem => ?_
      have hlen := length_blockBody_drop_succ hmarks hmem
      have hle := hskips.le indent hmem
      rw [hnext] at hlen
      omega
    | zero =>
      rw [List.drop_zero, weave_opensAt_cons hmarks hbelow]
      cases hparse : parse? kind line with
      | none =>
        rw [hparse] at hvisited
        have hindent : indentAt? kind b k = none := by simp [indentAt?, hvisited]
        rw [hindent] at hrow
        have hrest := hrow 0 (hskips.succ_of_not_isVisited hvisited) fun _ _ => Nat.zero_le _
        rw [Option.toList_none, List.nil_append, List.drop_zero] at hrest
        rw [result_brace_cons_of_none hparse, hrest, Functor.map_map,
          closedRowForm_of_none (by simpa using hleftOut) hparse]
        rfl
      | some d =>
        rw [hparse] at hvisited
        have hindent : indentAt? kind b k = some d.indent := by
          simp [indentAt?, hvisited, headerAt?, hline, hparse]
        rw [hindent] at hrow
        have hle := liftedLength_blockLines_le hbelow hparse
        have hnextSkips : Skips kind b (k + 1) (liftedLength (b.blockLines k)) :=
          hskips.succ_of_isVisited hvisited (by rwa [hindent, hnext])
        have hrest := hrow _ hnextSkips hle
        rw [Option.toList_some, List.singleton_append] at hrest
        rw [result_brace_weave_header hbelow hparse, hrest,
          closedRowForm_of_some (by simpa using hleftOut) hparse, bind_map_left]
        refine bind_congr fun header => ?_
        rw [Functor.map_map]
        simp only [List.append_assoc]

/-- On every buffer the pass over declarations of either sort gives what the layout of the given
lines says: the same lines, or the same failure. -/
theorem result_declarations_eq_layout (kind : DeclarationKind) (b : Buffer) :
    (brace kind b.lines).result = layout kind b := by
  have h := result_brace_weave 0 0 b.lines rfl (Skips.zero kind b)
  rwa [Buffer.opensAt_zero, weave_nil_left, List.drop_zero] at h

end Declaration

end Rebrace
