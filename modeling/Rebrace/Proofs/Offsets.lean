import Mathlib
import Rebrace.Proofs.LocalSpelling

/-!
# Work at offsets of a text

The library takes texts apart by what they hold.  The same work can be done by positions: the offset
of a character is the number of bytes in front of it, texts are sliced at two offsets, and depths
and lengths are subtracted from each other.  Such a step is a *fault* at an offset that lies outside
of the text or inside a character, and where a difference would be negative.  The definitions in
the namespace `Positional` do this work and tell a fault by `none`.

For each of them a lemma says that there is no fault, and that the result is that of the library.
All of these follow from one fact: the size of the first part of a text is an offset at which the
text can be cut, `Positional.sliceFrom_append` and `Positional.slice_append`.
-/

namespace Rebrace.Positional

open Text

/-! ### Steps with a fault -/

/-- The difference of two numbers; a fault if it is negative. -/
def minus (m n : Nat) : Option Nat :=
  if n ≤ m then some (m - n) else none

/-- The product of two numbers; a fault if it exceeds the limit. -/
def times (limit m n : Nat) : Option Nat :=
  if m * n ≤ limit then some (m * n) else none

/-- The part of a text in front of an offset; a fault if no character starts there. -/
def sliceTo (t : Text) (stop : Nat) : Option Text :=
  (splitAtByte? stop t).map Prod.fst

/-- The part of a text from an offset on; a fault if no character starts there. -/
def sliceFrom (t : Text) (start : Nat) : Option Text :=
  (splitAtByte? start t).map Prod.snd

/-- The part of a text between two offsets; a fault if they are out of order or if no character
starts at one of them. -/
def slice (t : Text) (start stop : Nat) : Option Text :=
  if start ≤ stop then (sliceTo t stop).bind fun front => sliceFrom front start else none

lemma minus_eq_some {m n : Nat} (h : n ≤ m) : minus m n = some (m - n) :=
  if_pos h

@[simp] lemma minus_add_right (m n : Nat) : minus (m + n) n = some m := by
  rw [minus_eq_some (by omega), Nat.add_sub_cancel]

/-- The size of the first part of a text is an offset of the text. -/
lemma splitAtByte?_append (u v : Text) : splitAtByte? (utf8Size u) (u ++ v) = some (u, v) := by
  induction u with
  | nil => cases v <;> rfl
  | cons c u ih =>
    obtain ⟨n, hn⟩ := Nat.exists_eq_add_one_of_ne_zero c.utf8Size_pos.ne'
    have hsize : utf8Size (c :: u) = utf8Size u + n + 1 := by
      rw [utf8Size_cons, hn]
      omega
    rw [List.cons_append, hsize, splitAtByte?, if_pos (by omega),
      show utf8Size u + n + 1 - c.utf8Size = utf8Size u by omega, ih]
    rfl

/-- A text is cut at the size of its first part, and nowhere else. -/
lemma splitAtByte?_eq_some_iff {n : Nat} {t u v : Text} :
    splitAtByte? n t = some (u, v) ↔ t = u ++ v ∧ utf8Size u = n := by
  constructor
  · intro h
    fun_induction splitAtByte? n t generalizing u with
    | case1 t =>
      obtain ⟨rfl, rfl⟩ : [] = u ∧ t = v := by simpa using h
      exact ⟨rfl, rfl⟩
    | case2 => simp at h
    | case3 n c t hle ih =>
      obtain ⟨⟨front, rest⟩, hcut, hparts⟩ := Option.map_eq_some_iff.1 h
      obtain ⟨rfl, rfl⟩ : c :: front = u ∧ rest = v := by simpa using hparts
      obtain ⟨rfl, hsize⟩ := ih hcut
      exact ⟨rfl, by rw [utf8Size_cons, hsize]; omega⟩
    | case4 => simp at h
  · rintro ⟨rfl, rfl⟩
    exact splitAtByte?_append u v

/-- The two parts of a text are known by the size of the first one. -/
lemma append_inj_of_utf8Size {u u' v v' : Text} (h : u ++ v = u' ++ v')
    (hsize : utf8Size u = utf8Size u') : u = u' ∧ v = v' := by
  have hcut := splitAtByte?_append u v
  rw [h, hsize, splitAtByte?_append] at hcut
  simpa [eq_comm] using hcut

@[simp] lemma sliceTo_append (u v : Text) : sliceTo (u ++ v) (utf8Size u) = some u := by
  simp [sliceTo, splitAtByte?_append]

@[simp] lemma sliceFrom_append (u v : Text) : sliceFrom (u ++ v) (utf8Size u) = some v := by
  simp [sliceFrom, splitAtByte?_append]

/-- A part of a text can be sliced out. -/
lemma slice_append (u v w : Text) :
    slice (u ++ (v ++ w)) (utf8Size u) (utf8Size (u ++ v)) = some v := by
  rw [slice, if_pos (by simp), ← List.append_assoc, sliceTo_append, Option.bind_some,
    sliceFrom_append]

/-- What is sliced out of a text is a part of it between two offsets. -/
lemma slice_eq_some_iff {t part : Text} {start stop : Nat} :
    slice t start stop = some part ↔
      ∃ u w, t = u ++ (part ++ w) ∧ utf8Size u = start ∧ utf8Size (u ++ part) = stop := by
  constructor
  · intro h
    rw [slice] at h
    split at h
    · obtain ⟨front, hfront, hpart⟩ := Option.bind_eq_some_iff.1 h
      obtain ⟨⟨front, w⟩, hcutStop, rfl⟩ := Option.map_eq_some_iff.1 hfront
      obtain ⟨⟨u, part⟩, hcutStart, rfl⟩ := Option.map_eq_some_iff.1 hpart
      obtain ⟨rfl, hstop⟩ := splitAtByte?_eq_some_iff.1 hcutStop
      obtain ⟨rfl, hstart⟩ := splitAtByte?_eq_some_iff.1 hcutStart
      exact ⟨u, w, List.append_assoc .., hstart, hstop⟩
    · simp at h
  · rintro ⟨u, w, rfl, rfl, rfl⟩
    exact slice_append u part w

/-- A text can be sliced behind a character of one byte. -/
lemma sliceFrom_append_cons {c : Char} (hc : c.utf8Size = 1) (u v : Text) :
    sliceFrom (u ++ c :: v) (utf8Size u + 1) = some v := by
  have hslice := sliceFrom_append (u ++ [c]) v
  rwa [utf8Size_append, utf8Size_cons, hc, utf8Size_nil, List.append_assoc,
    List.singleton_append] at hslice

/-- The spaces in front of a text, counted by the size of what follows them. -/
def leadingSpaces (line : Text) : Option Nat :=
  minus (utf8Size line) (utf8Size (line.dropWhile (· == ' ')))

/-- Each space is one byte. -/
lemma utf8Size_eq_length {t : Text} (h : ∀ c ∈ t, c = ' ') : utf8Size t = t.length := by
  induction t with
  | nil => rfl
  | cons c t ih =>
    rw [List.forall_mem_cons] at h
    have hc : c.utf8Size = 1 := by rw [h.1]; rfl
    rw [utf8Size_cons, ih h.2, hc, List.length_cons, Nat.add_comm]

@[simp] lemma leadingSpaces_eq (line : Text) :
    leadingSpaces line = some (Text.leadingSpaces line) := by
  have hsize : utf8Size line =
      Text.leadingSpaces line + utf8Size (line.dropWhile (· == ' ')) := by
    conv_lhs => rw [← List.takeWhile_append_dropWhile (p := (· == ' ')) (l := line)]
    rw [utf8Size_append, utf8Size_eq_length fun c hc => by simpa using List.mem_takeWhile_imp hc]
    rfl
  rw [leadingSpaces, hsize, minus_add_right]

/-! ### Failures and faults -/

/-- A computation that may fail, and in which there may be a fault. -/
abbrev Checked (α : Type) : Type :=
  ExceptT Error Option α

/-- A computation without a fault. -/
def total {α : Type} (x : Except Error α) : Checked α :=
  ExceptT.mk (some x)

section Total

variable {α β : Type}

lemma pure_eq_total (a : α) : (pure a : Checked α) = total (.ok a) := rfl

lemma throw_eq_total (e : Error) : (throw e : Checked α) = total (.error e) := rfl

lemma lift_some (a : α) : (liftM (some a) : Checked α) = total (.ok a) := rfl

/-- After a computation without a fault, nothing but its result matters. -/
lemma total_bind (x : Except Error α) (f : α → Checked β) :
    total x >>= f =
      match x with
      | .ok a => f a
      | .error e => total (.error e) := by
  cases x <;> rfl

/-- Two steps without a fault are one. -/
lemma total_bind_total (x : Except Error α) (f : α → Except Error β) :
    (total x >>= fun a => total (f a)) = total (x >>= f) := by
  cases x <;> rfl

lemma map_total (x : Except Error α) (f : α → β) : f <$> total x = total (f <$> x) := by
  cases x <;> rfl

/-- Steps without a fault can be made one after the other. -/
lemma mapM_eq_total {f : α → Checked β} {g : α → Except Error β} {l : List α}
    (h : ∀ a ∈ l, f a = total (g a)) : l.mapM f = total (l.mapM g) := by
  induction l with
  | nil => rfl
  | cons a l ih =>
    rw [List.forall_mem_cons] at h
    rw [List.mapM_cons, List.mapM_cons, h.1, ih h.2]
    simp only [pure_eq_total, total_bind_total]
    rfl

end Total

/-! ### Brackets -/

/-- The offset of the first `c` in a text. -/
def offsetOf? (c : Char) (t : Text) : Option Nat :=
  (cutAtChar? c t).map fun parts => utf8Size parts.1

/-- The offset of the bracket that closes the last of `depth` open ones, in a text that starts at
`offset`. -/
def closingFrom (pair : BracketPair) : (depth offset : Nat) → Text → Option (Option Nat)
  | _, _, [] => some none
  | depth, offset, c :: t =>
    if c = pair.opener then closingFrom pair (depth + 1) (offset + c.utf8Size) t
    else if c = pair.closer then do
      let depth ← minus depth 1
      if depth = 0 then some (some offset)
      else closingFrom pair depth (offset + c.utf8Size) t
    else closingFrom pair depth (offset + c.utf8Size) t

/-- The offset of the bracket that closes the one at `index`. -/
def matchingBracket (text : Text) (index : Nat) : Checked Nat :=
  match ((sliceFrom text index).bind List.head?).bind BracketPair.ofOpener? with
  | none => throw (.noBracketFound text)
  | some pair => do
    let rest ← sliceFrom text index
    match ← closingFrom pair 0 index rest with
    | some offset => return offset
    | none => throw (.unmatchedBracket text index)

/-- The offsets of the first `[` of a text and of the `]` that closes it.  With `atEnd`, the closing
bracket has to be the last character. -/
def firstSpan (text : Text) (atEnd : Bool) : Checked (Nat × Nat) :=
  match offsetOf? '[' text with
  | none => throw (.noBracketFound text)
  | some start => do
    let stop ← matchingBracket text start
    if atEnd then
      let last ← minus (utf8Size text) 1
      if stop ≠ last then throw (.trailingContent text)
    return (start, stop)

/-- As long as a bracket is open, the depth can be counted down. -/
lemma closingFrom_succ (pair : BracketPair) (depth offset : Nat) (t : Text) :
    closingFrom pair (depth + 1) offset t =
      some ((pair.enclosed? depth t).map fun parts => offset + utf8Size parts.1) := by
  induction t generalizing depth offset with
  | nil => rfl
  | cons c t ih =>
    have hstep : ∀ depth, closingFrom pair (depth + 1) (offset + c.utf8Size) t =
        some (((pair.enclosed? depth t).map fun parts => (c :: parts.1, parts.2)).map
          fun parts => offset + utf8Size parts.1) := by
      intro depth
      rw [ih, Option.map_map]
      simp only [Function.comp_def, utf8Size_cons, Nat.add_assoc]
    rw [closingFrom, BracketPair.enclosed?.eq_def]
    by_cases hopen : c = pair.opener
    · simp only [if_pos hopen]
      exact hstep (depth + 1)
    · by_cases hclose : c = pair.closer
      · simp only [if_neg hopen, if_pos hclose, minus_add_right]
        cases depth with
        | zero => simp
        | succ depth => exact hstep depth
      · simp only [if_neg hopen, if_neg hclose]
        exact hstep depth

/-- The partner of a bracket is found without a fault. -/
lemma matchingBracket_eq (text : Text) (index : Nat) :
    matchingBracket text index = total (Rebrace.matchingBracket text index) := by
  unfold matchingBracket Rebrace.matchingBracket sliceFrom
  cases splitAtByte? index text with
  | none => rfl
  | some parts =>
    obtain ⟨before, rest⟩ := parts
    cases rest with
    | nil => rfl
    | cons c rest =>
      simp only [Option.map_some, Option.bind_some, List.head?_cons]
      cases hpair : BracketPair.ofOpener? c with
      | none => rfl
      | some pair =>
        have hopen : c = pair.opener := by
          unfold BracketPair.ofOpener? at hpair
          have hfound := List.find?_some hpair
          exact (beq_iff_eq.1 hfound).symm
        have hclosing : closingFrom pair 0 index (c :: rest) =
            some ((pair.enclosed? 0 rest).map
              fun parts => index + c.utf8Size + utf8Size parts.1) := by
          rw [closingFrom, if_pos hopen, closingFrom_succ]
        simp only [lift_some, total_bind, hclosing]
        cases pair.enclosed? 0 rest with
        | none => rfl
        | some parts => rfl

/-- The first pair of square brackets is found without a fault. -/
lemma firstSpan_eq (text : Text) (atEnd : Bool) :
    firstSpan text atEnd =
      total ((fun span => (span.openOffset, span.closeOffset)) <$>
        BracketSpan.first text atEnd) := by
  unfold firstSpan BracketSpan.first offsetOf?
  cases hcut : cutAtChar? '[' text with
  | none => rfl
  | some parts =>
    obtain ⟨before, rest⟩ := parts
    obtain ⟨rfl, -⟩ := cutAtChar?_eq_some hcut
    have hopener : BracketPair.ofOpener? '[' = some BracketPair.square := by decide
    simp only [Option.map_some, matchingBracket_eq, Rebrace.matchingBracket, splitAtByte?_append,
      hopener]
    cases hinner : BracketPair.square.enclosed? 0 rest with
    | none => rfl
    | some parts =>
      obtain ⟨inner, after⟩ := parts
      obtain rfl := BracketPair.enclosed?_eq_some hinner
      simp only [total_bind]
      cases atEnd with
      | false => rfl
      | true =>
        have hsize : utf8Size (before ++ '[' :: (inner ++ BracketPair.square.closer :: after)) =
            utf8Size before + '['.utf8Size + utf8Size inner + utf8Size after + 1 := by
          have hcloser : BracketPair.square.closer.utf8Size = 1 := rfl
          simp only [utf8Size_append, utf8Size_cons, hcloser]
          omega
        simp only [hsize, minus_add_right, lift_some, total_bind, ↓reduceIte]
        cases after with
        | nil =>
          rw [if_neg (by simp)]
          rfl
        | cons c after =>
          have hpos := c.utf8Size_pos
          rw [if_pos (by rw [utf8Size_cons]; omega)]
          rfl

/-- The text between the brackets of a span. -/
lemma slice_of_first {text : Text} {atEnd : Bool} {span : BracketSpan}
    (h : BracketSpan.first text atEnd = .ok span) :
    sliceTo text span.openOffset = some span.before ∧
      slice text (span.openOffset + 1) span.closeOffset = some span.inner := by
  have htext : text = span.before ++ ('[' :: (span.inner ++ ']' :: span.after)) :=
    (BracketSpan.text_of_first h).symm
  constructor
  · rw [htext]
    exact sliceTo_append _ _
  · have hslice := slice_append (span.before ++ ['[']) span.inner (']' :: span.after)
    have hopen : utf8Size (span.before ++ ['[']) = span.openOffset + 1 := by
      rw [utf8Size_append]
      rfl
    have hclose : utf8Size (span.before ++ ['['] ++ span.inner) = span.closeOffset := by
      rw [utf8Size_append, hopen]
      rfl
    rw [hopen, hclose] at hslice
    rw [htext]
    simpa using hslice

/-! ### Splitting -/

/-- The last piece of a text, unless it is blank. -/
def lastPiece (text : Text) (start : Nat) : Option (List Text) :=
  (sliceFrom text start).map fun piece => if isBlank piece then [] else [piece]

lemma utf8Size_pos_of_ne_nil {t : Text} (h : t ≠ []) : 0 < utf8Size t := by
  cases t with
  | nil => exact absurd rfl h
  | cons c t =>
    have hpos := c.utf8Size_pos
    rw [utf8Size_cons]
    omega

lemma utf8Size_pos_of_cut {p : Bool} {delimiter t : Text}
    (h : (p && !delimiter.isEmpty && startsWith delimiter t) = true) : 0 < utf8Size delimiter := by
  refine utf8Size_pos_of_ne_nil ?_
  rintro rfl
  simp at h

/-- The pieces of a text between the delimiters outside of a pair of brackets, where the scanner is
in state `s` at the offset `i`, and the piece that it is in starts at the offset `start`. -/
def splitFrom (pair : BracketPair) (delimiter text : Text) (s : Scan) (start i : Nat) :
    Option (List Text) :=
  if i < utf8Size text then
    (sliceFrom text i).bind fun rest =>
      match rest with
      | [] => lastPiece text start
      | c :: _ =>
        if hcut : s.exposes pair.nest c && !delimiter.isEmpty && startsWith delimiter rest then
          have := utf8Size_pos_of_cut hcut
          (slice text start i).bind fun piece =>
            (splitFrom pair delimiter text s (i + utf8Size delimiter) (i + utf8Size delimiter)).map
              (piece :: ·)
        else splitFrom pair delimiter text (s.next pair.nest c) start (i + c.utf8Size)
  else lastPiece text start
termination_by utf8Size text - i
decreasing_by
  · omega
  · have hpos := c.utf8Size_pos
    omega

/-- The pieces of a text between the delimiters outside of a pair of brackets. -/
def split (pair : BracketPair) (delimiter text : Text) : Option (List Text) :=
  splitFrom pair delimiter text {} 0 0

/-- The pieces of `split`, each without the white space at its ends. -/
def splitTrim (pair : BracketPair) (delimiter text : Text) : Option (List Text) :=
  (split pair delimiter text).map (·.map trim)

/-- With a piece in front, the last piece is dropped as before. -/
lemma dropBlankLast_cons (t u : Text) (ts : List Text) :
    dropBlankLast (t :: u :: ts) = t :: dropBlankLast (u :: ts) := rfl

/-- A text is split without a fault, wherever the scanner stands: it has read `u` and the part `v`
of the next piece. -/
lemma splitFrom_eq (pair : BracketPair) (delimiter : Text) (s : Scan) (u v w : Text) :
    splitFrom pair delimiter (u ++ (v ++ w)) s (utf8Size u) (utf8Size (u ++ v)) =
      some (dropBlankLast ((v ++ (pair.cutFrom delimiter s 0 w).1) ::
        (pair.cutFrom delimiter s 0 w).2)) := by
  have hlast : ∀ u v : Text, lastPiece (u ++ v) (utf8Size u) = some (dropBlankLast [v]) := by
    intro u v
    rw [lastPiece, sliceFrom_append]
    rfl
  induction hn : w.length using Nat.strong_induction_on generalizing s u v w with
  | _ n ih =>
    rw [splitFrom]
    cases w with
    | nil =>
      rw [if_neg (by simp), hlast]
      rfl
    | cons c w =>
      have hrest : sliceFrom (u ++ (v ++ c :: w)) (utf8Size (u ++ v)) = some (c :: w) := by
        rw [← List.append_assoc, sliceFrom_append]
      have hpos := c.utf8Size_pos
      rw [if_pos (by simp; omega), hrest, Option.bind_some]
      dsimp only
      by_cases hcut : (s.exposes pair.nest c && !delimiter.isEmpty &&
          startsWith delimiter (c :: w)) = true
      · -- The delimiter ends a piece, and the next one starts behind it.
        obtain ⟨rest, hstrip⟩ := Option.isSome_iff_exists.1 (Bool.and_eq_true_iff.1 hcut).2
        rw [strip?_eq_some_iff] at hstrip
        obtain ⟨tail, rfl⟩ : ∃ tail, delimiter = c :: tail := by
          cases delimiter with
          | nil => simp at hcut
          | cons d tail => exact ⟨tail, by rw [(List.cons.inj hstrip).1]⟩
        obtain rfl : w = tail ++ rest := (List.cons.inj hstrip).2
        have hnext := ih rest.length (by simp at hn; omega) s (u ++ (v ++ c :: tail)) [] rest rfl
        have hexposes : s.exposes pair.nest c = true := by
          simp only [Bool.and_eq_true] at hcut
          exact hcut.1.1
        rw [dif_pos hcut, slice_append, Option.bind_some,
          BracketPair.cutFrom_delimiter_append hexposes, dropBlankLast_cons]
        simp only [List.append_assoc, List.cons_append, List.nil_append, List.append_nil,
          utf8Size_append, Nat.add_assoc] at hnext ⊢
        rw [hnext]
        rfl
      · -- The character belongs to the piece.
        have hnext := ih w.length (by simp at hn; omega) (s.next pair.nest c) u (v ++ [c]) w rfl
        rw [dif_neg hcut, BracketPair.cutFrom, if_neg hcut]
        simpa [Nat.add_assoc] using hnext

/-- A text is split without a fault. -/
@[simp] lemma split_eq (pair : BracketPair) (delimiter text : Text) :
    split pair delimiter text = some (pair.split delimiter text) :=
  splitFrom_eq pair delimiter {} [] [] text

@[simp] lemma splitTrim_eq (pair : BracketPair) (delimiter text : Text) :
    splitTrim pair delimiter text = some (pair.splitTrim delimiter text) := by
  simp [splitTrim, BracketPair.splitTrim]

/-! ### Separators at the top level -/

/-- The exposed characters of a text with their offsets, where the scanner is in state `s` at the
offset of the first character. -/
def exposedFrom : (s : Scan) → (offset : Nat) → Text → List (Nat × Char)
  | _, _, [] => []
  | s, offset, c :: t =>
    let rest := exposedFrom (s.next nestAll c) (offset + c.utf8Size) t
    if s.exposes nestAll c then (offset, c) :: rest else rest

/-- The pieces of a text between the separators among some characters with their offsets, where the
first piece starts at the offset `start`. -/
def splitTopFrom (separator : Char) (text : Text) :
    (start : Nat) → List (Nat × Char) → Option (List Text)
  | start, [] => (lastPiece text start).map (·.map trim)
  | start, (i, c) :: chars =>
    if c = separator then
      (slice text start i).bind fun piece =>
        (splitTopFrom separator text (i + c.utf8Size) chars).map (trim piece :: ·)
    else splitTopFrom separator text start chars

/-- The pieces of a text between its exposed separators. -/
def splitTop (separator : Char) (text : Text) : Option (List Text) :=
  splitTopFrom separator text 0 (exposedFrom {} 0 text)

/-- The offset of the colon that ends a header. -/
def headerColon? (text : Text) : Option Nat :=
  ((exposedFrom {} 0 text).find? fun entry => entry.2 == ':').map Prod.fst

lemma splitTopFrom_eq (separator : Char) (s : Scan) (u v w : Text) :
    splitTopFrom separator (u ++ (v ++ w)) (utf8Size u) (exposedFrom s (utf8Size (u ++ v)) w) =
      some ((dropBlankLast ((v ++ (cutTopFrom separator s w).1) ::
        (cutTopFrom separator s w).2)).map trim) := by
  induction w generalizing s u v with
  | nil =>
    rw [exposedFrom, splitTopFrom, lastPiece, sliceFrom_append]
    rfl
  | cons c w ih =>
    have hpassed := ih (s.next nestAll c) u (v ++ [c])
    have hoffset : utf8Size (u ++ (v ++ [c])) = utf8Size (u ++ v) + c.utf8Size := by
      simp [Nat.add_assoc]
    rw [hoffset] at hpassed
    simp only [List.append_assoc, List.singleton_append] at hpassed
    rw [exposedFrom, cutTopFrom]
    cases hexposes : s.exposes nestAll c with
    | false => exact hpassed
    | true =>
      by_cases hc : c = separator
      · have hnext := ih (s.next nestAll c) (u ++ (v ++ [c])) []
        rw [List.append_nil, hoffset] at hnext
        simp only [List.append_assoc, List.singleton_append, List.nil_append] at hnext
        simp only [↓reduceIte, splitTopFrom, if_pos hc, slice_append, Option.bind_some, hnext]
        simp [hc, dropBlankLast_cons]
      · simp only [↓reduceIte, splitTopFrom, if_neg hc, hpassed]
        simp [hc]

/-- A list is split without a fault. -/
@[simp] lemma splitTop_eq (separator : Char) (text : Text) :
    splitTop separator text = some (Rebrace.splitTop separator text) :=
  splitTopFrom_eq separator {} [] [] text

/-- The offset of the colon that ends a header is the size of what stands in front of it. -/
lemma headerColon?_eq (text : Text) :
    headerColon? text = (cutHeaderColon? text).map fun parts => utf8Size parts.1 := by
  have hfrom : ∀ (previous : Option Char) (s : Scan) (offset : Nat),
      ((exposedFrom s offset text).find? fun entry => entry.2 == ':').map Prod.fst =
        (cutExposedFrom? (fun _ c _ => c == ':') previous s text).map
          fun parts => offset + utf8Size parts.1 := by
    induction text with
    | nil => exact fun _ _ _ => rfl
    | cons c t ih =>
      intro previous s offset
      have hnext := ih (some c) (s.next nestAll c) (offset + c.utf8Size)
      rw [exposedFrom, cutExposedFrom?]
      cases hexposes : s.exposes nestAll c with
      | false => simpa [Option.map_map, Function.comp_def, Nat.add_assoc] using hnext
      | true =>
        cases hc : c == ':' with
        | false =>
          simpa [hc, Option.map_map, Function.comp_def, Nat.add_assoc] using hnext
        | true => simp [hc]
  have h := hfrom none {} 0
  simp only [Nat.zero_add] at h
  exact h

/-- A text is cut at a character at which the search stops. -/
lemma exists_stop_of_cutExposedFrom? {stop : Option Char → Char → Option Char → Bool}
    {previous : Option Char} {s : Scan} {t before after : Text}
    (h : cutExposedFrom? stop previous s t = some (before, after)) :
    ∃ c, t = before ++ c :: after ∧ ∃ previous following, stop previous c following = true := by
  induction t generalizing previous s before with
  | nil => cases h
  | cons c t ih =>
    rw [cutExposedFrom?] at h
    split at h
    · rename_i hstop
      cases h
      exact ⟨c, rfl, previous, after.head?, (Bool.and_eq_true_iff.1 hstop).2⟩
    · obtain ⟨parts, hcut, hparts⟩ := Option.map_eq_some_iff.1 h
      cases hparts
      obtain ⟨d, hd, hstop⟩ := ih hcut
      exact ⟨d, by rw [hd]; rfl, hstop⟩

/-- A header can be sliced at the colon that ends it. -/
lemma slice_of_cutHeaderColon? {text before after : Text}
    (h : cutHeaderColon? text = some (before, after)) :
    sliceTo text (utf8Size before) = some before ∧
      sliceFrom text (utf8Size before + 1) = some after := by
  obtain ⟨c, rfl, -, -, hstop⟩ := exists_stop_of_cutExposedFrom? h
  obtain rfl := beq_iff_eq.1 hstop
  exact ⟨sliceTo_append _ _, sliceFrom_append_cons rfl _ _⟩

/-! ### The separator of a default value -/

/-- The bytes of a text. -/
def bytes (t : Text) : List UInt8 :=
  t.flatMap String.utf8EncodeChar

/-- The byte of a character in ASCII. -/
def asciiByte (c : Char) : UInt8 :=
  UInt8.ofNat c.toNat

/-- The byte in front of an index, and a space in front of the first one. -/
def byteBefore (bytes : List UInt8) (i : Nat) : Option UInt8 :=
  if 0 < i then (minus i 1).bind fun j => bytes[j]? else some (asciiByte ' ')

/-- Does the `=` at an index stand alone, and not in `==`, `!=`, `<=` or `>=`? -/
def isLoneAt (bytes : List UInt8) (i : Nat) : Option Bool :=
  (byteBefore bytes i).map fun previous =>
    !(previous == asciiByte '=' || previous == asciiByte '!' || previous == asciiByte '<'
      || previous == asciiByte '>') && bytes[i + 1]?.getD (asciiByte ' ') != asciiByte '='

/-- The first of some offsets at which an `=` stands alone. -/
def firstLone (bytes : List UInt8) : List Nat → Option (Option Nat)
  | [] => some none
  | i :: offsets =>
    (isLoneAt bytes i).bind fun lone =>
      if lone then some (some i) else firstLone bytes offsets

/-- The offset of the `=` in front of a default value. -/
def defaultSeparator (text : Text) : Option (Option Nat) :=
  firstLone (bytes text)
    (((exposedFrom {} 0 text).filter fun entry => entry.2 == '=').map Prod.fst)

@[simp] lemma bytes_nil : bytes [] = [] := rfl

@[simp] lemma bytes_cons (c : Char) (t : Text) :
    bytes (c :: t) = String.utf8EncodeChar c ++ bytes t := rfl

@[simp] lemma bytes_append (s t : Text) : bytes (s ++ t) = bytes s ++ bytes t :=
  List.flatMap_append

@[simp] lemma length_bytes (t : Text) : (bytes t).length = utf8Size t := by
  induction t with
  | nil => rfl
  | cons c t ih => simp [ih]

/-- The bytes of a character beyond ASCII lie beyond ASCII. -/
lemma le_toNat_of_mem_utf8EncodeChar {c : Char} (hc : 127 < c.toNat) {b : UInt8}
    (hb : b ∈ String.utf8EncodeChar c) : 127 < b.toNat := by
  have hbeyond : ∀ n : Nat, 127 < n % 256 → 127 < (UInt8.ofNat n).toNat := by
    intro n hn
    rwa [UInt8.toNat_ofNat']
  change 127 < c.val.toNat at hc
  simp only [String.utf8EncodeChar, if_neg (Nat.not_le.2 hc)] at hb
  split at hb
  · simp only [List.mem_cons, List.not_mem_nil, or_false] at hb
    rcases hb with rfl | rfl <;> exact hbeyond _ (by omega)
  · split at hb
    · simp only [List.mem_cons, List.not_mem_nil, or_false] at hb
      rcases hb with rfl | rfl | rfl <;> exact hbeyond _ (by omega)
    · simp only [List.mem_cons, List.not_mem_nil, or_false] at hb
      rcases hb with rfl | rfl | rfl | rfl <;> exact hbeyond _ (by omega)

/-- A character of ASCII is known by each of its bytes. -/
lemma eq_asciiByte_iff {a c : Char} (ha : a.toNat ≤ 127) {b : UInt8}
    (hb : b ∈ String.utf8EncodeChar c) : b = asciiByte a ↔ c = a := by
  have hascii : (asciiByte a).toNat = a.toNat := by
    rw [asciiByte, UInt8.toNat_ofNat']
    omega
  by_cases hc : c.toNat ≤ 127
  · change c.val.toNat ≤ 127 at hc
    rw [String.utf8EncodeChar, if_pos hc, List.mem_singleton] at hb
    rw [← UInt8.toNat_inj, hascii, hb, UInt8.toNat_ofNat', ← Char.toNat_inj]
    change c.val.toNat % 256 = _ ↔ c.val.toNat = _
    rw [Nat.mod_eq_of_lt (by omega)]
  · have hbeyond := le_toNat_of_mem_utf8EncodeChar (by omega) hb
    constructor
    · rintro rfl
      omega
    · rintro rfl
      omega

/-- The bytes of a text that belong to one of its characters. -/
lemma exists_getElem?_bytes (u : Text) (c : Char) (v : Text) {i : Nat} (hi : i < c.utf8Size) :
    ∃ b ∈ String.utf8EncodeChar c, (bytes (u ++ c :: v))[utf8Size u + i]? = some b := by
  have hlength : i < (String.utf8EncodeChar c).length := by rwa [String.length_utf8EncodeChar]
  refine ⟨(String.utf8EncodeChar c)[i], List.getElem_mem hlength, ?_⟩
  rw [bytes_append, List.getElem?_append_right (by simp), length_bytes, Nat.add_sub_cancel_left,
    bytes_cons, List.getElem?_append_left hlength, List.getElem?_eq_getElem hlength]

/-- Whether an `=` stands alone can be seen from the bytes around it. -/
lemma isLoneAt_eq (u w : Text) :
    isLoneAt (bytes (u ++ '=' :: w)) (utf8Size u) =
      some (isLoneEquals u.getLast? '=' w.head?) := by
  have hknown : ∀ {a c : Char}, a.toNat ≤ 127 → ∀ {b}, b ∈ String.utf8EncodeChar c →
      (b == asciiByte a) = (c == a) := by
    intro a c ha b hb
    rw [Bool.eq_iff_iff, beq_iff_eq, beq_iff_eq, eq_asciiByte_iff ha hb]
  have hfollowing : ((bytes (u ++ '=' :: w))[utf8Size u + 1]?.getD (asciiByte ' ') !=
      asciiByte '=') = (w.head? != some '=') := by
    cases w with
    | nil =>
      rw [List.getElem?_eq_none (by simp [show '='.utf8Size = 1 from rfl])]
      decide
    | cons c w =>
      obtain ⟨b, hb, hget⟩ := exists_getElem?_bytes (u ++ ['=']) c w c.utf8Size_pos
      have hsize : utf8Size (u ++ ['=']) + 0 = utf8Size u + 1 := by rw [utf8Size_append]; rfl
      rw [hsize, List.append_assoc, List.singleton_append] at hget
      rw [hget, Option.getD_some, bne, hknown (by decide) hb]
      rfl
  unfold isLoneAt isLoneEquals byteBefore
  rw [hfollowing]
  rcases List.eq_nil_or_concat' u with rfl | ⟨u, c, rfl⟩
  · rfl
  · have hpos := c.utf8Size_pos
    obtain ⟨b, hb, hget⟩ := exists_getElem?_bytes u c ('=' :: w) (Nat.sub_one_lt hpos.ne')
    have hsize : utf8Size (u ++ [c]) = utf8Size u + c.utf8Size := by simp
    have hminus : minus (utf8Size (u ++ [c])) 1 = some (utf8Size u + (c.utf8Size - 1)) := by
      rw [minus_eq_some (by omega), hsize, Nat.add_sub_assoc hpos]
    rw [if_pos (by omega), hminus, Option.bind_some, List.append_assoc, List.singleton_append, hget,
      Option.map_some, hknown (by decide) hb, hknown (by decide) hb, hknown (by decide) hb,
      hknown (by decide) hb]
    simp

/-- The `=` in front of a default value is found without a fault. -/
lemma defaultSeparator_eq (text : Text) :
    defaultSeparator text = some ((cutDefault? text).map fun parts => utf8Size parts.1) := by
  have hfrom : ∀ (s : Scan) (u w : Text),
      firstLone (bytes (u ++ w))
          (((exposedFrom s (utf8Size u) w).filter fun entry => entry.2 == '=').map Prod.fst) =
        some ((cutExposedFrom? isLoneEquals u.getLast? s w).map
          fun parts => utf8Size u + utf8Size parts.1) := by
    intro s u w
    induction w generalizing s u with
    | nil => rfl
    | cons c w ih =>
      have hnext := ih (s.next nestAll c) (u ++ [c])
      simp only [List.append_assoc, List.singleton_append, utf8Size_append, utf8Size_cons,
        utf8Size_nil, Nat.add_zero, List.getLast?_concat] at hnext
      rw [exposedFrom, cutExposedFrom?]
      cases hexposes : s.exposes nestAll c with
      | false => simpa [Option.map_map, Function.comp_def, Nat.add_assoc] using hnext
      | true =>
        by_cases hc : c = '='
        · subst hc
          simp only [↓reduceIte, List.filter_cons, BEq.rfl, List.map_cons, firstLone, isLoneAt_eq,
            Option.bind_some, Bool.true_and]
          cases hlone : isLoneEquals u.getLast? '=' w.head? with
          | true => rfl
          | false => simpa [Option.map_map, Function.comp_def, Nat.add_assoc] using hnext
        · have hlone : isLoneEquals u.getLast? c w.head? = false := by simp [isLoneEquals, hc]
          simpa [hc, hlone, Option.map_map, Function.comp_def, Nat.add_assoc] using hnext
  have h := hfrom {} [] text
  simp only [utf8Size_nil, Nat.zero_add] at h
  exact h

/-- A parameter can be sliced at the `=` in front of its default value. -/
lemma slice_of_cutDefault? {text head value : Text} (h : cutDefault? text = some (head, value)) :
    sliceTo text (utf8Size head) = some head ∧
      sliceFrom text (utf8Size head + 1) = some value := by
  obtain ⟨c, rfl, previous, following, hstop⟩ := exists_stop_of_cutExposedFrom? h
  have hc : c = '=' := by
    simp only [isLoneEquals, Bool.and_eq_true, beq_iff_eq] at hstop
    exact hstop.1.1
  rw [hc]
  exact ⟨sliceTo_append _ _, sliceFrom_append_cons rfl _ _⟩

/-- A text can be sliced at the first place of a character of one byte. -/
lemma slice_of_cutAtChar? {c : Char} (hc : c.utf8Size = 1) {text before after : Text}
    (h : cutAtChar? c text = some (before, after)) :
    sliceTo text (utf8Size before) = some before ∧
      sliceFrom text (utf8Size before + 1) = some after := by
  obtain ⟨rfl, -⟩ := cutAtChar?_eq_some h
  exact ⟨sliceTo_append _ _, sliceFrom_append_cons hc _ _⟩

end Rebrace.Positional
