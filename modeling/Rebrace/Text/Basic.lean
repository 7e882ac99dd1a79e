import Rebrace.Text.White

/-!
# Texts

A text is the list of its characters.  Positions in it are counted in bytes of its UTF-8 form, and
only spaces count as indentation.  What can be done with a text is what every reader and writer of
lines needs: trimming white space, cutting at a character or behind a start, erasing a part, and
joining texts with a separator.
-/

namespace Rebrace

/-- A text is the list of its characters. -/
abbrev Text := List Char

instance : Coe String Text := ⟨String.toList⟩

namespace Text

/-! ### Size and offsets

Positions inside a text are counted in bytes of its UTF-8 form: the offset of a character is the
size of the text before it. -/

/-- The number of bytes of a text in UTF-8. -/
def utf8Size : Text → Nat
  | [] => 0
  | c :: t => c.utf8Size + utf8Size t

@[simp] theorem utf8Size_nil : utf8Size [] = 0 := rfl

@[simp] theorem utf8Size_cons (c : Char) (t : Text) :
    utf8Size (c :: t) = c.utf8Size + utf8Size t := rfl

@[simp] theorem utf8Size_append (s t : Text) : utf8Size (s ++ t) = utf8Size s + utf8Size t := by
  induction s with
  | nil => simp
  | cons c s ih => simp [ih, Nat.add_assoc]

/-- The parts of a text before and from byte offset `n`, when `n` is the offset of one of its
characters or of its end. -/
def splitAtByte? : Nat → Text → Option (Text × Text)
  | 0, t => some ([], t)
  | _ + 1, [] => none
  | n + 1, c :: t =>
    if c.utf8Size ≤ n + 1 then
      (splitAtByte? (n + 1 - c.utf8Size) t).map fun parts => (c :: parts.1, parts.2)
    else none

/-! ### White space at the ends -/

/-- The text without the white space it starts with. -/
def trimStart (t : Text) : Text :=
  t.dropWhile isWhite

/-- The text without the white space it ends with. -/
def trimEnd (t : Text) : Text :=
  (t.reverse.dropWhile isWhite).reverse

/-- The text without the white space at both ends. -/
def trim (t : Text) : Text :=
  trimEnd (trimStart t)

/-- A text is blank when it holds white space only. -/
def isBlank (t : Text) : Bool :=
  t.all isWhite

theorem length_trimStart_le (t : Text) : (trimStart t).length ≤ t.length :=
  (List.dropWhile_sublist isWhite).length_le

theorem length_trimEnd_le (t : Text) : (trimEnd t).length ≤ t.length := by
  simpa [trimEnd] using (List.dropWhile_sublist isWhite (l := t.reverse)).length_le

theorem length_trim_le (t : Text) : (trim t).length ≤ t.length :=
  Nat.le_trans (length_trimEnd_le _) (length_trimStart_le t)

/-! ### Indentation

Only the space character counts as indentation; a tab or any other white space ends it. -/

/-- The number of spaces a text starts with. -/
def leadingSpaces (t : Text) : Nat :=
  (t.takeWhile (· == ' ')).length

/-- The text of `n` spaces. -/
def spaces (n : Nat) : Text :=
  List.replicate n ' '

/-! ### Searching -/

/-- What follows `start` in a text that begins with it. -/
def strip? : (start : Text) → Text → Option Text
  | [], t => some t
  | _ :: _, [] => none
  | s :: start, c :: t => if s = c then strip? start t else none

/-- What precedes `tail` in a text that ends with it. -/
def stripEnd? (tail t : Text) : Option Text :=
  (strip? tail.reverse t.reverse).map List.reverse

/-- Does the text begin with `start`? -/
def startsWith (start t : Text) : Bool :=
  (strip? start t).isSome

/-- Does `part` occur somewhere in the text? -/
def contains (part : Text) : Text → Bool
  | [] => part.isEmpty
  | c :: t => startsWith part (c :: t) || contains part t

/-- The text without the occurrences of `part`, found from left to right and apart from each
other; `skip` characters of an occurrence are still to be passed over. -/
def eraseFrom (part : Text) : (skip : Nat) → Text → Text
  | _, [] => []
  | skip + 1, _ :: t => eraseFrom part skip t
  | 0, c :: t =>
    if startsWith part (c :: t) then eraseFrom part (part.length - 1) t
    else c :: eraseFrom part 0 t

/-- The text without the occurrences of the non-empty `part`. -/
def erase (part t : Text) : Text :=
  eraseFrom part 0 t

/-- The parts of a text before and after its first `c`. -/
def cutAtChar? (c : Char) : Text → Option (Text × Text)
  | [] => none
  | d :: t =>
    if d = c then some ([], t)
    else (cutAtChar? c t).map fun parts => (d :: parts.1, parts.2)

theorem strip?_eq_some_iff {start t rest : Text} :
    strip? start t = some rest ↔ t = start ++ rest := by
  induction start generalizing t with
  | nil => simp [strip?, eq_comm]
  | cons s start ih =>
    cases t with
    | nil => simp [strip?]
    | cons c t =>
      by_cases h : s = c
      · simp [strip?, h, ih]
      · simp [strip?, h, Ne.symm h]

theorem stripEnd?_eq_some_iff {tail t rest : Text} :
    stripEnd? tail t = some rest ↔ t = rest ++ tail := by
  rw [stripEnd?, Option.map_eq_some_iff]
  constructor
  · rintro ⟨back, hback, rfl⟩
    have hreverse := congrArg List.reverse (strip?_eq_some_iff.1 hback)
    simpa using hreverse
  · rintro rfl
    exact ⟨rest.reverse, strip?_eq_some_iff.2 (by simp), by simp⟩

theorem cutAtChar?_eq_some {c : Char} {t before after : Text}
    (h : cutAtChar? c t = some (before, after)) : t = before ++ c :: after ∧ c ∉ before := by
  induction t generalizing before with
  | nil => simp [cutAtChar?] at h
  | cons d t ih =>
    by_cases hd : d = c
    · simp [cutAtChar?, hd] at h
      simp [hd, h]
    · simp only [cutAtChar?, hd, ↓reduceIte, Option.map_eq_some_iff, Prod.mk.injEq,
        Prod.exists] at h
      obtain ⟨b, a, hcut, rfl, rfl⟩ := h
      obtain ⟨rfl, hb⟩ := ih hcut
      exact ⟨rfl, by simp [hb, Ne.symm hd]⟩

/-! ### Building -/

/-- The decimal digits of a number. -/
def decimal (n : Nat) : Text :=
  Nat.toDigits 10 n

/-- The texts one after the other, with `separator` between neighbours. -/
def join (separator : Text) (parts : List Text) : Text :=
  List.intercalate separator parts

/-- The entry that a table of spellings gives for a text. -/
def lookup? (table : List (Text × Text)) (t : Text) : Option Text :=
  (table.find? fun entry => entry.1 == t).map Prod.snd

end Text

end Rebrace
