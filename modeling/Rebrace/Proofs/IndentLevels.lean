import Mathlib
import Rebrace.Line.Indentation
import Rebrace.Proofs.Lexical

/-!
# Levels of indentation

A line is indented by some spaces, which are whole levels of the source and a surplus.  Rescaling
gives every level its width in the target and keeps the surplus, so that only the number of spaces
in front of a line changes, `rescaleIndent_spaces_append`.  This number is right exactly if the
width of the levels is no longer than a text can be: a longer one is a fault, or wraps around.

The way back counts levels of the target.  It finds those of the first pass again, and it finds more
of them if the surplus is as wide as such a level: then a level of the surplus becomes one of the
source, and the line moves to the right.  So a line comes back exactly if its surplus is smaller
than a level of the target, `rescaleIndent?_exact_and_undone_iff`.
-/

namespace Rebrace

open Text

/-! ### Widths -/

section Widths

variable {source target : Nat}

/-- The levels of the target are one for each level of the source, and those of the surplus. -/
lemma div_of_rescaled (htarget : 1 ≤ target) (n : Nat) :
    (n / source * target + n % source) / target = n / source + n % source / target := by
  rw [Nat.mul_comm, Nat.mul_add_div htarget]

/-- Without a level in the surplus, the levels that are found on the way back are those that were
rescaled. -/
lemma div_of_rescaled_of_lt {n : Nat} (h : n % source < target) :
    (n / source * target + n % source) / target = n / source := by
  rw [div_of_rescaled (by omega), Nat.div_eq_of_lt h, Nat.add_zero]

/-- **A surplus that makes up a level does not come back.**  An indentation that is rescaled there
and back has its old width exactly if the surplus is smaller than a level of the target. -/
lemma rescaled_back_eq_iff (hsource : 1 ≤ source) (htarget : 1 ≤ target) (n : Nat) :
    (n / source * target + n % source) / target * source +
        (n / source * target + n % source) % target = n ↔
      n % source < target := by
  have hsurplus : n % source < source := Nat.mod_lt n hsource
  have hn : n / source * source + n % source = n := Nat.div_add_mod' n source
  constructor
  · intro hback
    by_contra hlarge
    -- a level of the surplus has come back as a level of the source, which is wider
    have hlevel : 0 < n % source / target := Nat.div_pos (by omega) htarget
    have hwider : n % source / target * target < n % source / target * source :=
      Nat.mul_lt_mul_of_pos_left (by omega) hlevel
    have hsplit : n % source / target * target + n % source % target = n % source :=
      Nat.div_add_mod' (n % source) target
    rw [div_of_rescaled htarget, Nat.mul_add_mod_self_right, Nat.add_mul] at hback
    omega
  · intro hsmall
    rw [div_of_rescaled_of_lt hsmall, Nat.mul_add_mod_self_right, Nat.mod_eq_of_lt hsmall, hn]

/-- A width that a text can have fits into a machine word. -/
lemma levelsWidth_eq {levels : Nat} (h : levels * target ≤ maxLength) :
    levelsWidth levels target = levels * target :=
  Nat.mod_eq_of_lt (h.trans_lt (by decide))

end Widths

/-! ### Lines -/

lemma spaces_add (m n : Nat) : spaces (m + n) = spaces m ++ spaces n :=
  List.replicate_append_replicate.symm

/-- The number of spaces in front of a text can be told from the whole. -/
lemma spaces_append_inj {m n : Nat} {rest : Text} :
    spaces m ++ rest = spaces n ++ rest ↔ m = n := by
  rw [List.append_cancel_right_eq]
  simp [spaces]

/-- There is no space behind the indentation of a line. -/
lemma leadingSpaces_drop_leadingSpaces (line : Text) :
    leadingSpaces (line.drop (leadingSpaces line)) = 0 := by
  have hadd := leadingSpaces_drop_add (le_refl (leadingSpaces line))
  omega

/-- **Rescaling changes the number of spaces in front of a line**, and nothing behind them. -/
lemma rescaleIndent_spaces_append {source : Nat} (hsource : 1 ≤ source) (target n : Nat)
    {rest : Text} (hrest : leadingSpaces rest = 0) :
    rescaleIndent source target (spaces n ++ rest) =
      spaces (levelsWidth (n / source) target + n % source) ++ rest := by
  have hn : n / source * source + n % source = n := Nat.div_add_mod' n source
  rw [rescaleIndent, leadingSpaces_spaces_append, hrest, Nat.add_zero]
  by_cases hlevels : n / source = 0
  · -- without a level the line is its surplus
    have hsurplus : n % source = n := by rwa [hlevels, Nat.zero_mul, Nat.zero_add] at hn
    simp only [hlevels, hsurplus, or_true, ↓reduceIte, levelsWidth, Nat.zero_mul, Nat.zero_mod,
      Nat.zero_add]
  · have hsplit : spaces n = spaces (n / source * source) ++ spaces (n % source) := by
      rw [← spaces_add, hn]
    have hdrop : (spaces n ++ rest).drop (n / source * source) = spaces (n % source) ++ rest := by
      rw [hsplit, List.append_assoc, drop_spaces_append]
    rw [if_neg (by omega), hdrop, spaces_add, List.append_assoc]

/-- A line is rescaled to the right number of spaces exactly if the width of its levels is no longer
than a text can be. -/
lemma rescaleIndent?_spaces_append_iff {source : Nat} (hsource : 1 ≤ source) (target n : Nat)
    {rest : Text} (hrest : leadingSpaces rest = 0) :
    rescaleIndent? source target (spaces n ++ rest) =
        some (spaces (n / source * target + n % source) ++ rest) ↔
      n / source * target ≤ maxLength := by
  rw [rescaleIndent?, leadingSpaces_spaces_append, hrest, Nat.add_zero,
    rescaleIndent_spaces_append hsource target n hrest]
  constructor
  · intro h
    split at h
    · rename_i hfits
      have hwidth := spaces_append_inj.1 (Option.some.inj h)
      omega
    · cases h
  · intro hfits
    rw [levelsWidth_eq hfits, if_pos hfits]

/-- **Rescaling is exact as long as the new levels are no longer than a text can be, and then it can
be undone exactly if no level is made up of surplus spaces.**  A line with `n` leading spaces keeps
what follows them, behind the levels of `n` in their new width and the surplus.  Rescaled back, it
is the same line again exactly if the surplus is smaller than a level of the target, as it is
whenever levels become no narrower, and whenever there is none. -/
theorem rescaleIndent?_exact_and_undone_iff {source target : Nat} (hsource : 1 ≤ source)
    (htarget : 1 ≤ target) {line : Text} {n : Nat} (hn : leadingSpaces line = n) :
    (rescaleIndent? source target line =
        some (spaces (n / source * target + n % source) ++ line.drop n) ↔
      n / source * target ≤ maxLength) ∧
    (n / source * target ≤ maxLength →
      leadingSpaces (rescaleIndent source target line) = n / source * target + n % source ∧
      ((n / source * target + n % source) / target * source ≤ maxLength →
        ((rescaleIndent? source target line).bind (rescaleIndent? target source) = some line ↔
          n % source < target)) ∧
      (n % source < target → n ≤ maxLength →
        (rescaleIndent? source target line).bind (rescaleIndent? target source) = some line) ∧
      (source ≤ target →
        (rescaleIndent? source target line).bind (rescaleIndent? target source) = some line) ∧
      (source ∣ n → n ≤ maxLength →
        (rescaleIndent? source target line).bind (rescaleIndent? target source) = some line)) := by
  have hrest : leadingSpaces (line.drop n) = 0 := hn ▸ leadingSpaces_drop_leadingSpaces line
  have hline : spaces n ++ line.drop n = line := spaces_append_drop hn.ge
  have hthere := rescaleIndent?_spaces_append_iff hsource target n hrest
  rw [hline] at hthere
  refine ⟨hthere, fun hfits => ?_⟩
  rw [hthere.2 hfits, Option.bind_some]
  set width := n / source * target + n % source with hwidth
  have hback : width / target * source ≤ maxLength →
      (rescaleIndent? target source (spaces width ++ line.drop n) = some line ↔
        n % source < target) := by
    intro hfitsBack
    have hexact := (rescaleIndent?_spaces_append_iff htarget source width hrest).2 hfitsBack
    rw [hexact, Option.some_inj]
    nth_rewrite 2 [← hline]
    rw [spaces_append_inj, rescaled_back_eq_iff hsource htarget]
  -- without a level in the surplus the way back has the levels of the line to write
  have hundone : n % source < target → n / source * source ≤ maxLength →
      rescaleIndent? target source (spaces width ++ line.drop n) = some line := by
    intro hsmall hfitsBack
    refine (hback ?_).2 hsmall
    rwa [hwidth, div_of_rescaled_of_lt hsmall]
  have hlevels : n / source * source ≤ n := Nat.div_mul_le_self n source
  refine ⟨?_, hback, fun hsmall hshort => ?_, fun hle => ?_, fun hwhole hshort => ?_⟩
  · conv_lhs => rw [← hline]
    rw [rescaleIndent_spaces_append hsource target n hrest, levelsWidth_eq hfits,
      leadingSpaces_spaces_append, hrest, Nat.add_zero]
  · exact hundone hsmall (hlevels.trans hshort)
  · exact hundone ((Nat.mod_lt n hsource).trans_le hle) ((Nat.mul_le_mul_left _ hle).trans hfits)
  · refine hundone ?_ (hlevels.trans hshort)
    rwa [Nat.mod_eq_zero_of_dvd hwhole]

/-- A line with one level and three spaces more: as levels of two spaces there is a second level in
the surplus, and the line does not come back. -/
theorem rescaleIndent?_exact_and_undone_iff_of_surplus :
    leadingSpaces "       * x" = 7 ∧ rescaleIndent? 4 2 "       * x" = some "     * x" ∧
      (rescaleIndent? 4 2 "       * x").bind (rescaleIndent? 2 4) ≠ some "       * x" ∧
      (rescaleIndent? 2 4 "       * x").bind (rescaleIndent? 4 2) = some "       * x" := by
  have hindent : leadingSpaces "       * x" = 7 := by decide
  obtain ⟨hthere, hback⟩ :=
    @rescaleIndent?_exact_and_undone_iff 4 2 (by decide) (by decide) _ _ hindent
  obtain ⟨-, hwider⟩ :=
    @rescaleIndent?_exact_and_undone_iff 2 4 (by decide) (by decide) _ _ hindent
  refine ⟨hindent, hthere.2 (by decide), fun heq => ?_, (hwider (by decide)).2.2.2.1 (by decide)⟩
  exact absurd (((hback (by decide)).2.1 (by decide)).1 heq) (by decide)

/-- With a target width of `2 ^ 62`, two levels are longer than a text can be, and the width of four
levels wraps around to zero. -/
theorem rescaleIndent?_of_wide_levels :
    rescaleIndent? 1 (2 ^ 62) "  x" = none ∧ rescaleIndent? 1 (2 ^ 62) "    x" = some "x" := by
  decide +kernel

end Rebrace
