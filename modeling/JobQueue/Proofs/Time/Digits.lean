import JobQueue.Time.Stamp
import Mathlib.Data.String.Basic

/-!
# Numbers of fixed width

A number that is padded to a width is read back, and fields of one width compare as their numbers
do, with what follows them deciding between equal ones.
-/

namespace JobQueue.Time

variable {width m n : Nat} {cs rest rest' : List Char}

theorem numberOfDigits_eq : numberOfDigits cs = Nat.ofDigitChars 10 cs 0 := by
  simp [numberOfDigits, Nat.ofDigitChars_eq_foldl, Nat.mul_comm]

theorem numberOfDigits_padded : numberOfDigits (padded width n) = n := by
  rw [numberOfDigits_eq, padded, Nat.ofDigitChars_append, Nat.ofDigitChars_replicate_zero,
    Nat.mul_zero, Nat.ofDigitChars_ten_toDigits]

theorem isDigit_of_mem_padded {c : Char} (h : c ∈ padded width n) : c.isDigit = true := by
  rcases List.mem_append.mp h with zero | digit
  · rw [List.eq_of_mem_replicate zero]
    rfl
  · exact Nat.isDigit_of_mem_toDigits (by decide) (by decide) digit

theorem length_padded (positive : 0 < width) (h : n < 10 ^ width) :
    (padded width n).length = width := by
  have := (Nat.length_toDigits_le_iff (b := 10) (by decide) positive).mpr h
  rw [padded, List.length_append, List.length_replicate]
  omega

theorem exists_padded (width n : Nat) : ∃ c cs, padded width n = c :: cs ∧ c.isDigit = true := by
  have filled : padded width n ≠ [] := by simp [padded, Nat.toDigits_ne_nil]
  obtain ⟨c, cs, digits⟩ := List.exists_cons_of_ne_nil filled
  exact ⟨c, cs, digits, isDigit_of_mem_padded (digits ▸ List.mem_cons_self)⟩

theorem isEmpty_padded : (padded width n).isEmpty = false := by
  obtain ⟨c, cs, digits, -⟩ := exists_padded width n
  rw [digits, List.isEmpty_cons]

theorem takeWhile_padded {c : Char} (other : c.isDigit = false) :
    (padded width n ++ c :: rest).takeWhile Char.isDigit = padded width n := by
  rw [List.takeWhile_append_of_pos fun _ => isDigit_of_mem_padded]
  simp [other]

theorem dropWhile_padded {c : Char} (other : c.isDigit = false) :
    (padded width n ++ c :: rest).dropWhile Char.isDigit = c :: rest := by
  rw [List.dropWhile_append_of_pos fun _ => isDigit_of_mem_padded]
  simp [other]

-- ---------------------------------------------------------------------------
-- Reading
-- ---------------------------------------------------------------------------

theorem fixedNumber_padded (positive : 0 < width) (h : n < 10 ^ width) :
    fixedNumber width (padded width n ++ rest) = .ok (n, rest) := by
  have length := length_padded positive h
  have field : (padded width n ++ rest).take width = padded width n := List.take_left' length
  have behind : (padded width n ++ rest).drop width = rest := List.drop_left' length
  have digits : (padded width n).all Char.isDigit = true :=
    List.all_eq_true.mpr fun _ => isDigit_of_mem_padded
  simp only [fixedNumber, field, behind]
  rw [if_pos ⟨digits, length⟩, numberOfDigits_padded]

theorem fixedNumber_of_not_digit {c : Char} (h : c.isDigit = false) (positive : 0 < width) :
    fixedNumber width (c :: rest) = .error .invalid := by
  obtain ⟨width, rfl⟩ := Nat.exists_eq_succ_of_ne_zero (Nat.ne_of_gt positive)
  simp [fixedNumber, h]

-- ---------------------------------------------------------------------------
-- Comparing
-- ---------------------------------------------------------------------------

theorem toNat_of_isDigit {c : Char} (h : c.isDigit = true) : 48 ≤ c.toNat ∧ c.toNat ≤ 57 := by
  simpa [Char.isDigit, UInt32.le_iff_toNat_le] using h

theorem numberOfDigits_cons {c : Char} :
    numberOfDigits (c :: cs) = 10 ^ cs.length * (c.toNat - 48) + numberOfDigits cs := by
  rw [numberOfDigits_eq, numberOfDigits_eq, Nat.ofDigitChars_cons,
    Nat.ofDigitChars_eq_ofDigitChars_zero, Nat.mul_zero, Nat.zero_add]
  rfl

theorem numberOfDigits_lt (h : ∀ c ∈ cs, c.isDigit = true) :
    numberOfDigits cs < 10 ^ cs.length := by
  induction cs with
  | nil => simp [numberOfDigits]
  | cons c cs ih =>
    have := toNat_of_isDigit (h c List.mem_cons_self)
    have := ih fun c hc => h c (List.mem_cons_of_mem _ hc)
    have first : 10 ^ cs.length * (c.toNat - 48) ≤ 10 ^ cs.length * 9 :=
      Nat.mul_le_mul_left _ (by omega)
    rw [numberOfDigits_cons, List.length_cons, Nat.pow_succ]
    omega

theorem append_lt_of_digits {xs ys : List Char} (hx : ∀ c ∈ xs, c.isDigit = true)
    (hy : ∀ c ∈ ys, c.isDigit = true) (length : xs.length = ys.length)
    (h : numberOfDigits xs < numberOfDigits ys) : xs ++ rest < ys ++ rest' := by
  induction xs generalizing ys with
  | nil =>
    obtain rfl := List.length_eq_zero_iff.mp length.symm
    exact absurd h (Nat.lt_irrefl _)
  | cons x xs ih =>
    cases ys with
    | nil => cases length
    | cons y ys =>
      have rests : xs.length = ys.length := Nat.succ.inj length
      have hx' : ∀ c ∈ xs, c.isDigit = true := fun c hc => hx c (List.mem_cons_of_mem _ hc)
      have hy' : ∀ c ∈ ys, c.isDigit = true := fun c hc => hy c (List.mem_cons_of_mem _ hc)
      have x_ge := (toNat_of_isDigit (hx x List.mem_cons_self)).1
      have y_ge := (toNat_of_isDigit (hy y List.mem_cons_self)).1
      have tail_lt := numberOfDigits_lt hy'
      rw [numberOfDigits_cons, numberOfDigits_cons, rests] at h
      rw [List.cons_append, List.cons_append, List.cons_lt_cons_iff]
      rcases Nat.lt_trichotomy x.toNat y.toNat with less | same | more
      · exact .inl less
      · obtain rfl := Char.toNat_inj.mp same
        exact .inr ⟨rfl, ih hx' hy' rests (by omega)⟩
      · -- a greater first digit weighs more than all the others
        have := Nat.mul_le_mul_left (10 ^ ys.length) (show y.toNat - 48 + 1 ≤ x.toNat - 48 by omega)
        rw [Nat.mul_succ] at this
        omega

/-- Padded numbers of one width compare as they are, and equal ones as what follows them. -/
theorem padded_append_lt (positive : 0 < width) (hn : n < 10 ^ width) (le : m ≤ n)
    (behind : m = n → rest < rest') : padded width m ++ rest < padded width n ++ rest' := by
  rcases Nat.lt_or_eq_of_le le with before | same
  · refine append_lt_of_digits (fun _ => isDigit_of_mem_padded) (fun _ => isDigit_of_mem_padded)
      ?_ ?_
    · rw [length_padded positive (Nat.lt_trans before hn), length_padded positive hn]
    · rwa [numberOfDigits_padded, numberOfDigits_padded]
  · rw [same]
    exact List.append_left_lt (behind same)

theorem cons_lt {c : Char} (h : rest < rest') : c :: rest < c :: rest' :=
  List.cons_lt_cons_iff.mpr (.inr ⟨rfl, h⟩)

end JobQueue.Time
