import JobQueue.Json.Printer
import JobQueue.Json.Reader
import JobQueue.Proofs.Time.Digits

/-!
# Strings and numbers in a text

Strings are read as they were written, and so are whole numbers that fit into 64 bits.
-/

namespace JobQueue.Json

variable {acc cs rest : List Char} {c e : Char} {m : Nat} {n : Int}

-- ---------------------------------------------------------------------------
-- Strings
-- ---------------------------------------------------------------------------

theorem stringBody_short (h : shortEscape? e = some c) :
    stringBody acc ('\\' :: e :: rest) = stringBody (c :: acc) rest := by
  rw [stringBody.eq_def]
  simp only [h]

theorem stringBody_plain (quote : c ≠ '"') (slash : c ≠ '\\') (control : ¬c.toNat < 0x20) :
    stringBody acc (c :: rest) = stringBody (c :: acc) rest := by
  rw [stringBody.eq_def]
  split <;> simp_all

/-- The two digits of a control character are those of its number, which is no half of a pair. -/
theorem hexWord?_control : ∀ n < 0x20, isTrailing n = false ∧ isLeading n = false ∧
    hexWord? '0' '0' (hexDigit (n / 16)) (hexDigit n) = some n := by
  decide

/-- A character is read back from what stands for it. -/
theorem stringBody_escapeChar :
    stringBody acc (escapeChar c ++ rest) = stringBody (c :: acc) rest := by
  unfold escapeChar
  split
  · exact stringBody_short rfl
  · exact stringBody_short rfl
  · exact stringBody_short rfl
  · exact stringBody_short rfl
  · exact stringBody_short rfl
  · exact stringBody_short rfl
  · exact stringBody_short rfl
  · next quote slash _ _ _ _ _ =>
    split
    · next control =>
      obtain ⟨trailing, leading, word⟩ := hexWord?_control c.toNat control
      simp [stringBody, shortEscape?, word, trailing, leading]
    · next control => exact stringBody_plain quote slash control

theorem stringBody_stringText (acc s rest : List Char) :
    stringBody acc (s.flatMap escapeChar ++ '"' :: rest) =
      .ok (String.ofList (acc.reverse ++ s), rest) := by
  induction s generalizing acc with
  | nil => simp [stringBody]
  | cons c s ih =>
    rw [List.flatMap_cons, List.append_assoc, stringBody_escapeChar, ih]
    simp

-- ---------------------------------------------------------------------------
-- Numbers
-- ---------------------------------------------------------------------------

def EndsNumber (rest : List Char) : Prop :=
  ∀ c ∈ rest.head?, c.isDigit = false ∧ c ≠ '.' ∧ c ≠ 'e' ∧ c ≠ 'E'

theorem gather_of_endsNumber (ends : EndsNumber rest) : gather m rest = (m, rest) := by
  cases rest with
  | nil => rfl
  | cons c rest => simp [gather, (ends c rfl).1]

theorem passDigits_of_endsNumber (ends : EndsNumber rest) : passDigits rest = (0, rest) := by
  cases rest with
  | nil => rfl
  | cons c rest => simp [passDigits, (ends c rfl).1]

theorem le_ofDigitChars : m ≤ Nat.ofDigitChars 10 cs m := by
  rw [Nat.ofDigitChars_eq_ofDigitChars_zero]
  have := Nat.le_mul_of_pos_left m (Nat.pow_pos (n := cs.length) (show 0 < 10 by decide))
  omega

theorem gather_digits (digits : ∀ c ∈ cs, c.isDigit = true)
    (fits : Nat.ofDigitChars 10 cs m < significandLimit) (ends : EndsNumber rest) :
    gather m (cs ++ rest) = (Nat.ofDigitChars 10 cs m, rest) := by
  induction cs generalizing m with
  | nil => exact gather_of_endsNumber ends
  | cons c cs ih =>
    obtain ⟨first, others⟩ := List.forall_mem_cons.mp digits
    have step : Nat.ofDigitChars 10 (c :: cs) m =
        Nat.ofDigitChars 10 cs (m * 10 + digitValue c) := by
      rw [Nat.ofDigitChars_cons, Nat.mul_comm]
      rfl
    rw [step] at fits ⊢
    have small : m * 10 + digitValue c < significandLimit := Nat.lt_of_le_of_lt le_ofDigitChars fits
    rw [List.cons_append, gather, if_neg (by simp [first]), if_pos small]
    exact ih others fits

theorem isDigit_of_mem_toDigits : ∀ c ∈ Nat.toDigits 10 m, c.isDigit = true :=
  fun _ => Nat.isDigit_of_mem_toDigits (by decide) (by decide)

theorem isDigit_head?_toDigits :
    ∀ c ∈ (Nat.toDigits 10 m ++ rest).head?, c.isDigit = true := by
  intro c member
  rw [List.head?_append_of_ne_nil _ Nat.toDigits_ne_nil] at member
  exact isDigit_of_mem_toDigits c (List.mem_of_mem_head? member)

theorem toDigits_ne_zero_cons (positive : 0 < m) : Nat.toDigits 10 m ≠ '0' :: cs := by
  intro written
  have digits : ∀ c ∈ cs, c.isDigit = true := fun c member =>
    isDigit_of_mem_toDigits c (written ▸ List.mem_cons_of_mem _ member)
  have number : Nat.ofDigitChars 10 cs 0 = m := by
    rw [← Nat.ofDigitChars_ten_toDigits (n := m), written, Nat.ofDigitChars_cons]
    rfl
  rw [← Time.numberOfDigits_eq] at number
  -- without the zero there are too few digits for the number
  have small : m < 10 ^ cs.length := number ▸ Time.numberOfDigits_lt digits
  cases cs with
  | nil => exact absurd small (by simp; omega)
  | cons c cs =>
    have short := (Nat.length_toDigits_le_iff (by decide) (Nat.succ_pos _)).mpr small
    rw [written] at short
    exact absurd short (by simp)

theorem afterWhole_of_endsNumber {negative : Bool} (ends : EndsNumber rest) :
    afterWhole negative m 0 rest = wholeOf negative m rest := by
  cases rest with
  | nil => rfl
  | cons c rest =>
    obtain ⟨-, point, lower, upper⟩ := ends c rfl
    rw [afterWhole.eq_def]
    split <;> simp_all

theorem unsignedNumber_toDigits {negative : Bool} (fits : m < significandLimit)
    (ends : EndsNumber rest) :
    unsignedNumber negative (Nat.toDigits 10 m ++ rest) = wholeOf negative m rest := by
  rcases Nat.eq_zero_or_pos m with rfl | positive
  · rw [Nat.toDigits_zero, ← afterWhole_of_endsNumber ends]
    cases rest with
    | nil => rfl
    | cons c rest => simp [unsignedNumber, (ends c rfl).1]
  · have number := Nat.ofDigitChars_ten_toDigits (n := m)
    have gathered := gather_digits (m := 0) isDigit_of_mem_toDigits (number.symm ▸ fits) ends
    cases written : Nat.toDigits 10 m with
    | nil => exact absurd written Nat.toDigits_ne_nil
    | cons c cs =>
      have first : c.isDigit = true :=
        isDigit_of_mem_toDigits c (written ▸ List.mem_cons_self)
      have nonzero : c ≠ '0' := fun zero => toDigits_ne_zero_cons positive (zero ▸ written)
      rw [number, written, List.cons_append] at gathered
      rw [List.cons_append, unsignedNumber.eq_def]
      split
      · contradiction
      · next same => exact absurd (List.cons.inj same).1 nonzero
      · next same =>
        obtain ⟨rfl, -⟩ := List.cons.inj same
        simp [first, gathered, passDigits_of_endsNumber ends, afterWhole_of_endsNumber ends]

/-- Whether a whole number fits into 64 bits, with a sign or without one. -/
abbrev Fits (n : Int) : Prop := -0x8000000000000000 ≤ n ∧ n < 0x10000000000000000

theorem number_of_isDigit {s : List Char} (first : ∀ c ∈ s.head?, c.isDigit = true) :
    number s = unsignedNumber false s := by
  rw [number.eq_def]
  split
  · exact absurd (first _ rfl) (by decide)
  · rfl

theorem number_wholeText (fits : Fits n) (ends : EndsNumber rest) :
    number (wholeText n ++ rest) = .ok (.whole n, rest) := by
  obtain ⟨least, greatest⟩ := fits
  have small : n.natAbs < significandLimit := by
    simp only [significandLimit, UInt64.size]
    omega
  unfold wholeText
  split
  · next negative =>
    have magnitude : 0 < n.natAbs ∧ n.natAbs ≤ leastMagnitude := by
      simp only [leastMagnitude]
      omega
    have value : -(n.natAbs : Int) = n := by omega
    rw [List.cons_append, number, unsignedNumber_toDigits small ends, wholeOf, if_neg (by simp),
      if_pos magnitude, value]
  · next positive =>
    have value : (n.natAbs : Int) = n := by omega
    rw [number_of_isDigit isDigit_head?_toDigits, unsignedNumber_toDigits small ends, wholeOf,
      if_pos (by rfl), value]

end JobQueue.Json
