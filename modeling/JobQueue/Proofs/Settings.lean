import JobQueue.Proofs.Checked
import JobQueue.Proofs.Json.Scalar
import JobQueue.Settings
import Mathlib.Data.List.TakeWhile

/-!
# Settings that variables give

Which texts of a variable are numbers, which number each of them is, and what is reported of the
first variable that is none.
-/

namespace JobQueue

variable {cs : List Char} {m n : Nat} {raw key : String} {raw? : Option String} {default : Nat}
  {vars : Variables}

-- ---------------------------------------------------------------------------
-- Numbers
-- ---------------------------------------------------------------------------

def unsigned : List Char → List Char
  | '+' :: rest => rest
  | cs => cs

structure IsNumeralOf (cs : List Char) (n : Nat) : Prop where
  nonempty : unsigned cs ≠ []
  digits : ∀ c ∈ unsigned cs, c.isDigit = true
  number : Nat.ofDigitChars 10 (unsigned cs) 0 = n

/-- Whether the digits in front of the first other character are too large a number already. -/
def Outruns (cs : List Char) : Prop :=
  numberLimit ≤ Nat.ofDigitChars 10 ((unsigned cs).takeWhile Char.isDigit) 0

instance : Decidable (Outruns cs) := inferInstanceAs (Decidable (_ ≤ _))

def faultOf (cs : List Char) : NumberFault :=
  if Outruns cs then .tooLarge else .invalidDigit

theorem takeUpDigits_eq (small : m < numberLimit) : takeUpDigits m cs =
    if numberLimit ≤ Nat.ofDigitChars 10 (cs.takeWhile Char.isDigit) m then .error .tooLarge
    else if cs.all Char.isDigit then .ok (Nat.ofDigitChars 10 cs m)
    else .error .invalidDigit := by
  induction cs generalizing m with
  | nil => simp [takeUpDigits, Nat.not_le.mpr small]
  | cons c cs ih =>
    cases digit : c.isDigit
    · simp [takeUpDigits, digit, Nat.not_le.mpr small]
    · have step (ds : List Char) : Nat.ofDigitChars 10 (c :: ds) m =
          Nat.ofDigitChars 10 ds (m * 10 + (c.toNat - 48)) := by
        rw [Nat.ofDigitChars_cons, Nat.mul_comm]
        rfl
      rw [takeUpDigits, List.takeWhile_cons_of_pos digit, step, step]
      by_cases fits : m * 10 + (c.toNat - 48) < numberLimit
      · simp [digit, fits, ih fits]
      · -- what is too large stays so, whatever digits follow
        have outgrown : numberLimit ≤ Nat.ofDigitChars 10 (cs.takeWhile Char.isDigit)
            (m * 10 + (c.toNat - 48)) :=
          Nat.le_trans (Nat.not_lt.mp fits) Json.le_ofDigitChars
        simp [digit, fits, outgrown]

theorem readNumber_eq {text : String} (nonempty : text.toList ≠ []) : readNumber text =
    if unsigned text.toList = [] then .error .invalidDigit
    else takeUpDigits 0 (unsigned text.toList) := by
  unfold readNumber unsigned
  grind

/-- A number is read exactly off a numeral of one below the limit. -/
theorem readNumber_eq_ok_iff {text : String} (nonempty : text.toList ≠ []) :
    readNumber text = .ok n ↔ IsNumeralOf text.toList n ∧ n < numberLimit := by
  rw [readNumber_eq nonempty]
  constructor
  · intro read
    split at read
    · cases read
    · next some =>
      rw [takeUpDigits_eq (by decide)] at read
      split at read
      · cases read
      · next fits =>
        split at read
        · next all =>
          have digits := List.all_eq_true.mp all
          obtain rfl := Except.ok.inj read
          rw [List.takeWhile_eq_self_iff.mpr digits] at fits
          exact ⟨⟨some, digits, rfl⟩, Nat.not_le.mp fits⟩
        · cases read
  · rintro ⟨⟨some, digits, rfl⟩, fits⟩
    rw [if_neg some, takeUpDigits_eq (by decide), List.takeWhile_eq_self_iff.mpr digits,
      if_neg (Nat.not_le.mpr fits), if_pos (List.all_eq_true.mpr digits)]

theorem readNumber_eq_error {text : String} {fault : NumberFault} (nonempty : text.toList ≠ [])
    (read : readNumber text = .error fault) : fault = faultOf text.toList := by
  rw [readNumber_eq nonempty] at read
  split at read
  · next none =>
    have inside : ¬Outruns text.toList := by
      rw [Outruns, none]
      decide
    rw [faultOf, if_neg inside, Except.error.inj read]
  · rw [takeUpDigits_eq (by decide)] at read
    split at read
    · next outruns => rw [faultOf, if_pos (show Outruns _ from outruns), Except.error.inj read]
    · next fits =>
      split at read
      · cases read
      · rw [faultOf, if_neg (show ¬Outruns _ from fits), Except.error.inj read]

/-- The limit is passed before the letter is reached. -/
example : readNumber "18446744073709551616x" = .error .tooLarge := by decide

-- ---------------------------------------------------------------------------
-- One variable
-- ---------------------------------------------------------------------------

inductive Gives (default : Nat) : Option String → Nat → Prop
  | absent : Gives default none default
  | blank {raw : String} (blank : Text.blank raw = true) : Gives default (some raw) default
  | number {raw : String} {n : Nat} (numeral : IsNumeralOf (Text.trim raw).toList n)
      (fits : n < numberLimit) : Gives default (some raw) n

def IsUsable (raw? : Option String) : Prop :=
  ∀ raw ∈ raw?, Text.blank raw = true ∨ ∃ n < numberLimit, IsNumeralOf (Text.trim raw).toList n

theorem trim_ne_nil (h : ¬Text.blank raw = true) : (Text.trim raw).toList ≠ [] := by
  rwa [← Text.trim_eq_empty_iff, ← String.toList_inj] at h

theorem not_isNumeralOf_of_blank (h : Text.blank raw = true) :
    ¬IsNumeralOf (Text.trim raw).toList n := by
  rw [Text.trim_eq_empty_iff.mpr h]
  exact fun numeral => numeral.nonempty rfl

theorem Variables.number_eq_ok_iff :
    vars.number key default = .ok n ↔ Gives default (vars key) n := by
  unfold Variables.number
  cases vars key with
  | none =>
    constructor
    · rintro ⟨⟩
      exact .absent
    · rintro ⟨⟩
      rfl
  | some raw =>
    by_cases blank : Text.blank raw = true
    · simp only [blank, if_true]
      constructor
      · rintro ⟨⟩
        exact .blank blank
      · rintro (_ | _ | ⟨numeral, _⟩)
        · rfl
        · exact absurd numeral (not_isNumeralOf_of_blank blank)
    · simp only [if_neg blank]
      constructor
      · intro read
        split at read
        · next m number =>
          obtain rfl := Except.ok.inj read
          obtain ⟨numeral, fits⟩ := (readNumber_eq_ok_iff (trim_ne_nil blank)).mp number
          exact .number numeral fits
        · cases read
      · rintro (_ | blank' | ⟨numeral, fits⟩)
        · exact absurd blank' blank
        · rw [(readNumber_eq_ok_iff (trim_ne_nil blank)).mpr ⟨numeral, fits⟩]

theorem exists_gives_iff : (∃ n, Gives default raw? n) ↔ IsUsable raw? := by
  constructor
  · rintro ⟨_, _ | blank | ⟨numeral, fits⟩⟩ raw ⟨⟩
    · exact .inl blank
    · exact .inr ⟨_, fits, numeral⟩
  · intro usable
    cases raw? with
    | none => exact ⟨_, .absent⟩
    | some raw =>
      rcases usable raw rfl with blank | ⟨n, fits, numeral⟩
      · exact ⟨_, .blank blank⟩
      · exact ⟨n, .number numeral fits⟩

theorem Variables.number_eq_error {e : SettingError}
    (refused : vars.number key default = .error e) :
    ∃ raw, vars key = some raw ∧ e = ⟨key, raw, faultOf (Text.trim raw).toList⟩ := by
  unfold Variables.number at refused
  split at refused
  · cases refused
  · next raw text =>
    split at refused
    · cases refused
    · next visible =>
      split at refused
      · cases refused
      · next fault read =>
        rw [readNumber_eq_error (trim_ne_nil visible) read] at refused
        exact ⟨raw, text, (Except.error.inj refused).symm⟩

/-- A variable that is not usable is reported with its text as it is. -/
theorem Variables.number_eq_error_iff {e : SettingError} :
    vars.number key default = .error e ↔ ¬IsUsable (vars key) ∧
      ∃ raw, vars key = some raw ∧ e = ⟨key, raw, faultOf (Text.trim raw).toList⟩ := by
  constructor
  · intro refused
    refine ⟨fun usable => ?_, Variables.number_eq_error refused⟩
    obtain ⟨n, gives⟩ : ∃ n, Gives default (vars key) n := exists_gives_iff.mpr usable
    rw [Variables.number_eq_ok_iff.mpr gives] at refused
    cases refused
  · rintro ⟨unusable, raw, text, rfl⟩
    cases read : vars.number key default with
    | ok n => exact absurd (exists_gives_iff.mp ⟨n, Variables.number_eq_ok_iff.mp read⟩) unusable
    | error e =>
      obtain ⟨raw', text', rfl⟩ := Variables.number_eq_error read
      obtain rfl := Option.some.inj (text.symm.trans text')
      rfl

-- ---------------------------------------------------------------------------
-- All variables
-- ---------------------------------------------------------------------------

structure Setting where
  key : String
  field : Settings → Nat

def Settings.inOrder : List Setting :=
  [⟨"JOBS_WORKER_COUNT", Settings.workers⟩,
   ⟨"JOBS_RESERVATION_WINDOW_SECS", Settings.reservationWindowSecs⟩,
   ⟨"JOBS_ENQUEUE_TIMEOUT_SECS", Settings.enqueueTimeoutSecs⟩,
   ⟨"JOBS_RESULT_TIMEOUT_SECS", Settings.resultTimeoutSecs⟩]

def IsFirstWithout {α : Type} (P : α → Prop) (xs : List α) (x : α) : Prop :=
  ∃ earlier later, xs = earlier ++ x :: later ∧ (∀ y ∈ earlier, P y) ∧ ¬P x

@[simp] theorem isFirstWithout_nil {α : Type} {P : α → Prop} {x : α} :
    ¬IsFirstWithout P [] x := by
  rintro ⟨earlier, later, split, -⟩
  simp at split

@[simp] theorem isFirstWithout_cons {α : Type} {P : α → Prop} {xs : List α} {x y : α} :
    IsFirstWithout P (y :: xs) x ↔ x = y ∧ ¬P y ∨ P y ∧ IsFirstWithout P xs x := by
  constructor
  · rintro ⟨_ | ⟨_, earlier⟩, later, ⟨⟩, before, without⟩
    · exact .inl ⟨rfl, without⟩
    · obtain ⟨first, others⟩ := List.forall_mem_cons.mp before
      exact .inr ⟨first, earlier, later, rfl, others, without⟩
  · rintro (⟨rfl, without⟩ | ⟨first, earlier, later, rfl, others, without⟩)
    · exact ⟨[], xs, rfl, by simp, without⟩
    · exact ⟨y :: earlier, later, rfl, List.forall_mem_cons.mpr ⟨first, others⟩, without⟩

theorem Settings.ofVariables_eq_ok_iff {s : Settings} : Settings.ofVariables vars = .ok s ↔
    ∀ v ∈ Settings.inOrder, Gives (v.field .default) (vars v.key) (v.field s) := by
  simp only [Settings.ofVariables, bind_eq_ok_iff, pure_eq_ok_iff, Variables.number_eq_ok_iff,
    Settings.inOrder, List.forall_mem_cons]
  constructor
  · rintro ⟨_, workers, _, window, _, enqueue, _, result, rfl⟩
    exact ⟨workers, window, enqueue, result, by simp⟩
  · rintro ⟨workers, window, enqueue, result, -⟩
    exact ⟨_, workers, _, window, _, enqueue, _, result, rfl⟩

theorem Settings.ofVariables_eq_error_iff {e : SettingError} :
    Settings.ofVariables vars = .error e ↔
      ∃ v raw, IsFirstWithout (fun v : Setting => IsUsable (vars v.key)) Settings.inOrder v ∧
        vars v.key = some raw ∧ e = ⟨v.key, raw, faultOf (Text.trim raw).toList⟩ := by
  -- a later variable is read only if the earlier ones give something, whatever that is
  simp only [Settings.ofVariables, bind_eq_error_iff, pure_ne_error, Variables.number_eq_ok_iff,
    Variables.number_eq_error_iff, exists_and_right, exists_gives_iff, Settings.inOrder,
    isFirstWithout_cons, isFirstWithout_nil, or_and_right, exists_or, and_assoc, exists_and_left,
    exists_eq_left, and_false, exists_false, or_false]

theorem Settings.exists_ofVariables_iff : (∃ s, Settings.ofVariables vars = .ok s) ↔
    ∀ v ∈ Settings.inOrder, IsUsable (vars v.key) := by
  constructor
  · rintro ⟨s, accepted⟩ v member
    exact exists_gives_iff.mp ⟨_, Settings.ofVariables_eq_ok_iff.mp accepted v member⟩
  · intro usable
    cases read : Settings.ofVariables vars with
    | ok s => exact ⟨s, rfl⟩
    | error e =>
      obtain ⟨v, _, ⟨earlier, later, order, -, unusable⟩, -⟩ :=
        Settings.ofVariables_eq_error_iff.mp read
      exact absurd (usable v (by simp [order])) unusable

/-- Settings are accepted exactly if each variable is absent, blank, or a number below the limit,
and each field is then what its own variable gives. Otherwise the first other variable is reported,
with its text as it is and with why that is no such number. -/
theorem Settings.ofVariables_decides (vars : Variables) :
    (∀ s, Settings.ofVariables vars = .ok s ↔
      ∀ v ∈ Settings.inOrder, Gives (v.field .default) (vars v.key) (v.field s)) ∧
    ((∃ s, Settings.ofVariables vars = .ok s) ↔
      ∀ v ∈ Settings.inOrder, IsUsable (vars v.key)) ∧
    ∀ e, Settings.ofVariables vars = .error e ↔
      ∃ v raw, IsFirstWithout (fun v : Setting => IsUsable (vars v.key)) Settings.inOrder v ∧
        vars v.key = some raw ∧ e = ⟨v.key, raw, faultOf (Text.trim raw).toList⟩ :=
  ⟨fun _ => Settings.ofVariables_eq_ok_iff, Settings.exists_ofVariables_iff,
    fun _ => Settings.ofVariables_eq_error_iff⟩

end JobQueue
