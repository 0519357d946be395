import JobQueue.Record

/-!
# Windows of time

Outside leap seconds, the time between two instants is a difference of counts of nanoseconds. No
two instants are further apart than the longest span that instants are compared by, so a window
that is too long to be compared is one that never ends.
-/

namespace JobQueue

namespace Time.Instant

variable {t u v : Instant}

theorem lt_iff : t < u ↔ t.second < u.second ∨ t.second = u.second ∧ t.nano < u.nano := by
  change ¬ u.le t = true ↔ _
  simp only [le, Bool.or_eq_true, Bool.and_eq_true, decide_eq_true_eq]
  omega

theorem le_refl (t : Instant) : t ≤ t := by
  change t.le t = true
  simp [le]

theorem eq_iff : t = u ↔ t.second = u.second ∧ t.nano = u.nano := by
  cases t
  cases u
  simp

def toNanoseconds (t : Instant) : Int := t.second * Span.perSecond + t.nano

theorem since_eq (ht : t.isLeapSecond = false) (hu : u.isLeapSecond = false) :
    t.since u = t.toNanoseconds - u.toNanoseconds := by
  simp only [since, ht, hu, toNanoseconds, Bool.false_eq_true, and_false, ↓reduceIte, Span.perSecond]
  omega

theorem since_self : t.since t = 0 := by
  simp [since]

theorem since_add (ht : t.isLeapSecond = false) (hu : u.isLeapSecond = false)
    (hv : v.isLeapSecond = false) : t.since u + u.since v = t.since v := by
  rw [since_eq ht hu, since_eq hu hv, since_eq ht hv]
  omega

theorem since_nonneg (order : u ≤ t) (hu : u.isLeapSecond = false) (ht : t.isLeapSecond = false) :
    0 ≤ t.since u := by
  have short : u.nano < Span.perSecond := by simpa [isLeapSecond] using hu
  rw [since_eq ht hu]
  change u.le t = true at order
  simp only [le, Bool.or_eq_true, Bool.and_eq_true, decide_eq_true_eq] at order
  simp only [toNanoseconds, Span.perSecond] at short ⊢
  omega

theorem since_lt_longest : t.since u < Span.longest.nanoseconds := by
  have first : firstSecond = -8334601228800 := by decide
  have last : lastSecond = 8210266876799 := by decide
  have ht := t.le_last
  have hu := u.first_le
  have nano := t.nano_lt
  have leaps (p q : Prop) [Decidable p] [Decidable q] :
      (if p then (1 : Int) else if q then -1 else 0) ≤ 1 := by
    split
    · exact Int.le_refl 1
    · split <;> decide
  have counted := leaps (u.secondOfDay < t.secondOfDay ∧ u.isLeapSecond)
    (t.secondOfDay < u.secondOfDay ∧ t.isLeapSecond)
  simp only [since, Span.longest, Span.ofMilliseconds, Span.perSecond] at nano ⊢
  omega

theorem before?_eq (ht : t.isLeapSecond = false) (span : Span) : ∃ second nano,
    t.before? span = ofParts? second nano ∧ nano < Span.perSecond ∧
      second * Span.perSecond + nano = t.toNanoseconds - span.nanoseconds := by
  have short : t.nano < Span.perSecond := by simpa [isLeapSecond] using ht
  simp only [before?, ht, Bool.false_eq_true, false_and, if_false, Nat.mod_eq_of_lt short,
    toNanoseconds]
  split
  · next enough => exact ⟨_, _, rfl, by omega, by unfold Span.perSecond at *; omega⟩
  · next borrow => exact ⟨_, _, rfl, by omega, by unfold Span.perSecond at *; omega⟩

theorem of_before?_eq_some {span : Span} (ht : t.isLeapSecond = false)
    (h : t.before? span = some u) :
    u.isLeapSecond = false ∧ u.toNanoseconds = t.toNanoseconds - span.nanoseconds := by
  obtain ⟨second, nano, parts, short, difference⟩ := before?_eq ht span
  rw [parts, ofParts?] at h
  split at h
  · cases h
    exact ⟨decide_eq_false (Nat.not_le.mpr short), difference⟩
  · cases h

theorem of_before?_eq_none {span : Span} (ht : t.isLeapSecond = false)
    (h : t.before? span = none) : t.toNanoseconds - span.nanoseconds < earliest.toNanoseconds := by
  obtain ⟨second, nano, parts, short, difference⟩ := before?_eq ht span
  have plain : t.nano < Span.perSecond := by simpa [isLeapSecond] using ht
  have last := t.le_last
  rw [parts, ofParts?] at h
  split at h
  · cases h
  · next outside =>
    have first : second < firstSecond := by
      refine Int.not_le.mp fun inside => outside ⟨inside, ?_, by omega⟩
      simp only [toNanoseconds, Span.perSecond] at difference plain short
      omega
    rw [← difference]
    simp only [toNanoseconds, earliest, Span.perSecond] at short ⊢
    omega

/-- So many seconds after the start of 1970, as long as there are such instants. -/
def ofSecond (n : Nat) : Instant := (ofParts? n 0).getD epoch

end Time.Instant

namespace Record

variable {r : Record} {now since : Time.Instant} {window : Time.Span}

theorem isReservedWithin_eq_false_iff : r.isReservedWithin now window = false ↔
    ∀ since, r.reservedAt = some since → window.nanoseconds ≤ now.since since := by
  cases reserved : r.reservedAt with
  | none => simp [isReservedWithin, reserved]
  | some time =>
    have bound := Time.Instant.since_lt_longest (t := now) (u := time)
    simp only [isReservedWithin, reserved, decide_eq_false_iff_not, Option.some.injEq, forall_eq']
    have capped : window.capped.nanoseconds =
        min window.nanoseconds Time.Span.longest.nanoseconds := rfl
    omega

/-- Nobody claims a record at the time at which it is reserved. -/
theorem reservedAt_ne (free : r.isReservedWithin now window = false)
    (positive : r.reservedAt ≠ none → 0 < window.nanoseconds) : r.reservedAt ≠ some now := by
  intro reserved
  have waited := isReservedWithin_eq_false_iff.mp free now reserved
  have positive := positive (by rw [reserved]; exact Option.some_ne_none now)
  rw [Time.Instant.since_self] at waited
  omega

end Record

end JobQueue
