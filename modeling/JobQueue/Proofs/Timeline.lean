import JobQueue.Proofs.Host
import JobQueue.Timeline

/-!
# Virtual time is a schedule

Whatever a timeline does with its host while a caller waits, it does by moves in the pools of the
processors, one after the other (`goes_await`): which of those that are possible it makes, and when,
is all that virtual time decides. A call that shuts a processor down begins with that
(`shutdown_begins`), and `stop` empties the host before that, whatever it returns (`stop_begins`).
-/

namespace JobQueue

def Host.Event.isMove : Host.Event → Bool
  | done _ (.moved _) => true
  | _ => false

theorem Host.Event.isStart_of_isMove {e : Host.Event} (moves : e.isMove = true) :
    e.isStart = false := by
  cases e with
  | started => cases moves
  | _ => rfl

namespace Timeline

open Time (Span)

variable {σ : Type} [RecordStore σ] {t t' t'' : Timeline σ} {processor : Nat} {a : Actor}
  {m : Pool.Move}

def Goes (t t' : Timeline σ) : Prop :=
  ∃ events, (∀ e ∈ events, e.isMove = true) ∧ Trace Host.Step t.host events t'.host

theorem Goes.of_host (same : t'.host = t.host) : t.Goes t' := ⟨[], by simp, same ▸ .nil _⟩

theorem Goes.trans (first : t.Goes t') (second : t'.Goes t'') : t.Goes t'' := by
  obtain ⟨events, moves, first⟩ := first
  obtain ⟨more, moves', second⟩ := second
  refine ⟨events ++ more, fun e member => ?_, first.append second⟩
  exact (List.mem_append.mp member).elim (moves e) (moves' e)

theorem Goes.pass (goes : t.Goes t') (time : Nat) : t.Goes { t' with now := time } := goes

theorem goes_foldl {α : Type} {f : Timeline σ → α → Timeline σ}
    (each : ∀ (t : Timeline σ) x, t.Goes (f t x)) (xs : List α) (t : Timeline σ) :
    t.Goes (xs.foldl f t) := by
  induction xs generalizing t with
  | nil => exact .of_host rfl
  | cons x xs ih => exact (each t x).trans (ih (f t x))

-- ---------------------------------------------------------------------------
-- Moves
-- ---------------------------------------------------------------------------

theorem goes_of_move? (moves : t.move? processor a m = some t') : t.Goes t' := by
  obtain ⟨w, _, rest⟩ := Option.bind_eq_some_iff.mp moves
  obtain ⟨⟨host, events⟩, made, rest⟩ := Option.bind_eq_some_iff.mp rest
  obtain ⟨p, _, rest⟩ := Option.bind_eq_some_iff.mp rest
  obtain rfl := Option.some.inj rest
  obtain ⟨b, _, acts⟩ := Host.exists_acts made
  exact ⟨[.done processor (.moved b)], by simp [Host.Event.isMove], .single (.done acts)⟩

theorem goes_getD_move? (t : Timeline σ) : t.Goes ((t.move? processor a m).getD t) := by
  cases moves : t.move? processor a m with
  | none => exact .of_host rfl
  | some t' => exact goes_of_move? moves

theorem goes_of_advance? (advances : t.advance? processor a = some t') : t.Goes t' := by
  obtain ⟨w, _, rest⟩ := Option.bind_eq_some_iff.mp advances
  obtain ⟨p, _, rest⟩ := Option.bind_eq_some_iff.mp rest
  obtain ⟨m, _, moves⟩ := Option.bind_eq_some_iff.mp rest
  exact goes_of_move? moves

omit [RecordStore σ] in
theorem host_enlist : (t.enlist processor a).host = t.host := by
  unfold enlist
  split <;> rfl

-- ---------------------------------------------------------------------------
-- Everybody in turn
-- ---------------------------------------------------------------------------

theorem goes_exhaust (processor : Nat) (a : Actor) (budget : Nat) (t : Timeline σ) :
    t.Goes (exhaust processor a budget t) := by
  induction budget generalizing t with
  | zero => exact .of_host rfl
  | succ budget ih =>
    rw [exhaust]
    split
    · exact .of_host host_enlist
    · next t' advances =>
      have first := goes_of_advance? advances
      split
      · exact first
      · exact first.trans (ih t')

theorem goes_roundAt (budget : Nat) (awaited : List Nat) (t : Timeline σ) (processor : Nat) :
    t.Goes (t.roundAt budget awaited processor) := by
  unfold roundAt
  split
  · exact .of_host rfl
  · next p _ =>
    have workers := (goes_exhaust processor .feeder budget t).trans
      (goes_foldl (fun t seat => goes_exhaust processor (.worker seat) budget t)
        (List.range p.seats.length) _)
    dsimp only
    split
    · exact workers
    · exact workers.trans (goes_exhaust processor .batch budget _)

theorem goes_round (budget : Nat) (awaited : List Nat) (t : Timeline σ) :
    t.Goes (t.round budget awaited) :=
  goes_foldl (goes_roundAt budget awaited) _ t

theorem goes_quiesce (awaited : List Nat) (budget : Nat) (t : Timeline σ) :
    t.Goes (quiesce awaited budget t) := by
  induction budget generalizing t with
  | zero => exact .of_host rfl
  | succ budget ih =>
    have first := goes_round (budget + 1) awaited t
    rw [quiesce]
    split
    · exact first
    · exact first.trans (ih _)

theorem goes_serveBatches (awaited : List Nat) (processor budget : Nat) (t : Timeline σ) :
    t.Goes (serveBatches awaited processor budget t) := by
  induction budget generalizing t with
  | zero => exact .of_host rfl
  | succ budget ih =>
    rw [serveBatches]
    split
    · split
      · next t' advances => exact (goes_of_advance? advances).trans (ih t')
      · exact .of_host rfl
    · exact .of_host rfl

theorem goes_serve (budget : Nat) (awaited : List Nat) (t : Timeline σ) :
    t.Goes (t.serve budget awaited) :=
  goes_foldl (fun t processor => (goes_serveBatches awaited processor budget t).trans
    (goes_exhaust processor .closer budget _)) _ t

theorem goes_beginAll (t : Timeline σ) : t.Goes t.beginAll := by
  have cleared : t.Goes { t with unbegun := [] } := .of_host rfl
  exact cleared.trans (goes_foldl (fun t _ => goes_getD_move? t) _ _)

-- ---------------------------------------------------------------------------
-- Waiting
-- ---------------------------------------------------------------------------

theorem goes_runUntil (isOver : Timeline σ → Bool) (awaited : List Nat) (wakeAt? : Option Nat)
    (budget : Nat) (t : Timeline σ) : t.Goes (runUntil isOver awaited wakeAt? budget t) := by
  induction budget generalizing t with
  | zero => exact .of_host rfl
  | succ budget ih =>
    have served := ((goes_beginAll t).trans (goes_quiesce awaited (budget + 1) _)).trans
      (goes_serve (budget + 1) awaited _)
    rw [runUntil]
    split
    · exact served
    · split
      · exact served.trans (ih _)
      · split
        · next time _ => exact (served.pass time).trans (ih _)
        · exact served

/-- A caller who waits only lets others, and itself, move. -/
theorem goes_await (isOver : Timeline σ → Bool) (awaited : List Nat) (wakeAt? : Option Nat)
    (t : Timeline σ) : t.Goes (t.await isOver awaited wakeAt?) := by
  have served := goes_serve patience awaited t
  unfold await
  dsimp only
  split
  · exact served
  · exact served.trans (goes_runUntil isOver awaited wakeAt? patience _)

-- ---------------------------------------------------------------------------
-- Shutting down
-- ---------------------------------------------------------------------------

theorem exists_move? {w : Waits} {host : Host σ} {events : List Pool.Event}
    (waits : t.waits[processor]? = some w)
    (moves : t.host.move? t.clock.now processor m = some (host, events)) :
    ∃ t', t.move? processor a m = some t' ∧ t'.host = host := by
  obtain ⟨b, _, acts⟩ := Host.exists_acts moves
  obtain ⟨P, p', its, _, touches⟩ := acts.touches
  have there : host.pool? processor = some p' := by simp [Host.pool?, touches.getElem? its]
  refine ⟨{ t.withWaits processor (w.afterMove t.now a m p') with
    host
    clock := t.clock.next
    seen := events.reverse.map (Sighting.mk processor) ++ t.seen
    moves := t.moves + 1 }, ?_, rfl⟩
  simp [move?, waits, moves, there]

/-- A call to shut a processor down closes its pool at once, and then waits. -/
theorem shutdown_begins {w : Waits} {P : Processor σ} (timeout : Span) (sound : t.host.IsSound)
    (waits : t.waits[processor]? = some w) (its : t.host.processors[processor]? = some P) :
    ∃ b events, b.move = .shutdown ∧ (∀ e ∈ events, e.isMove = true) ∧
      Trace Host.Step t.host (.done processor (.moved b) :: events)
        (t.shutdown processor timeout).2.host := by
  obtain ⟨host, seen, moves⟩ := Host.exists_move? sound its t.clock.now .shutdown fun _ => ⟨_, rfl⟩
  obtain ⟨b, closes, acts⟩ := Host.exists_acts moves
  -- the deadline is noted before the call
  let noted := t.withWaits processor { w with closeBy := t.now + timeout.waitMilliseconds }
  have inside := (List.getElem?_eq_some_iff.mp waits).1
  have there : noted.waits[processor]? =
      some { w with closeBy := t.now + timeout.waitMilliseconds } := by
    simp [noted, withWaits, inside]
  obtain ⟨called, calls, same⟩ := exists_move? (a := .closer) there moves
  let isOver (t' : Timeline σ) : Bool :=
    (t.shutResults processor).length < (t'.shutResults processor).length
  have ends : (t.shutdown processor timeout).2 = called.await isOver [] none := by
    have calls : noted.move? processor .closer .shutdown = some called := calls
    simp only [shutdown, waits]
    rw [calls]
    rfl
  obtain ⟨events, later, goes⟩ := goes_await isOver [] none called
  refine ⟨b, events, closes, later, ?_⟩
  have first : Trace Host.Step t.host [.done processor (.moved b)] called.host :=
    same ▸ .single (.done acts)
  rw [ends]
  exact first.append goes

/-- Stopping empties the host at once, and then shuts the processor down that ran, if any. -/
theorem stop_begins (timeout : Span) (sound : t.host.IsSound)
    (waits : t.host.processors.length ≤ t.waits.length) : ∃ events,
      Trace Host.Step t.host (.stopped t.host.current :: events) (t.stop timeout).2.host ∧
      (∀ e ∈ events, e.isMove = true) ∧
      ∀ n, t.host.current = some n →
        ∃ b, b.move = .shutdown ∧ events.head? = some (.done n (.moved b)) := by
  have stops : t.host.Step (.stopped t.host.current) t.host.forget.2 := .stopped
  cases running : t.host.current with
  | none =>
    rw [running] at stops
    refine ⟨[], ?_, by simp, nofun⟩
    simpa [stop, Host.forget, running] using .single stops
  | some n =>
    rw [running] at stops
    obtain ⟨P, its⟩ := sound.running running
    have inside := (List.getElem?_eq_some_iff.mp its).1.trans_le waits
    let emptied : Timeline σ := { t with host := t.host.forget.2 }
    obtain ⟨b, events, closes, moves, shuts⟩ := shutdown_begins (t := emptied) timeout
      (stops.isSound sound) (List.getElem?_eq_getElem inside) its
    have ends : (t.stop timeout).2 = (emptied.shutdown n timeout).2 := by
      simp only [stop, Host.forget, running]
      rfl
    refine ⟨.done n (.moved b) :: events, ends ▸ (Trace.single stops).append shuts,
      by simpa [Host.Event.isMove] using moves, ?_⟩
    · intro m same
      obtain rfl := Option.some.inj same
      exact ⟨b, closes, rfl⟩

end Timeline

end JobQueue
