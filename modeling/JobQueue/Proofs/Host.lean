import JobQueue.Host
import JobQueue.Proofs.Pool.Closed

/-!
# What happens at a host

Callers start processors, ask for the one that runs and stop it, and go on with those that they have
at hand. A step of a host is one of these, or somebody writes to the stores. What is done with a
processor changes its pool alone, so a processor goes its own way, whatever happens to the host and
to the others meanwhile (`exists_processor_of_trace`).
-/

namespace JobQueue.Host

open Time (Instant)

variable {σ : Type} {h h' : Host σ} {n m : Nat} {P : Processor σ} {p p' : Pool σ} {store : σ}

-- ---------------------------------------------------------------------------
-- Work on one processor
-- ---------------------------------------------------------------------------

/-- Whether hosts differ in the pool of one processor and in what is stored alone. -/
structure Touches (h : Host σ) (n : Nat) (p' : Pool σ) (h' : Host σ) : Prop where
  processors : h'.processors = h.processors.modify n fun P => { P with pool := p' }
  current : h'.current = h.current
  stores : h'.stores.length = h.stores.length

theorem touches_withPool : h.Touches n p' (h.withPool n p') := ⟨rfl, rfl, rfl⟩

theorem Touches.withStoreOf (touches : h.Touches n p' h') :
    h.Touches n p' (h'.withStoreOf m store) := by
  unfold Host.withStoreOf
  split
  · exact ⟨touches.processors, touches.current, by simpa using touches.stores⟩
  · exact touches

theorem Touches.getElem? (touches : h.Touches n p' h') (its : h.processors[m]? = some P) :
    h'.processors[m]? = some (if n = m then { P with pool := p' } else P) := by
  rw [touches.processors, List.getElem?_modify, its]
  split <;> rfl

theorem pool?_eq_some_iff : h.pool? n = some p ↔ ∃ P, h.processors[n]? = some P ∧ P.pool = p :=
  Option.map_eq_some_iff

inductive Acts [RecordStore σ] : Host σ → Nat → Pool.Deed → Host σ → Prop
  | moved {h h' : Host σ} {n : Nat} {p : Pool σ} {now : Instant} {m : Pool.Move}
      {events : List Pool.Event} (its : h.pool? n = some p)
      (moves : h.move? now n m = some (h', events)) :
      Acts h n (.moved ⟨now, m, p.notice? m, events⟩) h'
  | registered {h h' : Host σ} {n : Nat} {p : Pool σ} {type : String} {handler : Handler σ}
      (its : h.pool? n = some p) (registers : h.register n type handler = .ok h') :
      Acts h n (.registered type) h'

section
variable [RecordStore σ] {deed : Pool.Deed}

theorem move?_cases {now : Instant} {m : Pool.Move} {events : List Pool.Event}
    (its : h.pool? n = some p) (moves : h.move? now n m = some (h', events)) :
    ∃ store p' store', h.storeOf? n = some store ∧ p.step? now store m = some (p', store', events) ∧
      h' = (h.withPool n p').withStoreOf n store' := by
  obtain ⟨q, there, rest⟩ := Option.bind_eq_some_iff.mp moves
  obtain rfl := Option.some.inj (its.symm.trans there)
  obtain ⟨store, stored, rest⟩ := Option.bind_eq_some_iff.mp rest
  obtain ⟨⟨p', store', events'⟩, step, same⟩ := Option.bind_eq_some_iff.mp rest
  obtain ⟨rfl, rfl⟩ := Prod.mk.inj (Option.some.inj same)
  exact ⟨store, p', store', stored, step, rfl⟩

theorem exists_acts {now : Instant} {m : Pool.Move} {events : List Pool.Event}
    (moves : h.move? now n m = some (h', events)) :
    ∃ b : Pool.Beat, b.move = m ∧ h.Acts n (.moved b) h' := by
  obtain ⟨p, its, _⟩ := Option.bind_eq_some_iff.mp moves
  exact ⟨⟨now, m, p.notice? m, events⟩, rfl, .moved its moves⟩

theorem Acts.touches (acts : h.Acts n deed h') : ∃ P p', h.processors[n]? = some P ∧
    P.pool.Does deed p' ∧ h.Touches n p' h' := by
  cases acts with
  | moved its moves =>
    obtain ⟨P, there, rfl⟩ := pool?_eq_some_iff.mp its
    obtain ⟨_, p', _, _, step, rfl⟩ := move?_cases its moves
    exact ⟨P, p', there, .moved (.of step), touches_withPool.withStoreOf⟩
  | registered its registers =>
    obtain ⟨P, there, rfl⟩ := pool?_eq_some_iff.mp its
    unfold register at registers
    simp only [its] at registers
    split at registers
    · next registry registers' =>
      cases registers
      exact ⟨P, _, there, .registered registers', touches_withPool⟩
    · cases registers

end

-- ---------------------------------------------------------------------------
-- Steps
-- ---------------------------------------------------------------------------

inductive Event
  /-- A caller asks for a processor to be started, and gets one. -/
  | started (settings : Settings) (store processor : Nat)
  /-- A caller asks for the processor that runs. -/
  | got (answer : Except ProcessorError Nat)
  /-- A caller stops the processor that runs, if any, and has it to shut down from then on. -/
  | stopped (running? : Option Nat)
  /-- Somebody who has a processor at hand does something with it. -/
  | done (processor : Nat) (deed : Pool.Deed)
  /-- Somebody writes to the stores, or opens a new one. -/
  | wrote

namespace Event

def isStart : Event → Bool
  | started _ _ _ => true
  | _ => false

def isStop : Event → Bool
  | stopped _ => true
  | _ => false

def answer? : Event → Option (Except ProcessorError Nat)
  | started _ _ processor => some (.ok processor)
  | got answer => some answer
  | _ => none

def deed? (processor : Nat) : Event → Option Pool.Deed
  | done n deed => if n = processor then some deed else none
  | _ => none

end Event

/-- One step of a host. A processor is started on a store that is there. -/
inductive Step [RecordStore σ] : Host σ → Event → Host σ → Prop
  | started {h : Host σ} {settings : Settings} {store : Nat} (there : store < h.stores.length) :
      Step h (.started settings store (h.start settings store).1) (h.start settings store).2
  | got {h : Host σ} : Step h (.got h.get) h
  | stopped {h : Host σ} : Step h (.stopped h.forget.1) h.forget.2
  | done {h h' : Host σ} {processor : Nat} {deed : Pool.Deed} (acts : h.Acts processor deed h') :
      Step h (.done processor deed) h'
  | wrote {h : Host σ} {stores : List σ} (kept : h.stores.length ≤ stores.length) :
      Step h .wrote { h with stores }

section
variable [RecordStore σ] {e : Event} {events : List Event} {settings : Settings}

theorem Event.deed?_eq_some_iff {deed : Pool.Deed} : e.deed? n = some deed ↔ e = .done n deed := by
  cases e <;> simp [deed?]

theorem Event.filterMap_done {deed : Pool.Deed} :
    (Event.done n deed :: events).filterMap (Event.deed? n) =
      deed :: events.filterMap (Event.deed? n) :=
  List.filterMap_cons_some (if_pos rfl)

theorem Event.filterMap_snoc (processor : Nat) : (events ++ [e]).filterMap (Event.deed? processor) =
    events.filterMap (Event.deed? processor) ++ (e.deed? processor).toList := by
  rw [List.filterMap_append]
  cases its : e.deed? processor <;> simp [its]

-- ---------------------------------------------------------------------------
-- The processor that runs
-- ---------------------------------------------------------------------------

omit [RecordStore σ] in
theorem start_of_running (running : h.current = some n) (settings : Settings) (store : Nat) :
    h.start settings store = (n, h) := by
  rw [start, running]

omit [RecordStore σ] in
theorem start_of_none (none : h.current = none) (settings : Settings) (store : Nat) :
    h.start settings store = (h.processors.length,
      { h with
        processors := h.processors ++ [⟨.start settings .empty, store⟩]
        current := some h.processors.length }) := by
  rw [start, none]

omit [RecordStore σ] in
theorem get_eq_ok_iff : h.get = .ok n ↔ h.current = some n := by
  unfold get
  split
  · next running its => simp [its]
  · next none => simp [none]

omit [RecordStore σ] in
theorem get_eq_error_iff {e : ProcessorError} :
    h.get = .error e ↔ h.current = none ∧ e = .notInitialized := by
  unfold get
  split
  · next running its => simp [its]
  · next none => simp [none, eq_comm]

/-- As long as nobody stops it, the processor that runs is what every caller is given, and there are
no new ones. -/
theorem Step.stays (step : Step h e h') (running : h.current = some n) (stays : e.isStop = false) :
    h'.current = some n ∧ h'.processors.length = h.processors.length ∧
      ∀ a, e.answer? = some a → a = .ok n := by
  cases step with
  | started =>
    rw [start_of_running running]
    exact ⟨running, rfl, fun a its => (Option.some.inj its).symm⟩
  | got =>
    refine ⟨running, rfl, fun a its => (Option.some.inj its).symm.trans ?_⟩
    exact get_eq_ok_iff.mpr running
  | stopped => cases stays
  | done acts =>
    obtain ⟨_, _, _, _, touches⟩ := acts.touches
    exact ⟨touches.current.trans running, by rw [touches.processors, List.length_modify], nofun⟩
  | wrote => exact ⟨running, rfl, nofun⟩

theorem stays_of_trace (run : Trace Step h events h') (running : h.current = some n)
    (stays : ∀ e ∈ events, e.isStop = false) :
    h'.current = some n ∧ h'.processors.length = h.processors.length ∧
      ∀ e ∈ events, ∀ a, e.answer? = some a → a = .ok n := by
  induction run with
  | nil => exact ⟨running, rfl, by simp⟩
  | snoc _ last ih =>
    obtain ⟨running, length, answers⟩ :=
      ih fun e earlier => stays e (List.mem_append_left _ earlier)
    obtain ⟨running, length', answer⟩ := last.stays running (stays _ (by simp))
    refine ⟨running, length'.trans length, fun e member => ?_⟩
    rcases List.mem_append.mp member with earlier | here
    · exact answers e earlier
    · exact List.mem_singleton.mp here ▸ answer

/-- Nothing starts a processor but a call to start one, nothing stops it but a call to stop it. -/
theorem Step.none_iff (step : Step h e h') :
    h'.current = none ↔ e.isStop = true ∨ e.isStart = false ∧ h.current = none := by
  cases step with
  | @started settings store there =>
    cases running : h.current with
    | none => simp [start_of_none running, Event.isStop, Event.isStart]
    | some n => simp [start_of_running running, running, Event.isStop, Event.isStart]
  | got => simp [Event.isStop, Event.isStart]
  | stopped => simp [forget, Event.isStop]
  | done acts =>
    obtain ⟨_, _, _, _, touches⟩ := acts.touches
    simp [touches.current, Event.isStop, Event.isStart]
  | wrote => simp [Event.isStop, Event.isStart]

-- ---------------------------------------------------------------------------
-- All processors
-- ---------------------------------------------------------------------------

/-- A processor goes on by what is done with it, and by nothing else. -/
theorem Step.exists_processor (step : Step h e h') (its : h.processors[m]? = some P) :
    ∃ P', h'.processors[m]? = some P' ∧ P'.store = P.store ∧
      Trace Pool.Does P.pool (e.deed? m).toList P'.pool := by
  cases step with
  | @started settings store there =>
    refine ⟨P, ?_, rfl, .nil _⟩
    cases running : h.current with
    | none =>
      have inside := (List.getElem?_eq_some_iff.mp its).1
      simp [start_of_none running, List.getElem?_append_left inside, its]
    | some n => rw [start_of_running running, its]
  | got => exact ⟨P, its, rfl, .nil _⟩
  | stopped => exact ⟨P, its, rfl, .nil _⟩
  | @done _ n deed acts =>
    obtain ⟨Q, p', there, does, touches⟩ := acts.touches
    refine ⟨_, touches.getElem? its, ?_⟩
    by_cases same : n = m
    · subst same
      obtain rfl := Option.some.inj (its.symm.trans there)
      simpa [Event.deed?] using .single does
    · simpa [Event.deed?, same] using .nil _
  | wrote => exact ⟨P, its, rfl, .nil _⟩

theorem exists_processor_of_trace (run : Trace Step h events h') (its : h.processors[m]? = some P) :
    ∃ P', h'.processors[m]? = some P' ∧ P'.store = P.store ∧
      Trace Pool.Does P.pool (events.filterMap (Event.deed? m)) P'.pool := by
  induction run with
  | nil => exact ⟨P, its, rfl, .nil _⟩
  | snoc _ last ih =>
    obtain ⟨Q, there, store, before⟩ := ih
    obtain ⟨Q', there', store', after⟩ := last.exists_processor there
    exact ⟨Q', there', store'.trans store, Event.filterMap_snoc m ▸ before.append after⟩

/-- Whether the processor that runs is there, and so is the store of each processor. -/
structure IsSound (h : Host σ) : Prop where
  running : ∀ {n}, h.current = some n → ∃ P, h.processors[n]? = some P
  stored : ∀ P ∈ h.processors, P.store < h.stores.length

omit [RecordStore σ] in
theorem isSound_ofStores {stores : List σ} : (ofStores stores).IsSound where
  running its := by cases its
  stored _ member := absurd member List.not_mem_nil

omit [RecordStore σ] in
theorem IsSound.touches (sound : h.IsSound) (touches : h.Touches n p' h') : h'.IsSound where
  running its := by
    obtain ⟨P, there⟩ := sound.running (touches.current ▸ its)
    exact ⟨_, touches.getElem? there⟩
  stored P member := by
    obtain ⟨m, there⟩ := List.getElem?_of_mem member
    rw [touches.processors, List.getElem?_modify] at there
    obtain ⟨Q, had, rfl⟩ := Option.map_eq_some_iff.mp there
    have stored := sound.stored Q (List.mem_of_getElem? had)
    rw [touches.stores]
    split <;> exact stored

theorem Step.isSound (step : Step h e h') (sound : h.IsSound) : h'.IsSound := by
  cases step with
  | @started settings store there =>
    cases running : h.current with
    | none =>
      rw [start_of_none running]
      refine ⟨?_, fun P member => ?_⟩
      · rintro n its
        obtain rfl := Option.some.inj its
        exact ⟨_, List.getElem?_concat_length⟩
      · rcases List.mem_append.mp member with earlier | new
        · exact sound.stored P earlier
        · obtain rfl := List.mem_singleton.mp new
          exact there
    | some n =>
      rw [start_of_running running]
      exact sound
  | got => exact sound
  | stopped => exact ⟨nofun, sound.stored⟩
  | done acts =>
    obtain ⟨_, _, _, _, touches⟩ := acts.touches
    exact sound.touches touches
  | wrote kept => exact ⟨sound.running, fun P member => (sound.stored P member).trans_le kept⟩

theorem isSound_of_trace {stores : List σ} (run : Trace Step (ofStores stores) events h) :
    h.IsSound :=
  run.keeps (fun sound step => step.isSound sound) isSound_ofStores

theorem Step.current_of_answer (step : Step h e h') (its : e.answer? = some (.ok n)) :
    h'.current = some n := by
  cases step with
  | @started settings store there =>
    obtain rfl := Except.ok.inj (Option.some.inj its)
    cases running : h.current with
    | none => rw [start_of_none running]
    | some n => rw [start_of_running running, running]
  | got => exact get_eq_ok_iff.mp (Option.some.inj its)
  | _ => cases its

theorem exists_of_answer {stores : List σ} (run : Trace Step (ofStores stores) events h)
    (member : e ∈ events) (its : e.answer? = some (.ok n)) : ∃ P, h.processors[n]? = some P := by
  induction run with
  | nil => cases member
  | snoc before last ih =>
    rcases List.mem_append.mp member with earlier | here
    · obtain ⟨P, there⟩ := ih earlier
      obtain ⟨P', there', _⟩ := last.exists_processor there
      exact ⟨P', there'⟩
    · obtain rfl := List.mem_singleton.mp here
      exact (isSound_of_trace (before.snoc last)).running (last.current_of_answer its)

theorem exists_move? (sound : h.IsSound) (its : h.processors[n]? = some P) (now : Instant)
    (m : Pool.Move) (possible : ∀ store : σ, ∃ next, P.pool.step? now store m = some next) :
    ∃ h' events, h.move? now n m = some (h', events) := by
  have stored := sound.stored P (List.mem_of_getElem? its)
  obtain ⟨⟨p', store', events⟩, step⟩ := possible h.stores[P.store]
  refine ⟨(h.withPool n p').withStoreOf n store', events, ?_⟩
  simp [move?, pool?, storeOf?, its, stored, step]

end

end JobQueue.Host
