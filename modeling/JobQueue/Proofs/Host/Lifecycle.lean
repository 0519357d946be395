import JobQueue.Proofs.Timeline
import Mathlib.Data.List.DropRight

/-!
# The life of a processor

A host is empty exactly if nobody started a processor after the last stop (`current_eq_none_iff`).
The first start after a stop makes a processor, with the settings and the store that it asks for,
and it is what everybody is given until the next stop (`isGiven_of_start`). A stop leaves the host
empty, however the shutdown of the processor ends. None of the batches begins then that have not
begun before, whoever still has the processor at hand, and a processor that is started meanwhile is
another one (`lifecycle`).
-/

namespace JobQueue.Host

open Time (Instant)

variable {σ : Type} [RecordStore σ] {stores : List σ} {before after events : List Event}
  {c h : Host σ} {e : Event} {n : Nat} {P : Processor σ}

/-- Whether no call to start a processor came after the last one to stop it. -/
def NoneStarted (events : List Event) : Prop :=
  ∀ e ∈ events.rtakeWhile fun e => !e.isStop, e.isStart = false

theorem noneStarted_snoc :
    NoneStarted (events ++ [e]) ↔ e.isStop = true ∨ e.isStart = false ∧ NoneStarted events := by
  unfold NoneStarted
  rw [List.rtakeWhile_concat]
  cases stop : e.isStop with
  | true => simp
  | false => simp [or_imp, forall_and, and_comm]

theorem NoneStarted.append (none : NoneStarted events) (quiet : ∀ e ∈ after, e.isStart = false) :
    NoneStarted (events ++ after) := by
  induction after using List.reverseRecOn with
  | nil => simpa using none
  | append_singleton after e ih =>
    rw [← List.append_assoc, noneStarted_snoc]
    exact .inr ⟨quiet e (by simp), ih fun e earlier => quiet e (List.mem_append_left _ earlier)⟩

theorem current_eq_none_iff (run : Trace Step (ofStores stores) events h) :
    h.current = none ↔ NoneStarted events := by
  induction run with
  | nil => exact iff_of_true rfl (by simp [NoneStarted])
  | snoc _ last ih => rw [last.none_iff, ih, noneStarted_snoc]

/-- Whether a start gave a new processor: nobody was given it before, everybody is until the next
stop, and it has the settings and the store of that start and goes on by what is done with it
alone. -/
structure IsGiven (before : List Event) (settings : Settings) (store n : Nat) (during : List Event)
    (h : Host σ) : Prop where
  new : ∀ e ∈ before, e.answer? ≠ some (.ok n)
  runs : (∀ e ∈ during, e.isStop = false) → h.get = .ok n ∧ h.processors.length = n + 1 ∧
    ∀ e ∈ during, ∀ a, e.answer? = some a → a = .ok n
  own : ∃ P, h.processors[n]? = some P ∧ P.pool.settings = settings ∧ P.store = store ∧
    Trace Pool.Does (.start settings .empty) (during.filterMap (Event.deed? n)) P.pool ∧
    (P.pool.accepting = true ↔ ∀ deed ∈ during.filterMap (Event.deed? n), deed.closes = false)

/-- Whether a processor begins none of the batches that have not begun: each is refused as soon as
it is next, and it is next as soon as no other batch has its turn. -/
def Retires (c : Host σ) (n : Nat) (after : List Event) (h : Host σ) : Prop :=
  ∃ P P', c.processors[n]? = some P ∧ h.processors[n]? = some P' ∧
    P.pool.Dismisses (after.filterMap (Event.deed? n)) P'.pool ∧
    (P'.pool.served? = none → P'.pool.line ≠ [] →
      ∀ now, ∃ h' events, h.move? now n .begin = some (h', events))

theorem isGiven_of_start {settings : Settings} {store : Nat} {during : List Event}
    (run : Trace Step (ofStores stores) before c) (none : NoneStarted before)
    (later : Trace Step c (.started settings store n :: during) h) :
    IsGiven before settings store n during h := by
  have vacant := (current_eq_none_iff run).mpr none
  obtain ⟨c', first, rest⟩ := later.cons_cases
  generalize named : Event.started settings store n = e at first
  cases first with
  | started there =>
    rw [start_of_none vacant] at named rest
    obtain ⟨rfl, rfl, rfl⟩ := Event.started.inj named
    obtain ⟨P, its, bound, does⟩ := exists_processor_of_trace rest List.getElem?_concat_length
    refine ⟨fun e member given => ?_, fun stays => ?_, P, its, ?_, bound, does, ?_⟩
    · obtain ⟨Q, had⟩ := exists_of_answer run member given
      exact absurd (List.getElem?_eq_some_iff.mp had).1 (Nat.lt_irrefl _)
    · obtain ⟨running, length, answers⟩ := stays_of_trace rest rfl stays
      exact ⟨get_eq_ok_iff.mpr running, by simpa using length, answers⟩
    · exact Pool.settings_of_trace does
    · simpa [Pool.start] using Pool.accepting_iff_of_trace does
  | _ => cases named

theorem retires_of_dismisses (sound : c.IsSound) (run : Trace Step c after h)
    (there : c.processors[n]? = some P)
    (dismisses : ∀ {p'}, Trace Pool.Does P.pool (after.filterMap (Event.deed? n)) p' →
      P.pool.Dismisses (after.filterMap (Event.deed? n)) p') : c.Retires n after h := by
  obtain ⟨P', there', _, does⟩ := exists_processor_of_trace run there
  have sound := run.keeps (fun sound step => step.isSound sound) sound
  refine ⟨P, P', there, there', dismisses does, fun idle waits now => ?_⟩
  exact exists_move? sound there' now .begin fun store => Pool.exists_begin idle waits now store

/-- From the call to shut a processor down on, it begins no batch. -/
theorem retires_of_closes {deed : Pool.Deed} (sound : c.IsSound)
    (run : Trace Step c (.done n deed :: after) h) (closes : deed.closes = true) :
    c.Retires n (.done n deed :: after) h := by
  obtain ⟨_, closing, _⟩ := run.cons_cases
  cases closing with
  | done acts =>
    obtain ⟨P, _, there, _⟩ := acts.touches
    refine retires_of_dismisses sound run there fun does => ?_
    rw [Event.filterMap_done] at does ⊢
    exact Pool.dismisses_of_closes does closes

theorem retires_of_closed {deed : Pool.Deed} (run : Trace Step (ofStores stores) before c)
    (later : Trace Step c after h) (closed : .done n deed ∈ before) (closes : deed.closes = true) :
    c.Retires n after h := by
  obtain ⟨first, second, rfl⟩ := List.append_of_mem closed
  obtain ⟨b, _, rest⟩ := run.cut
  obtain ⟨_, closing, _⟩ := rest.cons_cases
  cases closing with
  | done acts =>
    obtain ⟨_, _, had, _⟩ := acts.touches
    obtain ⟨P, there, _, does⟩ := exists_processor_of_trace rest had
    have refuses : P.pool.accepting = false := by
      rw [Bool.eq_false_iff, ne_eq, Pool.accepting_iff_of_trace does, Event.filterMap_done]
      simp [closes]
    exact retires_of_dismisses (isSound_of_trace run) later there fun does =>
      Pool.dismisses_of_trace does refuses

/-- Whatever callers do, those who start or get a processor between two stops are given the one that
the first start after the earlier stop made, and nobody gets one if there was no such start. A stop
leaves the host empty, however the shutdown ends, and begins with the call that closes the pool.
From then on the batches that have not begun are refused. -/
theorem lifecycle (run : Trace Step (ofStores stores) before c) (later : Trace Step c after h) :
    ((h.get = .error .notInitialized ↔ NoneStarted (before ++ after)) ∧
      ∀ answer rest, after = .got answer :: rest →
        (answer = .error .notInitialized ↔ NoneStarted before)) ∧
    (∀ settings store n during, NoneStarted before → after = .started settings store n :: during →
      IsGiven before settings store n during h) ∧
    (∀ (t : Timeline σ) timeout, t.host = h → h.processors.length ≤ t.waits.length → ∃ events,
      Trace Step (ofStores stores) (before ++ after ++ .stopped h.current :: events)
        (t.stop timeout).2.host ∧
      (t.stop timeout).2.host.get = .error .notInitialized ∧
      (∀ e ∈ events, e.isMove = true) ∧
      ∀ n, h.get = .ok n →
        (∃ b, b.move = .shutdown ∧ events.head? = some (.done n (.moved b))) ∧
        h.Retires n events (t.stop timeout).2.host) ∧
    ∀ n deed, .done n deed ∈ before → deed.closes = true → c.Retires n after h := by
  have whole := run.append later
  refine ⟨⟨?_, ?_⟩, ?_, ?_, fun n deed => retires_of_closed run later⟩
  · rw [get_eq_error_iff, current_eq_none_iff whole]
    simp
  · rintro answer rest rfl
    obtain ⟨_, first, _⟩ := later.cons_cases
    generalize named : Event.got answer = e at first
    cases first with
    | got =>
      rw [Event.got.inj named, get_eq_error_iff, current_eq_none_iff run]
      simp
    | _ => cases named
  · rintro settings store n during none rfl
    exact isGiven_of_start run none later
  · rintro t timeout rfl waits
    have sound := isSound_of_trace whole
    obtain ⟨events, stops, moves, shuts⟩ := t.stop_begins timeout sound waits
    refine ⟨events, whole.append stops, ?_, moves, fun n running => ?_⟩
    · have ends : Trace Step (ofStores stores) _ (t.stop timeout).2.host := whole.append stops
      rw [List.append_cons] at ends
      rw [get_eq_error_iff, current_eq_none_iff ends]
      refine ⟨.append (noneStarted_snoc.mpr (.inl rfl)) fun e member => ?_, rfl⟩
      exact Event.isStart_of_isMove (moves e member)
    · obtain ⟨b, closes, first⟩ := shuts n (get_eq_ok_iff.mp running)
      refine ⟨⟨b, closes, first⟩, ?_⟩
      obtain ⟨rest, rfl⟩ := List.head?_eq_some_iff.mp first
      obtain ⟨_, empties, shuts⟩ := stops.cons_cases
      cases empties with
      | stopped =>
        have retires : t.host.forget.2.Retires n _ _ :=
          retires_of_closes (Step.stopped.isSound sound) shuts (decide_eq_true closes)
        exact retires

-- ---------------------------------------------------------------------------
-- Hosts that are played
-- ---------------------------------------------------------------------------

/-- A call at a host, or a move in the pool of a processor, at second 0. -/
inductive Cue
  | start (settings : Settings) (store : Nat)
  | get
  | stop
  | move (processor : Nat) (m : Pool.Move)

def cue? (h : Host σ) : Cue → Option (Event × Host σ)
  | .start settings store =>
    if store < h.stores.length then
      some (.started settings store (h.start settings store).1, (h.start settings store).2)
    else none
  | .get => some (.got h.get, h)
  | .stop => some (.stopped h.forget.1, h.forget.2)
  | .move n m => (h.pool? n).bind fun p => (h.move? .epoch n m).map fun (h', events) =>
      (.done n (.moved ⟨.epoch, m, p.notice? m, events⟩), h')

theorem step_of_cue? {h' : Host σ} {q : Cue} (cue : h.cue? q = some (e, h')) : Step h e h' := by
  cases q with
  | start settings store =>
    obtain ⟨there, same⟩ := Option.ite_none_right_eq_some.mp cue
    obtain ⟨rfl, rfl⟩ := Prod.mk.inj (Option.some.inj same)
    exact .started there
  | get =>
    obtain ⟨rfl, rfl⟩ := Prod.mk.inj (Option.some.inj cue)
    exact .got
  | stop =>
    obtain ⟨rfl, rfl⟩ := Prod.mk.inj (Option.some.inj cue)
    exact .stopped
  | move n m =>
    obtain ⟨p, its, rest⟩ := Option.bind_eq_some_iff.mp cue
    obtain ⟨⟨h', events⟩, moves, same⟩ := Option.map_eq_some_iff.mp rest
    obtain ⟨rfl, rfl⟩ := Prod.mk.inj same
    exact .done (.moved its moves)

/-- A processor is stopped while a worker is busy and a batch waits. -/
def missedDeadline : List Cue :=
  .start ⟨1, 300, 30, 300⟩ 0 ::
    [.submit 0 [{ Pool.strayRecord "a" with collection := queueCollection }], .begin, .feed,
      .take 0, .submit 1 [Pool.strayRecord "b"]].map (.move 0) ++
    .stop :: [.shutdown, .deadline].map (.move 0)

/-- The batch that waits gets its turn while another processor runs. -/
def oldHandle : List Cue := .get :: [.expire, .begin].map (.move 0)

theorem lifecycle_missedDeadline : ∃ before during, ∃ c h : Host MemoryStore,
    Trace Step (ofStores [Keyed.empty]) before c ∧
      Trace Step c (.started ⟨2, 300, 30, 300⟩ 0 1 :: during) h ∧
      h.get = .ok 1 ∧ (∃ P, h.processors[1]? = some P ∧ P.pool.accepting = true) ∧
      c.Retires 0 (.started ⟨2, 300, 30, 300⟩ 0 1 :: during) h ∧
      (during.filterMap (Event.deed? 0)).flatMap Pool.Deed.begun =
        [(1, Pool.refusal [Pool.strayRecord "b"])] ∧
      ∀ clock timeout,
        ((Timeline.start clock h).stop timeout).2.host.get = .error .notInitialized := by
  have checked : (Trace.play? cue? (ofStores [Keyed.empty] : Host MemoryStore) missedDeadline).any
      fun (before, c) =>
        (before.rtakeWhile fun e => !e.isStop).all (fun e => !e.isStart) &&
          (before.filterMap (Event.deed? 0)).any Pool.Deed.closes && c.stores.length == 1 &&
          c.processors.length == 1 &&
          (Trace.play? cue? (c.start ⟨2, 300, 30, 300⟩ 0).2 oldHandle).any fun (during, _) =>
            during.all (fun e => !e.isStop) && (during.filterMap (Event.deed? 1)).isEmpty &&
              (during.filterMap (Event.deed? 0)).flatMap Pool.Deed.begun ==
                [(1, Pool.refusal [Pool.strayRecord "b"])] := by
    decide +kernel
  obtain ⟨before, c, run, checked⟩ := Trace.exists_of_play? step_of_cue? checked
  simp only [Bool.and_eq_true, beq_iff_eq] at checked
  obtain ⟨⟨⟨⟨none, closed⟩, stores⟩, processors⟩, played⟩ := checked
  obtain ⟨during, h, rest, checked⟩ := Trace.exists_of_play? step_of_cue? played
  simp only [Bool.and_eq_true, beq_iff_eq, List.isEmpty_iff] at checked
  obtain ⟨⟨stays, untouched⟩, refused⟩ := checked
  have none : NoneStarted before := by simpa [NoneStarted] using none
  have stays : ∀ e ∈ during, e.isStop = false := by simpa using stays
  have first : c.Step (.started ⟨2, 300, 30, 300⟩ 0 1) (c.start ⟨2, 300, 30, 300⟩ 0).2 := by
    have its : (c.start ⟨2, 300, 30, 300⟩ 0).1 = 1 := by
      rw [start_of_none ((current_eq_none_iff run).mpr none), processors]
    exact its ▸ .started (by simp [stores])
  obtain ⟨deed, member, closes⟩ := List.any_eq_true.mp closed
  obtain ⟨e, closed, its⟩ := List.mem_filterMap.mp member
  obtain rfl := Event.deed?_eq_some_iff.mp its
  have later : Trace Step c (.started ⟨2, 300, 30, 300⟩ 0 1 :: during) h :=
    (Trace.single first).append rest
  obtain ⟨_, given, stops, retires⟩ := lifecycle run later
  have given := given _ _ _ _ none rfl
  obtain ⟨P, there, _, _, _, accepting⟩ := given.own
  refine ⟨before, during, c, h, run, later, (given.runs stays).1, ⟨P, there, ?_⟩,
    retires 0 deed closed closes, refused, fun clock timeout => ?_⟩
  · rw [accepting, untouched]
    simp
  · obtain ⟨_, _, empty, _⟩ := stops (.start clock h) timeout rfl (by simp [Timeline.start])
    exact empty

end JobQueue.Host
