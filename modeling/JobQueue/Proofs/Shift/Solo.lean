import JobQueue.Proofs.Shift
import JobQueue.Worker.Process

/-!
# One worker alone

`Worker.process` with nobody else about is a shift of one run, as long as its handlers leave the
store alone: the shift takes the same steps, and ends with the same outcome and the same store.
-/

namespace JobQueue

open Time (Instant Clock)

namespace Worker

variable {σ : Type}

def IsHandsOff (plan : List (Action σ)) : Prop := ∀ f, Action.use f ∉ plan

theorem store_carryOut {plan : List (Action σ)} {desk : Desk σ} (h : IsHandsOff plan) :
    (carryOut desk plan).2.store = desk.store := by
  induction plan generalizing desk with
  | nil => rfl
  | cons action rest ih =>
    have others : IsHandsOff rest := fun f there => h f (List.mem_cons_of_mem _ there)
    cases action with
    | sleep span => exact ih others
    | log entry => exact ih others
    | use f => exact absurd List.mem_cons_self (h f)
    | stop verdict => rfl

def Stage.IsHandsOff : Stage (Handler σ) → Prop
  | handling _ context job handler => Worker.IsHandsOff (handler.plan context job)
  | _ => True

def AreHandsOff (handler? : String → Option (Handler σ)) : Prop :=
  ∀ type handler, handler? type = some handler →
    ∀ context job, IsHandsOff (handler.plan context job)

variable {w : Worker} {handler? : String → Option (Handler σ)} {stage : Stage (Handler σ)}
  {record : Record} {now : Instant} {next : Progress (Handler σ)}

theorem Begun.isHandsOff (begun : Begun w now record next) : next.1.IsHandsOff := by
  cases begun <;> trivial

theorem Dispatched.isHandsOff (dispatched : Dispatched w handler? record next)
    (h : AreHandsOff handler?) : next.1.IsHandsOff := by
  cases dispatched with
  | unread | unhandled => trivial
  | handled read found => exact h _ _ found _ _

theorem isHandsOff_onVerdict {context : Context} {verdict : Verdict} :
    (onVerdict record context verdict : Progress (Handler σ)).1.IsHandsOff := by
  cases verdict <;> trivial

variable [RecordStore σ] {store : σ} {desk : Desk σ} {r : Run (Handler σ)}

theorem Called.isHandsOff (called : Called w handler? now store stage next)
    (h : AreHandsOff handler?) : next.1.IsHandsOff := by
  cases called with
  | claimed => exact (dispatched ..).isHandsOff h
  | _ => trivial

-- ---------------------------------------------------------------------------
-- The shift of one run
-- ---------------------------------------------------------------------------

def Run.Reaches (r : Run (Handler σ)) (start : σ) (outcome : Outcome) (store : σ) : Prop :=
  ∃ deeds r', Trace Shift.Step ⟨start, [r]⟩ deeds ⟨store, [r']⟩ ∧ r'.outcome? = some outcome

theorem Run.Reaches.of_step {r' : Run (Handler σ)} {act : Act} {next last : σ}
    {outcome : Outcome} (step : r.Step now store act r' next) (rest : r'.Reaches next outcome last) :
    r.Reaches store outcome last := by
  obtain ⟨deeds, r'', trace, ended⟩ := rest
  have first : Shift.Step ⟨store, [r]⟩ ⟨0, now, act⟩ ⟨next, [r']⟩ := .of rfl step
  exact ⟨_, r'', (Trace.single first).append trace, ended⟩

theorem Run.Reaches.of_ask {q : Request} {outcome : Outcome} {last : σ} (hr : r.stage = some stage)
    (hq : stage.request? desk.clock.now = some q)
    (rest : (r.goOn (r.worker.call r.handler? desk.clock.now stage desk.store).1).Reaches
      (r.worker.ask r.handler? stage desk).2.store outcome last) :
    r.Reaches desk.store outcome last :=
  .of_step (.ask hr hq) rest

theorem reaches_runFrom (desk : Desk σ) (hr : r.stage = some stage) (hw : r.worker = w)
    (hh : r.handler? = handler?) (hs : stage.IsHandsOff) (h : AreHandsOff handler?) :
    r.Reaches desk.store (w.runFrom handler? stage desk).1
      (w.runFrom handler? stage desk).2.store := by
  induction stage, desk using runFrom.induct w handler? generalizing r with
  | case1 desk record time next =>
    rename_i ih
    subst hw hh
    rw [runFrom]
    exact .of_ask hr rfl (ih rfl rfl rfl ((called _ _ _ _ rfl).isHandsOff h))
  | case2 desk record time next =>
    rename_i ih
    subst hw hh
    rw [runFrom]
    exact .of_ask hr rfl (ih rfl rfl rfl ((called _ _ _ _ rfl).isHandsOff h))
  | case3 desk record context job handler next =>
    rename_i ih
    subst hw hh
    rw [runFrom]
    let verdict := (carryOut desk (handler.plan context job)).1
    have step : r.Step desk.clock.now desk.store (.judged verdict)
      (r.goOn (onVerdict record context verdict)) desk.store := .judge _ hr
    refine .of_step step ?_
    have kept : (carryOut desk (handler.plan context job)).2.store = desk.store :=
      store_carryOut hs
    rw [← kept]
    exact ih rfl rfl rfl isHandsOff_onVerdict
  | case4 desk record next =>
    rename_i ih
    subst hw hh
    rw [runFrom]
    exact .of_ask hr rfl (ih rfl rfl rfl ((called _ _ _ _ rfl).isHandsOff h))
  | case5 desk record cause next =>
    rename_i ih
    subst hw hh
    rw [runFrom]
    exact .of_ask hr rfl (ih rfl rfl rfl ((called _ _ _ _ rfl).isHandsOff h))
  | case6 desk outcome =>
    rw [runFrom]
    exact ⟨[], r, .nil _, by simp [Run.outcome?, hr, Stage.outcome?]⟩

theorem reaches_process {record : Record} (h : AreHandsOff handler?) :
    (Run.fresh w handler? record).Reaches desk.store (w.process handler? record desk).1
      (w.process handler? record desk).2.store := by
  let fresh := Run.fresh w handler? record
  let start : Progress (Handler σ) := w.begin desk.clock.now record
  let ready : Desk σ := { desk.see start.2 with clock := desk.clock.next }
  have first : fresh.Step desk.clock.now desk.store .begun
    (fresh.goOn start) desk.store := .begin rfl
  exact .of_step first (reaches_runFrom ready rfl rfl rfl (begun ..).isHandsOff h)

end Worker

end JobQueue
