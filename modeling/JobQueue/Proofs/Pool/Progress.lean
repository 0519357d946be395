import JobQueue.Proofs.Pool.Undisturbed
import Mathlib.Order.WellFounded
import Mathlib.Algebra.BigOperators.Group.List.Basic

/-!
# A batch that nobody disturbs gets on

Every record and every report is somewhere until its batch has taken the report
(`Change.cargo_eq`), so as long as a slot is open something can be done. And nothing can be done for
ever: each move brings a record or a report nearer to the batch, or takes an action off a plan
(`Watched.rank_lt`).
-/

namespace JobQueue

open Time (Instant)

-- ---------------------------------------------------------------------------
-- What is on its way
-- ---------------------------------------------------------------------------

def Feeder.cargo (wanted : Nat → String → Bool) (g : Feeder) : Nat :=
  let first := match g.load with
    | .record record => wanted g.batch record.id
    | .report r => wanted r.batch r.jobId
  first.toNat + g.rest.countP fun record => wanted g.batch record.id

def Seat.cargo {σ : Type} (wanted : Nat → String → Bool) : Seat σ → Bool
  | working batch jobId _ _ => wanted batch jobId
  | reporting r => wanted r.batch r.jobId
  | free | left => false

def Floor.cargo {σ : Type} (wanted : Nat → String → Bool) (f : Floor σ) : Nat :=
  f.feeder.elim 0 (Feeder.cargo wanted) + f.queue.countP (fun a => wanted a.batch a.record.id) +
    f.seats.countP (Seat.cargo wanted) + f.results.countP fun r => wanted r.batch r.jobId

variable {σ : Type} {wanted : Nat → String → Bool}

theorem Feeder.cargo_ofRecords? {batch : Nat} {records : List Record} :
    (ofRecords? batch records).elim 0 (cargo wanted) =
      records.countP fun record => wanted batch record.id := by
  cases records with
  | nil => rfl
  | cons record rest =>
    simp only [ofRecords?, Option.elim_some, cargo, List.countP_cons, Pool.one_if_eq_toNat]
    omega

@[simp] theorem Seat.cargo_ofStage {batch : Nat} {jobId : String}
    {stage : Worker.Stage (Handler σ)} :
    (Seat.ofStage batch jobId stage).cargo wanted = wanted batch jobId := by
  cases stage <;> rfl

theorem countP_set_add {α : Type} (p : α → Bool) {xs : List α} {i : Nat} {x : α} (y : α)
    (there : xs[i]? = some x) :
    (xs.set i y).countP p + (p x).toNat = xs.countP p + (p y).toNat := by
  obtain ⟨inside, rfl⟩ := List.getElem?_eq_some_iff.mp there
  have had : (p xs[i]).toNat ≤ xs.countP p := by
    cases its : p xs[i] with
    | false => exact Nat.zero_le _
    | true => exact List.countP_pos_iff.mpr ⟨_, List.getElem_mem inside, its⟩
  simp only [List.countP_set inside, Pool.one_if_eq_toNat]
  omega

namespace Watched

open Pool (Move)

variable [RecordStore σ] {w : Watched σ} {f : Floor σ} {now : Instant} {s s' : σ} {m : Move}

/-- A move only brings a record or a report from one place to another, unless a batch gets its turn
or takes a report, or a worker leaves. -/
theorem Change.cargo_eq (change : w.Change now s m f s') (stays : ∀ seat, m ≠ .leave seat)
    (later : m ≠ .begin) (silent : w.pool.notice? m = none) :
    f.cargo wanted = w.floor.cargo wanted := by
  have same {seat : Nat} {st : Seat σ} (st' : Seat σ) (there : w.floor.seats[seat]? = some st)
      (alike : st'.cargo wanted = st.cargo wanted) :
      (w.floor.seats.set seat st').countP (Seat.cargo wanted) =
        w.floor.seats.countP (Seat.cargo wanted) := by
    have := countP_set_add (Seat.cargo wanted) st' there
    rw [alike] at this
    exact Nat.add_right_cancel this
  cases change with
  | aside => rfl
  | begun => exact absurd rfl later
  | fed its =>
    simp only [Floor.cargo, its, Feeder.cargo_ofRecords?, Option.elim_some, Feeder.cargo,
      List.countP_append, List.countP_singleton, Pool.one_if_eq_toNat]
    omega
  | rejected its => simp only [Floor.cargo, its, Option.elim_some, Feeder.cargo]
  | posted its =>
    simp only [Floor.cargo, its, Feeder.cargo_ofRecords?, Option.elim_some, Feeder.cargo,
      List.countP_append, List.countP_singleton, Pool.one_if_eq_toNat]
    omega
  | @took seat a rest run stage free first =>
    have moved := countP_set_add (Seat.cargo wanted) (.ofStage a.batch a.record.id stage) free
    rw [Seat.cargo_ofStage] at moved
    simp only [Seat.cargo, Bool.toNat_false] at moved
    simp only [Floor.cargo, first, List.countP_cons, Pool.one_if_eq_toNat]
    omega
  | left => exact absurd rfl (stays _)
  | asked works => simp only [Floor.cargo, same _ works Seat.cargo_ofStage]
  | judged works => simp only [Floor.cargo, same _ works Seat.cargo_ofStage]
  | @acted seat batch jobId record context job handler action rest works =>
    have kept := same (.working batch jobId (.handling record context job handler) rest) works rfl
    simp only [Floor.cargo, kept]
  | @handedOver seat report reports =>
    have moved := countP_set_add (Seat.cargo wanted) .free reports
    simp only [Seat.cargo, Bool.toNat_false] at moved
    simp only [Floor.cargo, List.countP_append, List.countP_singleton, Pool.one_if_eq_toNat]
    omega
  | @collected report rest feeder first =>
    have results : w.pool.results = report :: rest := first
    simp [Pool.notice?, results] at silent
  | expired => cases silent
  | closed => rfl

theorem Change.left_of_leave {seat : Nat} (change : w.Change now s (.leave seat) f s') :
    f.seats[seat]? = some .left := by
  cases change with
  | left free => exact List.getElem?_set_self (List.getElem?_eq_some_iff.mp free).1
  | aside why => simp at why
  | rejected _ why => simp at why
  | closed why => cases why

/-- Nothing new is on its way but for a batch that gets its turn, and a report is taken once. -/
theorem Change.cargo_le (change : w.Change now s m f s') (later : m ≠ .begin) :
    f.cargo wanted + ((w.pool.notice? m).elim [] Notice.reports).countP
      (fun r => wanted r.batch r.jobId) ≤ w.floor.cargo wanted := by
  have moved (stays : ∀ seat, m ≠ .leave seat) (silent : w.pool.notice? m = none) :
      f.cargo wanted + ((w.pool.notice? m).elim [] Notice.reports).countP
        (fun r => wanted r.batch r.jobId) ≤ w.floor.cargo wanted := by
    rw [silent]
    exact Nat.le_of_eq (change.cargo_eq stays later silent)
  have fewer {feeder : Option Feeder} (kept : feeder = w.floor.feeder ∨ feeder = none) :
      feeder.elim 0 (Feeder.cargo wanted) ≤ w.floor.feeder.elim 0 (Feeder.cargo wanted) := by
    rcases kept with rfl | rfl
    · exact Nat.le_refl _
    · exact Nat.zero_le _
  cases change with
  | @left seat queue free why kept =>
    have gone := countP_set_add (Seat.cargo wanted) .left free
    have rest : queue.countP (fun a => wanted a.batch a.record.id) ≤
        w.floor.queue.countP fun a => wanted a.batch a.record.id := by
      rcases kept with rfl | rfl
      · exact Nat.le_refl _
      · exact Nat.zero_le _
    simp only [Seat.cargo, Bool.toNat_false] at gone
    simp only [Floor.cargo, Pool.notice?, Option.elim_none, List.countP_nil]
    omega
  | @collected report rest feeder first kept =>
    have results : w.pool.results = report :: rest := first
    have := fewer kept
    simp only [Floor.cargo, first, Pool.notice?, results, List.head?_cons, Option.map_some,
      Option.elim_some, Notice.reports, List.countP_cons, List.countP_nil]
    omega
  | expired kept =>
    have := fewer kept
    simp only [Floor.cargo, Pool.notice?, Option.elim_some, Notice.reports, List.countP_nil]
    omega
  | aside why =>
    rcases why with rfl | ⟨ticket, records, rfl⟩
    · exact absurd rfl later
    · exact moved (by simp) rfl
  | begun => exact absurd rfl later
  | rejected _ why =>
    rcases why with ⟨rfl, _⟩ | ⟨⟨rfl, _⟩, _⟩
    · exact moved (by simp) rfl
    · exact moved (by simp) rfl
  | closed why => cases why <;> exact moved (by simp) rfl
  | _ => exact moved (by simp) rfl

-- ---------------------------------------------------------------------------
-- Something can be done
-- ---------------------------------------------------------------------------

theorem exists_step_of_working (manned : w.floor.IsManned) {seat batch : Nat} {jobId : String}
    {stage : Worker.Stage (Handler σ)} {plan : List (Action σ)}
    (works : w.pool.seats[seat]? = some (.working batch jobId stage plan)) (now : Instant) (s : σ) :
    ∃ m next, m.isQuiet = true ∧ w.pool.step? now s m = some next := by
  have goesOn (asks : stage.asksStore = true) : ∃ next, w.pool.work? now seat s = some next := by
    simp [Pool.work?, works, asks]
  cases stage with
  | handling record context job handler =>
    have acts : ∃ next, w.pool.act? now seat s = some next := by
      simp only [Pool.act?, works]
      split <;> exact ⟨_, rfl⟩
    obtain ⟨next, acts⟩ := acts
    exact ⟨.act seat, next, rfl, acts⟩
  | done outcome =>
    -- no worker is busy with a run that is over
    obtain ⟨d, _, only, _, _, _, there⟩ := manned.working works
    have member : d ∈ Duty.openAt w.floor.duties seat := only ▸ List.mem_singleton_self d
    simp [Duty.openAt, Duty.isOpen, Worker.Run.outcome?, there, Worker.Stage.outcome?] at member
  | _ =>
    obtain ⟨next, goes⟩ := goesOn rfl
    exact ⟨.work seat, next, rfl, goes⟩

/-- As long as anything is on its way to a batch that has its turn, something can be done. -/
theorem exists_quiet (manned : w.floor.IsManned) (serving : w.floor.IsServing)
    (turn : w.pool.turn.isSome) (cargo : 0 < w.floor.cargo wanted) (now : Instant) (s : σ) :
    ∃ m next, m.isQuiet = true ∧ w.pool.step? now s m = some next := by
  obtain ⟨t, turn⟩ := Option.isSome_iff_exists.mp turn
  have room : 0 < w.pool.capacity := Nat.mul_pos w.pool.settings.workerCount_pos (by decide)
  cases results : w.pool.results with
  | cons r rest =>
    have collects : ∃ next, w.pool.collect? = some next := by simp [Pool.collect?, turn, results]
    obtain ⟨next, collects⟩ := collects
    exact ⟨.collect, _, rfl, congrArg (Option.map _) collects⟩
  | nil =>
    by_cases busy : ∃ st ∈ w.pool.seats, st.cargo (fun _ _ => true) = true
    · obtain ⟨st, member, has⟩ := busy
      obtain ⟨seat, there⟩ := List.getElem?_of_mem member
      cases st with
      | working batch jobId stage plan => exact exists_step_of_working manned there now s
      | reporting r =>
        have handsOver : ∃ next, w.pool.handOver? seat = some next := by
          simp [Pool.handOver?, there, results, room]
        obtain ⟨next, handsOver⟩ := handsOver
        exact ⟨.handOver seat, _, rfl, congrArg (Option.map _) handsOver⟩
      | free => cases has
      | left => cases has
    · have free (st : Seat σ) (member : st ∈ w.pool.seats) : st = .free := by
        cases st with
        | free => rfl
        | left =>
          obtain ⟨seat, there⟩ := List.getElem?_of_mem member
          exact absurd there serving.stays
        | _ => exact absurd ⟨_, member, rfl⟩ busy
      cases queue : w.pool.queue with
      | cons a rest =>
        have first : w.pool.seats[0]? = some .free := by
          have inside : 0 < w.pool.seats.length := List.length_pos_of_ne_nil serving.inhabited
          rw [List.getElem?_eq_getElem inside, free _ (List.getElem_mem inside)]
        have stays : w.pool.stopping = false := serving.stopping
        have takes : ∃ next, w.pool.take? now 0 = some next := by
          simp [Pool.take?, first, queue, stays]
        obtain ⟨next, takes⟩ := takes
        exact ⟨.take 0, _, rfl, congrArg (Option.map _) takes⟩
      | nil =>
        -- nothing is anywhere else, so the feeder has it
        have idle : w.pool.seats.countP (Seat.cargo wanted) = 0 :=
          List.countP_eq_zero.mpr fun st member => by simp [free st member, Seat.cargo]
        cases feeder : w.pool.feeder? with
        | none => simp [Floor.cargo, floor, idle, results, queue, feeder] at cargo
        | some g =>
          obtain ⟨batch, load, rest⟩ := g
          cases load with
          | record record =>
            have feeds : ∃ next, w.pool.feed? = some next := by
              simp [Pool.feed?, feeder, queue, room, isEmpty_of_isServing serving]
            obtain ⟨next, feeds⟩ := feeds
            exact ⟨.feed, _, rfl, congrArg (Option.map _) feeds⟩
          | report r =>
            have posts : ∃ next, w.pool.post? = some next := by
              simp [Pool.post?, feeder, results, room]
            obtain ⟨next, posts⟩ := posts
            exact ⟨.post, _, rfl, congrArg (Option.map _) posts⟩

end Watched

end JobQueue

-- ---------------------------------------------------------------------------
-- Nothing can be done for ever
-- ---------------------------------------------------------------------------

namespace JobQueue

open Time (Instant)

def Feeder.weight (g : Feeder) : Nat :=
  let first := match g.load with
    | .record _ => 9
    | .report _ => 8
  first + 9 * g.rest.length

def Closing.weight : Closing → Nat
  | .draining => 1
  | .notAsked | .over => 0

variable {σ : Type}

def Seat.weight : Seat σ → Nat
  | left => 0
  | free => 1
  | reporting _ => 3
  | working _ _ stage _ => 4 + stage.stepsLeft

def Seat.actions : Seat σ → Nat
  | working _ _ _ plan => plan.length
  | _ => 0

namespace Floor

def weight (f : Floor σ) : Nat :=
  f.feeder.elim 0 Feeder.weight + 8 * f.queue.length + (f.seats.map Seat.weight).sum +
    f.results.length + f.closing.weight

def actions (f : Floor σ) : Nat := (f.seats.map Seat.actions).sum

end Floor

theorem Feeder.weight_ofRecords? {batch : Nat} {records : List Record} :
    (ofRecords? batch records).elim 0 weight = 9 * records.length := by
  cases records with
  | nil => rfl
  | cons record rest =>
    simp only [ofRecords?, Option.elim_some, weight, List.length_cons]
    omega

theorem sum_map_set {α : Type} {xs : List α} {i : Nat} {x : α} (weight : α → Nat) (y : α)
    (there : xs[i]? = some x) :
    ((xs.set i y).map weight).sum + weight x = (xs.map weight).sum + weight y := by
  induction xs generalizing i with
  | nil => cases there
  | cons first rest ih =>
    cases i with
    | zero =>
      cases there
      simp only [List.set_cons_zero, List.map_cons, List.sum_cons]
      omega
    | succ i =>
      have := ih there
      simp only [List.set_cons_succ, List.map_cons, List.sum_cons]
      omega

theorem Worker.Stage.stepsLeft_le {η : Type} (stage : Stage η) : stage.stepsLeft ≤ 3 := by
  cases stage <;> simp [stepsLeft]

theorem Seat.weight_free : (free : Seat σ).weight = 1 := rfl

theorem Seat.weight_working {batch : Nat} {jobId : String} {stage : Worker.Stage (Handler σ)}
    {plan : List (Action σ)} : (working batch jobId stage plan).weight = 4 + stage.stepsLeft := rfl

theorem Seat.weight_ofStage_le {batch : Nat} {jobId : String}
    {stage : Worker.Stage (Handler σ)} :
    (Seat.ofStage batch jobId stage).weight ≤ 4 + stage.stepsLeft := by
  cases stage <;> simp [ofStage, weight, Worker.Stage.stepsLeft]

namespace Watched

open Pool (Move)

variable [RecordStore σ] {w w' : Watched σ} {f : Floor σ} {now : Instant} {s s' : σ} {m : Move}
  {events : List Pool.Event}

/-- A move brings something nearer to its batch, or takes an action off a plan. -/
theorem Change.weight_lt (change : w.Change now s m f s') (quiet : m.isQuiet = true)
    (later : m ≠ .begin) : f.weight < w.floor.weight ∨
      f.weight = w.floor.weight ∧ f.actions < w.floor.actions := by
  cases change with
  | aside why =>
    rcases why with rfl | ⟨_, _, rfl⟩
    · exact absurd rfl later
    · cases quiet
  | begun => exact absurd rfl later
  | fed its =>
    simp only [Floor.weight, its, Feeder.weight_ofRecords?, Option.elim_some, Feeder.weight,
      List.length_append, List.length_singleton]
    omega
  | rejected its =>
    simp only [Floor.weight, its, Option.elim_some, Feeder.weight]
    omega
  | posted its =>
    simp only [Floor.weight, its, Feeder.weight_ofRecords?, Option.elim_some, Feeder.weight,
      List.length_append, List.length_singleton]
    omega
  | @took seat a rest run stage free first =>
    have moved := sum_map_set Seat.weight (.ofStage a.batch a.record.id stage) free
    have few : (Seat.ofStage a.batch a.record.id stage).weight ≤ 7 :=
      Nat.le_trans Seat.weight_ofStage_le (Nat.add_le_add_left stage.stepsLeft_le 4)
    rw [Seat.weight_free] at moved
    simp only [Floor.weight, first, List.length_cons]
    omega
  | @left seat queue free why kept =>
    have moved := sum_map_set Seat.weight .left free
    have few : queue.length ≤ w.floor.queue.length := by
      rcases kept with rfl | rfl
      · exact Nat.le_refl _
      · exact Nat.zero_le _
    simp only [Seat.weight] at moved
    simp only [Floor.weight]
    omega
  | @asked seat batch jobId stage plan next works asks answered =>
    have moved := sum_map_set Seat.weight (.ofStage batch jobId next.1.1) works
    have fewer : next.1.1.stepsLeft < stage.stepsLeft :=
      answered ▸ Worker.stepsLeft_call_lt _ _ _ _ _ asks
    have few : (Seat.ofStage batch jobId next.1.1).weight ≤ 4 + next.1.1.stepsLeft :=
      Seat.weight_ofStage_le
    rw [Seat.weight_working] at moved
    simp only [Floor.weight]
    omega
  | @judged seat batch jobId record context job handler plan verdict works brought =>
    have moved := sum_map_set Seat.weight
      (.ofStage batch jobId (Worker.onVerdict record context verdict).1) works
    have one : (Worker.onVerdict record context verdict :
        Worker.Progress (Handler σ)).1.stepsLeft = 1 := Worker.stepsLeft_onVerdict _ _ _
    have few : (Seat.ofStage batch jobId (Worker.onVerdict record context verdict).1 :
        Seat σ).weight ≤ 4 + 1 := one ▸ Seat.weight_ofStage_le
    rw [Seat.weight_working] at moved
    simp only [Worker.Stage.stepsLeft] at moved
    simp only [Floor.weight]
    omega
  | @acted seat batch jobId record context job handler action rest works goesOn =>
    have same := sum_map_set Seat.weight
      (.working batch jobId (.handling record context job handler) rest) works
    have fewer := sum_map_set Seat.actions
      (.working batch jobId (.handling record context job handler) rest) works
    rw [Seat.weight_working, Seat.weight_working] at same
    simp only [Seat.actions, List.length_cons] at fewer
    simp only [Floor.weight, Floor.actions]
    omega
  | @handedOver seat report reports =>
    have moved := sum_map_set Seat.weight .free reports
    rw [Seat.weight_free] at moved
    simp only [Seat.weight] at moved
    simp only [Floor.weight, List.length_append, List.length_singleton]
    omega
  | @collected report rest feeder first kept =>
    have few : feeder.elim 0 Feeder.weight ≤ w.floor.feeder.elim 0 Feeder.weight := by
      rcases kept with rfl | rfl
      · exact Nat.le_refl _
      · exact Nat.zero_le _
    simp only [Floor.weight, first, List.length_cons]
    omega
  | expired => cases quiet
  | closed why =>
    have ends {closing : Closing} (waits : w.floor.closing = .draining) (its : closing = .over) :
        { w.floor with closing }.weight < w.floor.weight := by
      subst its
      simp only [Floor.weight, waits, Closing.weight]
      omega
    cases why with
    | first => cases quiet
    | again => cases quiet
    | drained waits => exact .inl (ends waits rfl)
    | missed waits => exact .inl (ends waits rfl)

omit [RecordStore σ] in
theorem line_of_effect {p p' : Pool σ} {b : Pool.Beat} (e : p.Effect b p')
    (quiet : b.move.isQuiet = true) (later : b.move ≠ .begin) : p'.line = p.line := by
  cases e with
  | submitted => cases quiet
  | begun => exact absurd rfl later
  | refused => exact absurd rfl later
  | told =>
    unfold Pool.settle
    split <;> rfl
  | stuck => rfl
  | framed _ _ frame => exact frame.line

/-- How far all batches are from having returned. -/
def rank (w : Watched σ) : Nat × Nat :=
  ((w.pool.line.map fun next => 1 + 9 * next.records.length).sum + w.floor.weight, w.floor.actions)

theorem rank_lt (step : w.step? now s m = some (w', s', events)) (quiet : m.isQuiet = true) :
    Prod.Lex (· < ·) (· < ·) w'.rank w.rank := by
  by_cases begins : m = .begin
  · subst begins
    refine .left _ _ ?_
    have effect := (Step.of step).pool.effect
    obtain ⟨p, ds⟩ := w
    obtain ⟨p', ds'⟩ := w'
    cases effect with
    | begun idle first =>
      dsimp only at idle first
      simp only [first, List.map_cons, List.sum_cons, Floor.weight, floor, Pool.feeder?, idle,
        Option.bind_some, Option.bind_none, Feeder.weight_ofRecords?, Option.elim_none]
      omega
    | refused idle first =>
      dsimp only at idle first
      simp only [first, List.map_cons, List.sum_cons, Floor.weight, floor, Pool.feeder?, idle,
        Option.bind_none, Option.elim_none]
      omega
    | framed _ later => exact absurd rfl later
  · have line := line_of_effect (Step.of step).pool.effect quiet begins
    rcases (change_of_step? step).weight_lt quiet begins with lighter | ⟨same, fewer⟩
    · refine .left _ _ ?_
      rw [line]
      exact Nat.add_lt_add_left lighter _
    · rw [rank, rank, line, same]
      exact .right _ fewer

/-- No run of moves without a caller goes on for ever. -/
theorem not_forever {states : Nat → Pool σ × σ} {times : Nat → Instant} {moves : Nat → Move}
    (steps : ∀ i, (moves i).isQuiet = true ∧ ∃ events,
      (states i).1.step? (times i) (states i).2 (moves i) =
        some ((states (i + 1)).1, (states (i + 1)).2, events)) : False := by
  have wf : WellFounded (Prod.Lex (· < · : Nat → Nat → Prop) (· < · : Nat → Nat → Prop)) :=
    WellFounded.prod_lex wellFounded_lt wellFounded_lt
  -- what the workers were handed does not count
  let watched (i : Nat) : Watched σ := ⟨(states i).1, []⟩
  obtain ⟨_, ⟨i, rfl⟩, least⟩ := wf.has_min (Set.range fun i => (watched i).rank) ⟨_, 0, rfl⟩
  obtain ⟨quiet, events, step⟩ := steps i
  have goes : (watched i).step? (times i) (states i).2 (moves i) =
      some (⟨(states (i + 1)).1, (states i).1.attend (times i) (states i).2 [] (moves i)⟩,
        (states (i + 1)).2, events) := step?_eq_some_iff.mpr ⟨step, rfl⟩
  have lower := rank_lt goes quiet
  exact least _ ⟨i + 1, rfl⟩ lower

end Watched

end JobQueue
