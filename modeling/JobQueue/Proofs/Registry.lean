import JobQueue.Proofs.Time.Window
import JobQueue.Proofs.Worker.Account
import JobQueue.Registry
import Mathlib.Data.List.Nodup

/-!
# Which handlers are reached

A registry keeps job types as they were registered, blanks and all; a job's type is its payload's
without the blanks around it. So a handler is reached by the payloads that name its type exactly
if the type has no blanks around it: `Registry.hands_iff`.
-/

namespace JobQueue

open Time (Instant)

namespace Registry

variable {α : Type} {g g' : Registry α} {type : String} {h : α} {added : List (String × α)}

def Registers (g : Registry α) (entry : String × α) (g' : Registry α) : Prop :=
  g.register entry.1 entry.2 = .ok g'

theorem Registers.cases {entry : String × α} (registers : g.Registers entry g') :
    Text.blank entry.1 = false ∧ g'.handlers = g.handlers ++ [entry] := by
  unfold Registers register at registers
  split at registers
  · cases registers
  · next named =>
    split at registers
    · cases registers
    · obtain rfl := Except.ok.inj registers
      exact ⟨Bool.not_eq_true _ ▸ named, rfl⟩

/-- Registrations add to a registry in their order, and none is for a blank type. -/
theorem handlers_of_trace (built : Trace Registers g added g') :
    g'.handlers = g.handlers ++ added ∧ ∀ entry ∈ added, Text.blank entry.1 = false := by
  induction built with
  | nil => simp
  | snoc _ last ih =>
    obtain ⟨named, grown⟩ := last.cases
    refine ⟨by rw [grown, ih.1, List.append_assoc], ?_⟩
    intro entry member
    rcases List.mem_append.mp member with member | member
    · exact ih.2 entry member
    · exact List.mem_singleton.mp member ▸ named

theorem find?_eq_some_iff : g.find? type = some h ↔ (type, h) ∈ g.handlers := by
  unfold find?
  constructor
  · intro found
    obtain ⟨⟨key, _⟩, first, rfl⟩ := Option.map_eq_some_iff.mp found
    have same : key = type := by simpa using List.find?_some first
    exact same ▸ List.mem_of_find?_eq_some first
  · intro member
    cases first : g.handlers.find? fun entry => entry.1 = type with
    | none => exact absurd (List.find?_eq_none.mp first _ member) (by simp)
    | some entry =>
      have same : entry.1 = type := by simpa using List.find?_some first
      have only := List.inj_on_of_nodup_map g.nodup (List.mem_of_find?_eq_some first) member same
      exact only ▸ rfl

theorem find?_of_trace (built : Trace Registers g added g') (registered : (type, h) ∈ added) :
    g'.find? type = some h := by
  rw [find?_eq_some_iff, (handlers_of_trace built).1]
  exact List.mem_append_right _ registered

end Registry

def Record.typeText? (r : Record) : Option String :=
  r.payloadObject.toOption.bind fun payload => payload.string? "type"

/-- The job of a record whose payload names a type has that type without the blanks around it. -/
theorem Record.parseJob_of_typeText? {r : Record} {type : String} (names : r.typeText? = some type)
    (named : Text.blank type = false) :
    ∃ job, r.parseJob = .ok job ∧ job.jobType = Text.trim type := by
  have left : Text.trim type ≠ "" := fun e => by simp [Text.trim_eq_empty_iff.mp e] at named
  unfold typeText? at names
  cases object : r.payloadObject with
  | error e => simp [object, Except.toOption] at names
  | ok payload =>
    have text : payload.string? "type" = some type := by
      simpa [object, Except.toOption] using names
    have its : payload.jobType? = some (Text.trim type) := by
      simp [Json.Object.jobType?, text, left]
    exact ⟨r.jobOf payload (Text.trim type), by simp [parseJob, object, its], rfl⟩

namespace Worker

variable {η : Type} {w : Worker} {handler? : String → Option η} {copy : Record} {type : String}
  {began : Instant}

theorem dispatch_of_typeText? (w : Worker) (handler? : String → Option η) {record : Record}
    (valid : Record.validate (some record) = .ok record) (names : record.typeText? = some type) (named : Text.blank type = false) :
    ∃ job, job.jobType = Text.trim type ∧
      (w.dispatch handler? record).1 =
        match handler? (Text.trim type) with
        | none => .failing record (.handlerNotFound (Text.trim type))
        | some handler => .handling record (.ofJob job w.id) job handler := by
  obtain ⟨job, read, its⟩ := Record.parseJob_of_typeText? names named
  refine ⟨job, its, ?_⟩
  simp only [dispatch, Job.ofRecord_eq_ok_iff.mpr ⟨valid, read⟩, its]
  cases handler? (Text.trim type) <;> rfl

theorem Stands.dispatched {σ : Type} [RecordStore σ] {calls : List Exchange}
    {verdict? : Option Verdict} {stage : Stage η} {now : Instant} {q : Request} {store : σ}
    (stands : Stands w handler? copy began calls verdict? stage)
    (asks : stage.request? now = some q)
    (granted : (Act.asked q (RecordStore.answer now q store).1).claimed?.isSome) :
    (w.call handler? now stage store).1.1 = (w.dispatch handler? (copy.reserve began)).1 := by
  cases stands with
  | claiming claims =>
    obtain rfl := Option.some.inj asks
    revert granted
    simp only [Worker.call]
    cases (RecordStore.answer now (claim copy began) store).1 with
    | error e => intro granted; cases granted
    | ok claimed =>
      cases claimed with
      | false => intro granted; cases granted
      | true => intro _; rfl
  | losing => obtain rfl := Option.some.inj asks; cases granted
  | handling => cases asks
  | completing => obtain rfl := Option.some.inj asks; cases granted
  | failing => obtain rfl := Option.some.inj asks; cases granted
  | done => cases asks

/-- A run whose claim is granted dispatches the copy that it was given, claimed when it began. -/
theorem Run.Moves.dispatched {σ : Type} [RecordStore σ] {r r' : Run η}
    {deeds : List (Instant × Act)} {deed : Instant × Act}
    (trace : Trace (Moves σ) (fresh w handler? copy) deeds r) (moves : r.Moves σ deed r')
    (granted : deed.2.claimed?.isSome) :
    ∃ began, r'.stage = some (w.dispatch handler? (copy.reserve began)).1 := by
  obtain ⟨step⟩ := moves
  cases step with
  | begin h => cases granted
  | judge verdict h => cases granted
  | @ask stage q h asks =>
    rcases tells_of_trace trace with ⟨-, rfl⟩ | ⟨began, stage', tells⟩
    · cases h
    · obtain rfl := Option.some.inj (h.symm.trans tells.stage_eq)
      refine ⟨began, ?_⟩
      rw [stage_goOn, tells.worker_eq, tells.handler?_eq, tells.kept.dispatched asks granted]

theorem Ended.missing {calls : List Exchange} {verdict? : Option Verdict} {outcome : Outcome}
    {jobType : String} (ended : Ended w handler? copy began calls verdict? outcome)
    (reports : outcome = .error (.handlerNotFound jobType)) :
    ∃ job, Job.ofRecord (some (copy.reserve began)) = .ok job ∧ handler? job.jobType = none := by
  cases ended with
  | counted claims why =>
    obtain rfl := Except.error.inj reports
    cases read : Job.ofRecord (some (copy.reserve began)) with
    | error fault =>
      simp only [mishap?, read, Option.some.injEq] at why
      cases fault <;> cases why
    | ok job =>
      refine ⟨job, rfl, ?_⟩
      cases found : handler? job.jobType with
      | none => rfl
      | some handler =>
        simp only [mishap?, read, found, Option.bind_eq_some_iff] at why
        obtain ⟨verdict, -, why⟩ := why
        cases verdict <;> cases why
  | _ => cases reports

end Worker

namespace Registry

open Worker (Run)

variable {α : Type} {g₀ g : Registry α} {copy : Record} {type : String} {h : α}
  {added : List (String × α)}

/-- Whether each run on the copy whose claim is granted hands its job to the handler, and none ends
for want of one. -/
structure Hands (g : Registry α) (copy : Record) (h : α) : Prop where
  handed {σ : Type} [RecordStore σ] {w : Worker} {r r' : Run α}
    {deeds : List (Instant × Worker.Act)} {deed : Instant × Worker.Act} :
    Trace (Run.Moves σ) (.fresh w g.find? copy) deeds r → r.Moves σ deed r' →
      deed.2.claimed?.isSome →
      ∃ claimed context job, r'.stage = some (.handling claimed context job h)
  found {σ : Type} [RecordStore σ] {w : Worker} {r : Run α} {deeds : List (Instant × Worker.Act)}
    {jobType : String} : Trace (Run.Moves σ) (.fresh w g.find? copy) deeds r →
      r.outcome? ≠ some (.error (.handlerNotFound jobType))

theorem Hands.find?_eq (hands : g.Hands copy h) (valid : Record.validate (some copy) = .ok copy)
    (names : copy.typeText? = some type) (named : Text.blank type = false) :
    g.find? (Text.trim type) = some h := by
  -- a run over a store that holds the copy, begun when the copy's reservation has just worn off
  let w : Worker := ⟨0, ⟨0⟩⟩
  let now := copy.reservedAt.getD .epoch
  let store : MemoryStore := Keyed.empty.put copy
  have free : copy.isReservedWithin now w.window = false := by
    rw [Record.isReservedWithin_eq_false_iff]
    intro since held
    simp [now, w, held, Time.Instant.since_self]
  have begins : (w.begin now copy : Worker.Progress α).1 = .claiming copy now :=
    Worker.begin_of_claims ⟨valid, free⟩
  let r := (Run.fresh w g.find? copy).goOn (w.begin now copy)
  have at_ : r.stage = some (.claiming copy now) := congrArg some begins
  have first : Trace (Run.Moves MemoryStore) (.fresh w g.find? copy) [(now, .begun)] r :=
    .single (.of (s := store) (.begin rfl))
  have asks : (Worker.Stage.claiming copy now : Worker.Stage α).request? now =
      some (Worker.claim copy now) := rfl
  have second := Run.Moves.of (s := store) (.ask at_ asks)
  have answer : RecordStore.answer now (Worker.claim copy now) store =
      (.ok true, store.put (copy.reserve now)) :=
    MemoryStore.reserve_same (by rw [Keyed.find?_put, if_pos rfl]) rfl
  have granted : (Worker.Act.asked (Worker.claim copy now)
      (RecordStore.answer now (Worker.claim copy now) store).1).claimed?.isSome := by
    rw [answer]
    rfl
  obtain ⟨claimed, context, job, handed⟩ := hands.handed first second granted
  obtain ⟨began, stage⟩ := second.dispatched first granted
  obtain ⟨_, -, dispatched⟩ :=
    Worker.dispatch_of_typeText? w g.find? (Record.validate_reserve began valid) names named
  rw [stage, dispatched] at handed
  cases known : g.find? (Text.trim type) with
  | none => simp [known] at handed
  | some handler => simp_all

/-- Each claimed record whose payload names the type of a registered handler is handed to that
handler exactly if the type has no blanks around it, or if the handler is registered for the type
without them as well. -/
theorem hands_iff (built : Trace Registers g₀ added g) (registered : (type, h) ∈ added)
    (valid : Record.validate (some copy) = .ok copy) (names : copy.typeText? = some type) :
    g.Hands copy h ↔ Text.trim type = type ∨ g.find? (Text.trim type) = some h := by
  have named : Text.blank type = false := (handlers_of_trace built).2 _ registered
  constructor
  · intro hands
    exact .inr (hands.find?_eq valid names named)
  · intro same
    have known : g.find? (Text.trim type) = some h := by
      rcases same with same | known
      · rw [same]
        exact find?_of_trace built registered
      · exact known
    constructor
    · intro σ _ w r r' deeds deed trace moves granted
      obtain ⟨began, stage⟩ := moves.dispatched trace granted
      obtain ⟨job, -, dispatched⟩ :=
        Worker.dispatch_of_typeText? w g.find? (Record.validate_reserve began valid) names named
      rw [stage, dispatched, known]
      exact ⟨_, _, _, rfl⟩
    · intro σ _ w r deeds jobType trace missing
      obtain ⟨began, rest, -, ended⟩ := Run.ended_of_trace trace missing
      obtain ⟨job, read, unknown⟩ := ended.missing rfl
      obtain ⟨parsed, reads, its⟩ :=
        Record.parseJob_of_typeText? (r := copy.reserve began) names named
      rw [Job.ofRecord_of_valid (Record.validate_reserve began valid), reads] at read
      obtain rfl := Except.ok.inj read
      rw [its, known] at unknown
      cases unknown

def plainMail : Record :=
  ⟨"a", queueCollection, "\x7b\"type\":\"mail\"\x7d", 0, none, .epoch, .epoch⟩

def spacedMail : Record :=
  ⟨"b", queueCollection, "\x7b\"type\":\" mail \"\x7d", 0, none, .epoch, .epoch⟩

def twoSpellings : Registry Nat := ⟨[(" mail ", 1), ("mail", 0)], by decide⟩

theorem registers_twoSpellings :
    Trace Registers empty [(" mail ", 1), ("mail", 0)] twoSpellings :=
  have first : Trace Registers empty [(" mail ", 1)] ⟨[(" mail ", 1)], by decide⟩ := .single rfl
  first.snoc rfl

/-- Both records are handed to the handler of the plain spelling. -/
theorem hands_iff_twoSpellings :
    twoSpellings.Hands plainMail 0 ∧ ¬twoSpellings.Hands spacedMail 1 := by
  constructor
  · have names : plainMail.typeText? = some "mail" := by decide +kernel
    exact (hands_iff registers_twoSpellings (by simp) rfl names).mpr (.inl (by decide +kernel))
  · have names : spacedMail.typeText? = some " mail " := by decide +kernel
    intro hands
    have known := (hands_iff registers_twoSpellings (by simp) rfl names).mp hands
    exact absurd known (by decide +kernel)

/-- A handler registered for a type with blanks around it is not reached: the record that names
the type finds no handler. -/
theorem not_hands_spaced :
    ¬∀ (added : List (String × Unit)) (g : Registry Unit) (type : String) (copy : Record),
      Trace Registers empty added g → (type, ()) ∈ added →
      Record.validate (some copy) = .ok copy → copy.typeText? = some type → g.Hands copy () := by
  intro all
  let spaced : Registry Unit := ⟨[(" mail ", ())], by decide⟩
  have built : Trace Registers empty [(" mail ", ())] spaced := .single rfl
  have names : spacedMail.typeText? = some " mail " := by decide +kernel
  have known :=
    (all _ _ _ spacedMail built (by simp) rfl names).find?_eq rfl names (by decide +kernel)
  exact absurd known (by decide +kernel)

end Registry

end JobQueue
