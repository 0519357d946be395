import JobQueue.Codec
import JobQueue.Proofs.Json.Shape
import JobQueue.Proofs.Time.Lenient

/-!
# Records, jobs and settings are read back

What is written of a record, a job or settings is read back as it was, with the instants that its
stamps show (`Record.shown`, `Job.shown`). A record may also leave out that it has no attempts or no
reservation, and settings what they have by default; then too the fields may come in any order, with
others among them.
-/

namespace JobQueue

open Time (Instant)
open Json (Entry Field Fields IsDigits IsGap IsMember IsObjectText IsStringBody IsValueText
  IsWholePart Kind FieldText Object Shape Spells Value isGap_nil spells_escaped)

namespace Json.Shape

variable {shape : Shape} {room limit n : Nat} {name text : String} {t : Instant}
  {t? : Option Instant} {o : Object}

theorem gives_text (found : shape.find? (fun f => f.1 = name) = some (name, .text)) :
    shape.Gives room name (.string text) (.text text) where
  read := by
    rw [Shape.field?, found]
    rfl
  isExact := .string text
  deep := Nat.zero_le _

theorem gives_count (found : shape.find? (fun f => f.1 = name) = some (name, .natural limit))
    (within : n ≤ limit) (small : limit < 0x10000000000000000) :
    shape.Gives room name (countValue n) (.natural n) where
  read := by
    rw [Shape.field?, found]
    exact if_pos (by omega)
  isExact := .whole (by omega)
  deep := Nat.zero_le _

theorem gives_stamp (found : shape.find? (fun f => f.1 = name) = some (name, .stamp)) :
    shape.Gives room name (stampValue t) (.stamp t.shown) where
  read := by
    rw [Shape.field?, found, Option.bind_some, stampValue, Kind.field?, t.ofText?_stamp]
    rfl
  isExact := .string _
  deep := Nat.zero_le _

theorem gives_optionalStamp
    (found : shape.find? (fun f => f.1 = name) = some (name, .optionalStamp)) :
    shape.Gives room name (optionalStampValue t?) (.optionalStamp (t?.map Instant.shown)) := by
  cases t? with
  | none =>
    refine ⟨?_, .null, Nat.zero_le _⟩
    rw [Shape.field?, found]
    rfl
  | some t =>
    refine ⟨?_, .string _, Nat.zero_le _⟩
    rw [Shape.field?, found, Option.bind_some, optionalStampValue, stampValue, Kind.field?,
      t.ofText?_stamp]
    rfl

theorem gives_object (found : shape.find? (fun f => f.1 = name) = some (name, .object))
    (isExact : (Value.object o).IsExact) (deep : (Value.object o).depth ≤ room) :
    shape.Gives room name (.object o) (.object o) where
  read := by
    rw [Shape.field?, found]
    rfl
  isExact := isExact
  deep := deep

end Json.Shape

theorem Json.Fields.getD_natural? {fields : Fields} {name : String} {n d : Nat}
    (given : fields.get? name = some (.natural n) ∨ fields.get? name = none ∧ n = d) :
    (fields.natural? name).getD d = n := by
  rcases given with there | ⟨absent, rfl⟩
  · simp [Fields.natural?, there]
  · simp [Fields.natural?, absent]

theorem Time.Instant.map_shown_eq_self_iff {t? : Option Instant} {t u : Instant} :
    (t?.map shown = t? ∧ t.shown = t ∧ u.shown = u) ↔
      ∀ time ∈ t?.toList ++ [t, u], time.IsLegible := by
  cases t? <;> simp [shown_eq_self_iff]

namespace Record

variable {r : Record} {part : Object}

def instants (r : Record) : List Instant := r.reservedAt.toList ++ [r.createdAt, r.updatedAt]

/-- The record with the instants that its stamps show. -/
def shown (r : Record) : Record :=
  { r with
    reservedAt := r.reservedAt.map Instant.shown
    createdAt := r.createdAt.shown
    updatedAt := r.updatedAt.shown }

theorem shown_eq_self_iff : r.shown = r ↔ ∀ t ∈ r.instants, t.IsLegible := by
  rw [instants, ← Instant.map_shown_eq_self_iff]
  cases r
  simp [shown]

/-- What a record may leave out: that it has no attempts, or no reservation. -/
def MayOmit (r : Record) (name : String) : Prop :=
  name = "attempts" ∧ r.attempts = 0 ∨ name = "reserved_at" ∧ r.reservedAt = none

def entries (r : Record) : List Entry :=
  [⟨"id", .string r.id, .text r.id⟩, ⟨"collection", .string r.collection, .text r.collection⟩,
   ⟨"payload", .string r.payload, .text r.payload⟩,
   ⟨"attempts", countValue r.attempts.toNat, .natural r.attempts.toNat⟩,
   ⟨"reserved_at", optionalStampValue r.reservedAt, .optionalStamp r.shown.reservedAt⟩,
   ⟨"created_at", stampValue r.createdAt, .stamp r.shown.createdAt⟩,
   ⟨"updated_at", stampValue r.updatedAt, .stamp r.shown.updatedAt⟩]

theorem toJson_eq : r.toJson = .object (r.entries.map Entry.written) := rfl

theorem isHeldBy_entries : shape.IsHeldBy r.entries where
  gives := by
    have attempts : r.attempts.toNat ≤ maxAttempts := Nat.le_sub_one_of_lt r.attempts.toNat_lt
    simp only [entries, List.forall_mem_cons]
    exact ⟨Shape.gives_text rfl, Shape.gives_text rfl, Shape.gives_text rfl,
      Shape.gives_count rfl attempts (by decide), Shape.gives_optionalStamp rfl,
      Shape.gives_stamp rfl, Shape.gives_stamp rfl, by simp⟩
  distinct := by simp [entries]

theorem ofFields?_part (isPart : part.IsPartOf (r.entries.map Entry.written) r.MayOmit) :
    ofFields? (shape.fields part) = some r.shown := by
  have given := isHeldBy_entries.get?_part isPart
  simp only [entries, List.forall_mem_cons, MayOmit] at given
  obtain ⟨id, collection, payload, attempts, reservedAt, createdAt, updatedAt, -⟩ := given
  simp at id collection payload attempts reservedAt createdAt updatedAt
  have count : UInt32.ofNat ((Fields.natural? (shape.fields part) "attempts").getD 0) =
      r.attempts := by
    have zero : r.attempts = 0 → r.attempts.toNat = 0 := fun none => none ▸ rfl
    rw [Fields.getD_natural? (attempts.imp_right (And.imp_right zero)), UInt32.ofNat_toNat]
  have reservation : Fields.optionalStamp (shape.fields part) "reserved_at" = r.shown.reservedAt := by
    rcases reservedAt with there | ⟨absent, none⟩
    · simp [Fields.optionalStamp, there]
    · simp [Fields.optionalStamp, absent, none, shown]
  simp [ofFields?, Fields.text?, Fields.stamp?, id, collection, payload, count, reservation,
    createdAt, updatedAt]
  rfl

theorem ofJson?_text : ofJson? r.toJson.text = .ok r.shown := by
  rw [toJson_eq]
  exact isHeldBy_entries.ofText?_text (by simp [entries, shape])
    (ofFields?_part (isHeldBy_entries.isPartOf_self r.MayOmit))

end Record

namespace Job

variable {job : Job}

def instants (job : Job) : List Instant :=
  job.reservedAt.toList ++ [job.createdAt, job.updatedAt]

def shown (job : Job) : Job :=
  { job with
    reservedAt := job.reservedAt.map Instant.shown
    createdAt := job.createdAt.shown
    updatedAt := job.updatedAt.shown }

theorem shown_eq_self_iff : job.shown = job ↔ ∀ t ∈ job.instants, t.IsLegible := by
  rw [instants, ← Instant.map_shown_eq_self_iff]
  cases job
  simp [shown]

def entries (job : Job) : List Entry :=
  [⟨"id", .string job.id, .text job.id⟩, ⟨"name", .string job.name, .text job.name⟩,
   ⟨"description", .string job.description, .text job.description⟩,
   ⟨"job_type", .string job.jobType, .text job.jobType⟩,
   ⟨"payload", .object job.payload, .object job.payload⟩,
   ⟨"attempts", countValue job.attempts.toNat, .natural job.attempts.toNat⟩,
   ⟨"reserved_at", optionalStampValue job.reservedAt, .optionalStamp job.shown.reservedAt⟩,
   ⟨"created_at", stampValue job.createdAt, .stamp job.shown.createdAt⟩,
   ⟨"updated_at", stampValue job.updatedAt, .stamp job.shown.updatedAt⟩]

theorem toJson_eq : job.toJson = .object (job.entries.map Entry.written) := rfl

theorem isHeldBy_entries (isExact : (Value.object job.payload).IsExact)
    (deep : (Value.object job.payload).depth ≤ 126) : shape.IsHeldBy job.entries where
  gives := by
    have attempts : job.attempts.toNat ≤ maxAttempts := Nat.le_sub_one_of_lt job.attempts.toNat_lt
    simp only [entries, List.forall_mem_cons]
    exact ⟨Shape.gives_text rfl, Shape.gives_text rfl, Shape.gives_text rfl, Shape.gives_text rfl,
      Shape.gives_object rfl isExact deep, Shape.gives_count rfl attempts (by decide),
      Shape.gives_optionalStamp rfl, Shape.gives_stamp rfl, Shape.gives_stamp rfl, by simp⟩
  distinct := by simp [entries]

theorem ofFields?_entries (isExact : (Value.object job.payload).IsExact)
    (deep : (Value.object job.payload).depth ≤ 126) :
    ofFields? (shape.fields (job.entries.map Entry.written)) = some job.shown := by
  have held := isHeldBy_entries isExact deep
  have given := held.get?_part (held.isPartOf_self fun _ => False)
  generalize job.entries.map Entry.written = whole at given ⊢
  simp [entries] at given
  obtain ⟨id, name, description, jobType, payload, attempts, reservedAt, createdAt, updatedAt⟩ :=
    given
  simp [ofFields?, Fields.text?, Fields.object?, Fields.natural?, Fields.optionalStamp,
    Fields.stamp?, id, name, description, jobType, payload, attempts, reservedAt, createdAt,
    updatedAt]
  rfl

end Job

namespace Settings

variable {s : Settings} {part : Object}

structure IsBounded (s : Settings) : Prop where
  workers : s.workers < numberLimit
  reservationWindowSecs : s.reservationWindowSecs < numberLimit
  enqueueTimeoutSecs : s.enqueueTimeoutSecs < numberLimit
  resultTimeoutSecs : s.resultTimeoutSecs < numberLimit

def MayOmit (s : Settings) (name : String) : Prop :=
  s.toJson.get? name = default.toJson.get? name

def entries (s : Settings) : List Entry :=
  [⟨"workers", countValue s.workers, .natural s.workers⟩,
   ⟨"reservation_window_secs", countValue s.reservationWindowSecs,
    .natural s.reservationWindowSecs⟩,
   ⟨"enqueue_timeout_secs", countValue s.enqueueTimeoutSecs, .natural s.enqueueTimeoutSecs⟩,
   ⟨"result_timeout_secs", countValue s.resultTimeoutSecs, .natural s.resultTimeoutSecs⟩]

theorem toJson_eq : s.toJson = .object (s.entries.map Entry.written) := rfl

theorem isHeldBy_entries (bounded : s.IsBounded) : shape.IsHeldBy s.entries where
  gives := by
    simp only [entries, List.forall_mem_cons]
    exact ⟨Shape.gives_count rfl (Nat.le_sub_one_of_lt bounded.workers) (by decide),
      Shape.gives_count rfl (Nat.le_sub_one_of_lt bounded.reservationWindowSecs) (by decide),
      Shape.gives_count rfl (Nat.le_sub_one_of_lt bounded.enqueueTimeoutSecs) (by decide),
      Shape.gives_count rfl (Nat.le_sub_one_of_lt bounded.resultTimeoutSecs) (by decide), by simp⟩
  distinct := by simp [entries]

theorem countValue_inj {m n : Nat} : countValue m = countValue n ↔ m = n := by
  simp only [countValue, Value.number.injEq, Json.Number.whole.injEq, Int.natCast_inj]

theorem ofFields?_part (bounded : s.IsBounded)
    (isPart : part.IsPartOf (s.entries.map Entry.written) s.MayOmit) :
    ofFields? (shape.fields part) = some s := by
  have given := (isHeldBy_entries bounded).get?_part isPart
  simp only [entries, List.forall_mem_cons, MayOmit] at given
  obtain ⟨workers, reservation, enqueue, result, -⟩ := given
  simp [toJson, Value.get?, Value.object?, Object.get?, countValue_inj]
    at workers reservation enqueue result
  simp only [ofFields?, Fields.getD_natural? workers, Fields.getD_natural? reservation,
    Fields.getD_natural? enqueue, Fields.getD_natural? result]

end Settings

/-- What is written of a record, of settings or of a job is read back as it was, with the instants
that its stamps show. Those are its own if none is a leap second within a minute. A text of a record
or of settings may also leave out what is absent or has its default, with the other fields in any
order and any others among them. -/
theorem formats_read_back :
    (∀ r : Record, (r.shown = r ↔ ∀ t ∈ r.instants, t.IsLegible) ∧
      Record.ofJson? r.toJson.text = .ok r.shown ∧
      ∀ (whole part : Object) (text : String), r.toJson = .object whole →
        part.IsPartOf whole r.MayOmit →
        IsObjectText (Record.shape.map Prod.fst) part text.toList →
        Record.ofJson? text = .ok r.shown) ∧
    (∀ s : Settings, s.IsBounded → Settings.ofJson? s.toJson.text = .ok s ∧
      ∀ (whole part : Object) (text : String), s.toJson = .object whole →
        part.IsPartOf whole s.MayOmit →
        IsObjectText (Settings.shape.map Prod.fst) part text.toList →
        Settings.ofJson? text = .ok s) ∧
    ∀ job : Job, (job.shown = job ↔ ∀ t ∈ job.instants, t.IsLegible) ∧
      ((Value.object job.payload).IsExact → (Value.object job.payload).depth ≤ 126 →
        Job.ofJson? job.toJson.text = .ok job.shown) := by
  refine ⟨fun r => ⟨Record.shown_eq_self_iff, Record.ofJson?_text, ?_⟩,
    fun s bounded => ⟨?_, ?_⟩, fun job => ⟨Job.shown_eq_self_iff, fun isExact deep => ?_⟩⟩
  · intro whole part text written isPart isText
    rw [Record.toJson_eq, Value.object.injEq] at written
    subst written
    exact Record.isHeldBy_entries.ofText?_part isPart isText (Record.ofFields?_part isPart)
  · have held := Settings.isHeldBy_entries bounded
    rw [Settings.toJson_eq]
    exact held.ofText?_text (by simp [Settings.entries, Settings.shape])
      (Settings.ofFields?_part bounded (held.isPartOf_self s.MayOmit))
  · intro whole part text written isPart isText
    rw [Settings.toJson_eq, Value.object.injEq] at written
    subst written
    exact (Settings.isHeldBy_entries bounded).ofText?_part isPart isText
      (Settings.ofFields?_part bounded isPart)
  · rw [Job.toJson_eq]
    exact (Job.isHeldBy_entries isExact deep).ofText?_text (by simp [Job.entries, Job.shape])
      (Job.ofFields?_entries isExact deep)

def leapSecond : Instant := ⟨59, 1500000000, by decide, by decide, by decide⟩

/-- A record with what is hard to write: quotes, controls, a signed year and a leap second. -/
def oddRecord : Record := ⟨"\"\n😀", "queues", "\\", 0, none, .earliest, leapSecond⟩

/-- Its fields from the last to the first, but for those that it may leave out. -/
def oddFields : Object :=
  [("updated_at", stampValue leapSecond), ("created_at", stampValue .earliest),
   ("payload", .string "\\"), ("collection", .string "queues"), ("id", .string "\"\n😀")]

def oddJob : Job :=
  ⟨"1", "n", "", "mail", [("type", .string "mail"), ("n", .array [countValue 0, .null])],
    0xFFFFFFFF, some leapSecond, .epoch, .epoch⟩

/-- One field of settings, behind another one with a number out of range and half of a pair. -/
def noisyText : String :=
  "\x7b\"x\" : [1e999, \"\\ud800\"] , \"enqueue_timeout_secs\":7\x7d"

theorem isGap_space : IsGap [' '] := by
  simp [IsGap, Json.isGap]

theorem isValueText_noise : IsValueText " [1e999, \"\\ud800\"] ".toList := by
  have nines : IsDigits ['9', '9', '9'] := ⟨by simp, by simp⟩
  have one : IsWholePart ['1'] := .digits (by decide) (by simp) (by simp)
  have large : IsValueText ['1', 'e', '9', '9', '9'] :=
    .number one .none (.plain (.inl rfl) nines)
  have half : IsValueText ([' '] ++ ('"' :: "\\ud800\"".toList ++ [])) :=
    .padded isGap_space isGap_nil (.string (.word (by decide) .close))
  have both : IsValueText "[1e999, \"\\ud800\"]".toList :=
    .array (List.forall_mem_cons.mpr ⟨large, List.forall_mem_singleton.mpr half⟩)
  exact .padded isGap_space isGap_space both

theorem isObjectText_noisyText : IsObjectText (Settings.shape.map Prod.fst)
    [("enqueue_timeout_secs", countValue 7)] noisyText.toList := by
  let noise : FieldText := ⟨[], "x\"".toList, [' '], " [1e999, \"\\ud800\"] ".toList⟩
  let setting : FieldText := ⟨[' '], "enqueue_timeout_secs\"".toList, [], ['7']⟩
  have spells : Spells noise.key "x".toList := .plain (by decide) (by decide) (by decide) .close
  have escaped : setting.key = "enqueue_timeout_secs".toList.flatMap Json.escapeChar ++ ['"'] := by
    decide
  have spells' : Spells setting.key "enqueue_timeout_secs".toList := escaped ▸ spells_escaped
  have all : ∀ m ∈ [(none, noise), (some ("enqueue_timeout_secs", countValue 7), setting)],
      IsMember (Settings.shape.map Prod.fst) m.1 m.2 := by
    simp only [List.forall_mem_cons]
    exact ⟨.other (by decide) ⟨isGap_nil, isGap_space⟩ spells isValueText_noise,
      .known (by decide) ⟨isGap_space, isGap_nil⟩ spells' isGap_nil isGap_nil (by decide), by simp⟩
  exact .fields isGap_nil isGap_nil all

theorem formats_read_back_oddRecord :
    Record.ofJson? (Value.object oddFields).text = .ok oddRecord ∧
    Settings.ofJson? noisyText = .ok ⟨5, 300, 7, 300⟩ ∧
    Job.ofJson? oddJob.toJson.text = .ok oddJob := by
  obtain ⟨records, settings, jobs⟩ := formats_read_back
  obtain ⟨legible, -, parts⟩ := records oddRecord
  obtain ⟨legible', whole⟩ := jobs oddJob
  rw [legible.mpr (by decide)] at parts
  rw [legible'.mpr (by decide)] at whole
  refine ⟨?_, ?_, whole ?_ (by decide)⟩
  · refine parts _ oddFields _ rfl ⟨by decide, ?_, ?_⟩ ?_
    · simp [oddFields, oddRecord]
    · simp [oddFields, oddRecord, Record.MayOmit]
    · rw [Value.text, String.toList_ofList]
      exact Json.isObjectText_chars (by simp [oddFields, Record.shape])
  · refine (settings ⟨5, 300, 7, 300⟩ ⟨by decide, by decide, by decide, by decide⟩).2 _ _ _ rfl
      ⟨by decide, ?_, ?_⟩ isObjectText_noisyText
    · simp
    · simp only [List.forall_mem_cons]
      exact ⟨.inr rfl, .inr rfl, .inl (by simp), .inr rfl, by simp⟩
  · refine .object (by decide) ?_
    simp only [oddJob, List.forall_mem_cons]
    refine ⟨.string _, .array ?_, by simp⟩
    simp only [List.forall_mem_cons]
    exact ⟨.whole (by decide), .null, by simp⟩

def plainRecord : Record := ⟨"a", "queues", "", 0, none, .epoch, .epoch⟩

def halfField : FieldText := ⟨[], "\\ud800\"".toList, [], ['0']⟩

/-- A leap second within a minute is read back as the second after it. And another field may be good
JSON, but have a key that is no text: then nothing is read. -/
theorem not_formats_read_back_strayLeapSecond :
    (¬∀ r : Record, Record.ofJson? r.toJson.text = .ok r) ∧
    ¬∀ (r : Record) (fields : List Char) (other : FieldText),
      (∀ t ∈ r.instants, t.IsLegible) → r.toJson.text.toList = '\x7b' :: fields →
      IsGap other.before ∧ IsGap other.between → IsStringBody other.key → IsValueText other.value →
      Record.ofJson? (String.ofList ('\x7b' :: (other.chars ++ ',' :: fields))) = .ok r := by
  constructor
  · intro all
    have read := all { plainRecord with createdAt := .strayLeapSecond }
    rw [Record.ofJson?_text] at read
    have legible := Record.shown_eq_self_iff.mp (Except.ok.inj read)
    exact absurd legible (by decide)
  · intro all
    let fields : List Char := plainRecord.toJson.chars.tail
    have written : plainRecord.toJson.text.toList = '\x7b' :: fields := by
      rw [Value.text, String.toList_ofList]
      rfl
    have key : IsStringBody halfField.key := .word (by decide) .close
    have read := all plainRecord fields halfField (by decide) written ⟨isGap_nil, isGap_nil⟩ key
      (.number .zero .none .none)
    have refused : (Record.ofJson? (String.ofList
        ('\x7b' :: (halfField.chars ++ ',' :: fields)))).isOk = false := by
      rw [Record.ofJson?, Shape.ofText?, String.toList_ofList]
      decide +kernel
    rw [read] at refused
    cases refused

end JobQueue
