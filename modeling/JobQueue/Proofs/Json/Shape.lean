import JobQueue.Proofs.Checked
import JobQueue.Proofs.Json.Grammar
import Mathlib.Data.List.Nodup

/-!
# Fields by name

A text of an object is read field by field: those that a shape knows give their values, in
whatever order they come, and all others are passed over (`Shape.ofText?_of_isObjectText`).
-/

namespace JobQueue.Json

open Time (Instant)

-- ---------------------------------------------------------------------------
-- Texts of objects
-- ---------------------------------------------------------------------------

/-- How a key may be spelt, from after its opening quote up to and with the closing one. -/
inductive Spells : List Char → List Char → Prop
  | close : Spells ['"'] []
  | plain {c : Char} {cs s : List Char} (quote : c ≠ '"') (slash : c ≠ '\\')
      (control : ¬c.toNat < 0x20) (others : Spells cs s) : Spells (c :: cs) (c :: s)
  | short {e c : Char} {cs s : List Char} (letter : shortEscape? e = some c)
      (others : Spells cs s) : Spells ('\\' :: e :: cs) (c :: s)
  | word {h i j k : Char} {n : Nat} {cs s : List Char} (digits : hexWord? h i j k = some n)
      (alone : isLeading n = false ∧ isTrailing n = false) (others : Spells cs s) :
    Spells ('\\' :: 'u' :: h :: i :: j :: k :: cs) (Char.ofNat n :: s)
  | pair {h i j k h' i' j' k' : Char} {n n' : Nat} {cs s : List Char}
      (digits : hexWord? h i j k = some n) (leading : isLeading n = true)
      (digits' : hexWord? h' i' j' k' = some n') (trailing : isTrailing n' = true)
      (others : Spells cs s) :
    Spells ('\\' :: 'u' :: h :: i :: j :: k :: '\\' :: 'u' :: h' :: i' :: j' :: k' :: cs)
      (pairChar n n' :: s)

/-- How a field of an object may stand in a text: one of those with the given names, with its value
as it is written, or another one, with any value. -/
inductive IsMember (names : List String) : Option (String × Value) → FieldText → Prop
  | known {f : FieldText} {name : String} {v : Value} {before after : List Char}
      (named : name ∈ names) (blanks : IsGap f.before ∧ IsGap f.between)
      (spells : Spells f.key name.toList) (blank : IsGap before) (blank' : IsGap after)
      (written : f.value = before ++ (v.chars ++ after)) : IsMember names (some (name, v)) f
  | other {f : FieldText} {name : String} (other : name ∉ names)
      (blanks : IsGap f.before ∧ IsGap f.between) (spells : Spells f.key name.toList)
      (isText : IsValueText f.value) : IsMember names none f

/-- The texts of an object: its fields in their order, and others among them, whose names are not
among the given ones. -/
inductive IsObjectText (names : List String) : Object → List Char → Prop
  | empty {before inside after : List Char} (blank : IsGap before) (blank' : IsGap inside)
      (blank'' : IsGap after) :
    IsObjectText names [] (before ++ '\x7b' :: (inside ++ '\x7d' :: after))
  | fields {before after : List Char} {m : Option (String × Value) × FieldText}
      {ms : List (Option (String × Value) × FieldText)} (blank : IsGap before)
      (blank' : IsGap after) (all : ∀ n ∈ m :: ms, IsMember names n.1 n.2) :
    IsObjectText names ((m :: ms).filterMap Prod.fst) (before ++
      '\x7b' :: (commaSeparated ((m :: ms).map fun n => n.2.chars) ++ '\x7d' :: after))

variable {cs gap rest s left : List Char} {c : Char} {room budget : Nat} {v : Value} {o : Object}
  {kind : Kind} {field : Field} {name key : String} {shape : Shape} {acc : Fields}
  {f : FieldText} {m : Option (String × Value) × FieldText}
  {ms : List (Option (String × Value) × FieldText)}

theorem stringBody_spells {acc : List Char} (spells : Spells cs s) :
    stringBody acc (cs ++ rest) = .ok (String.ofList (acc.reverse ++ s), rest) := by
  induction spells generalizing acc with
  | close => simp [stringBody]
  | plain quote slash control _ ih =>
    rw [List.cons_append, stringBody_plain quote slash control, ih]
    simp
  | short letter _ ih =>
    rw [List.cons_append, List.cons_append, stringBody_short letter, ih]
    simp
  | word digits alone _ ih =>
    simp [stringBody, shortEscape?, digits, alone, ih]
  | @pair _ _ _ _ _ _ _ _ n _ _ _ digits leading digits' trailing _ ih =>
    -- the halves of a pair are told apart by their ranges
    have first : isTrailing n = false := by
      simp only [isLeading, isTrailing, Bool.and_eq_true, decide_eq_true_eq, Bool.and_eq_false_iff,
        decide_eq_false_iff_not] at leading ⊢
      omega
    simp [stringBody, shortEscape?, digits, first, leading, digits', trailing, ih]

theorem spells_escaped : Spells (cs.flatMap escapeChar ++ ['"']) cs := by
  induction cs with
  | nil => exact .close
  | cons c cs ih =>
    rw [List.flatMap_cons, List.append_assoc]
    unfold escapeChar
    split
    · exact .short rfl ih
    · exact .short rfl ih
    · exact .short rfl ih
    · exact .short rfl ih
    · exact .short rfl ih
    · exact .short rfl ih
    · exact .short rfl ih
    · next quote slash _ _ _ _ _ =>
      split
      · next control =>
        obtain ⟨trailing, leading, word⟩ := hexWord?_control c.toNat control
        have same : Char.ofNat c.toNat = c := Char.ofNat_toNat c
        have spelt := Spells.word word ⟨leading, trailing⟩ ih
        rw [same] at spelt
        exact spelt
      · next control => exact .plain quote slash control ih

-- ---------------------------------------------------------------------------
-- Fields of a kind
-- ---------------------------------------------------------------------------

def Kind.field? : Kind → Value → Option Field
  | .text, .string s => some (.text s)
  | .natural limit, .number (.whole n) =>
    if 0 ≤ n ∧ n ≤ limit then some (.natural n.toNat) else none
  | .stamp, .string s => (Instant.ofText? s).map .stamp
  | .optionalStamp, .null => some (.optionalStamp none)
  | .optionalStamp, .string s => (Instant.ofText? s).map fun t => .optionalStamp (some t)
  | .object, .object o => some (.object o)
  | _, _ => none

theorem readText_stringText (text : String) :
    readText (stringText text ++ rest) = .ok (text, rest) := by
  have reads := stringBody_stringText [] text.toList rest
  rw [List.reverse_nil, List.nil_append, String.ofList_toList] at reads
  rw [stringText, List.append_assoc, List.cons_append, readText, skipGap_cons (by decide)]
  exact reads

theorem readStamp_stringText {text : String} {t : Instant} (stamp : Instant.ofText? text = some t) :
    readStamp (stringText text ++ rest) = .ok (t, rest) := by
  rw [readStamp, readText_stringText]
  simp only [bind, Except.bind, stamp]

theorem readOptionalStamp_stringText {text : String} {t : Instant}
    (stamp : Instant.ofText? text = some t) :
    readOptionalStamp (stringText text ++ rest) = .ok (some t, rest) := by
  have reads : readStamp (stringText text ++ rest) = .ok (t, rest) := readStamp_stringText stamp
  rw [stringText, List.append_assoc, List.cons_append] at reads ⊢
  rw [readOptionalStamp, skipGap_cons (by decide)]
  split
  · next same => cases same
  · rw [reads]
    rfl

theorem readNatural_wholeText {n : Int} {limit : Nat} (fits : Fits n) (ends : EndsNumber rest)
    (within : 0 ≤ n ∧ n ≤ limit) :
    readNatural limit (wholeText n ++ rest) = .ok (n.toNat, rest) := by
  obtain ⟨c, cs, written, begins⟩ := exists_wholeText (n := n)
  have reads := number_wholeText fits ends
  rw [written, List.cons_append] at reads ⊢
  rw [readNatural, skipGap_cons (isGap_of_beginsNumber begins)]
  simp only [if_pos begins, reads, if_pos within]

theorem readObject_chars (exact_ : (Value.object o).IsExact) (deep : (Value.object o).depth ≤ room)
    (ends : EndsNumber rest) :
    readObject room ((Value.object o).chars ++ rest) = .ok (o, rest) := by
  have reads := value_chars exact_ deep ends
  obtain ⟨room, rfl⟩ := Nat.exists_eq_add_one_of_ne_zero (Nat.ne_zero_of_lt deep)
  rw [Value.chars, List.cons_append, value, skipGap_cons (by decide)] at reads
  obtain ⟨p, first, same⟩ := bind_eq_ok_iff.mp reads
  obtain ⟨whole, behind⟩ := Prod.mk.inj (Except.ok.inj same)
  obtain rfl : p = (o, rest) := Prod.ext (Value.object.inj whole) behind
  rw [Value.chars, List.cons_append, readObject, skipGap_cons (by decide)]
  exact first

theorem readField_chars (exact_ : v.IsExact) (deep : v.depth ≤ room) (ends : EndsNumber rest)
    (holds : kind.field? v = some field) :
    readField room kind (v.chars ++ rest) = .ok (field, rest) := by
  unfold Kind.field? at holds
  split at holds
  · next text =>
    obtain rfl := Option.some.inj holds
    rw [readField, Value.chars, readText_stringText]
    rfl
  · next limit n =>
    split at holds
    · next within =>
      obtain rfl := Option.some.inj holds
      cases exact_ with
      | whole fits =>
        rw [readField, Value.chars, Number.text, readNatural_wholeText fits ends within]
        rfl
    · cases holds
  · next text =>
    obtain ⟨t, stamp, rfl⟩ := Option.map_eq_some_iff.mp holds
    rw [readField, Value.chars, readStamp_stringText stamp]
    rfl
  · obtain rfl := Option.some.inj holds
    rfl
  · next text =>
    obtain ⟨t, stamp, rfl⟩ := Option.map_eq_some_iff.mp holds
    rw [readField, Value.chars, readOptionalStamp_stringText stamp]
    rfl
  · next o =>
    obtain rfl := Option.some.inj holds
    rw [readField, readObject_chars exact_ deep ends]
    rfl
  · cases holds

theorem readText_skipGap : readText (skipGap s) = readText s := by
  rw [readText, readText, skipGap_skipGap]

theorem readStamp_skipGap : readStamp (skipGap s) = readStamp s := by
  rw [readStamp, readStamp, readText_skipGap]

theorem readField_skipGap : readField room kind (skipGap s) = readField room kind s := by
  cases kind with
  | text => rw [readField, readField, readText_skipGap]
  | natural => rw [readField, readField, readNatural, readNatural, skipGap_skipGap]
  | stamp => rw [readField, readField, readStamp_skipGap]
  | optionalStamp =>
    rw [readField, readField, readOptionalStamp, readOptionalStamp, skipGap_skipGap]
  | object => rw [readField, readField, readObject, readObject, skipGap_skipGap]

-- ---------------------------------------------------------------------------
-- Fields of a shape
-- ---------------------------------------------------------------------------

def Shape.field? (shape : Shape) (name : String) (v : Value) : Option Field :=
  (shape.find? fun f => f.1 = name).bind fun f => f.2.field? v

def Shape.fields (shape : Shape) (o : Object) : Fields :=
  o.filterMap fun f => (shape.field? f.1 f.2).map fun field => (f.1, field)

/-- Whether what is written of a value is read back as the field of a name. -/
structure Shape.Gives (shape : Shape) (room : Nat) (name : String) (v : Value) (field : Field) :
    Prop where
  read : shape.field? name v = some field
  isExact : v.IsExact
  deep : v.depth ≤ room

theorem namedField_known {before after : List Char} (gives : shape.Gives room name v field)
    (fresh : acc.get? name = none) (between : IsGap f.between) (spells : Spells f.key name.toList)
    (blank : IsGap before) (blank' : IsGap after)
    (written : f.value = before ++ (v.chars ++ after)) (ends : EndsNumber rest) :
    namedField shape room acc (f.key ++ (f.between ++ ':' :: (f.value ++ rest))) =
      .ok (acc ++ [(name, field)], after ++ rest) := by
  obtain ⟨⟨name', kind⟩, found, holds⟩ := Option.bind_eq_some_iff.mp gives.read
  have reads := readField_chars gives.isExact gives.deep (endsNumber_append blank' ends) holds
  have value : readField room kind (f.value ++ rest) = .ok (field, after ++ rest) := by
    rw [written, List.append_assoc, List.append_assoc, ← readField_skipGap, skipGap_append blank,
      readField_skipGap, reads]
  rw [namedField, stringBody_spells spells]
  simp only [bind, Except.bind, List.reverse_nil, List.nil_append, String.ofList_toList, found,
    fresh, colon_append between, value]
  rfl

theorem namedField_other (other : name ∉ shape.map Prod.fst) (between : IsGap f.between)
    (spells : Spells f.key name.toList) (isText : IsValueText f.value) (ends : EndsNumber rest) :
    ∃ left, namedField shape room acc (f.key ++ (f.between ++ ':' :: (f.value ++ rest))) =
      .ok (acc, left) ∧ skipGap left = skipGap rest := by
  have unknown : shape.find? (fun f => f.1 = name) = none := by
    rw [List.find?_eq_none]
    intro f member same
    exact other (List.mem_map.mpr ⟨f, member, of_decide_eq_true same⟩)
  obtain ⟨left, skipped, behind⟩ := isText.isPassed.passed (2 * (f.value ++ rest).length + 2) ends
    (by rw [List.length_append]; omega)
  refine ⟨left, ?_, behind⟩
  rw [namedField, stringBody_spells spells]
  simp only [bind, Except.bind, List.reverse_nil, List.nil_append, String.ofList_toList, unknown,
    colon_append between, skipped]
  rfl

theorem Fields.get?_eq_none_iff {fields : Fields} :
    fields.get? name = none ↔ ∀ f ∈ fields, f.1 ≠ name := by
  simp [Fields.get?]

theorem Fields.get?_nil (name : String) : Fields.get? [] name = none := rfl

theorem Shape.mem_fields {f : String × Field} : f ∈ shape.fields o ↔
    ∃ v, (f.1, v) ∈ o ∧ shape.field? f.1 v = some f.2 := by
  simp only [Shape.fields, List.mem_filterMap, Option.map_eq_some_iff]
  constructor
  · rintro ⟨⟨name, v⟩, member, field, holds, rfl⟩
    exact ⟨v, member, holds⟩
  · rintro ⟨v, member, holds⟩
    exact ⟨(f.1, v), member, f.2, holds, rfl⟩

theorem namedField_member (member : IsMember (shape.map Prod.fst) m.1 m.2)
    (gives : ∀ e ∈ m.1, ∃ field, shape.Gives room e.1 e.2 field)
    (fresh : ∀ e ∈ m.1, acc.get? e.1 = none) (ends : EndsNumber rest) : ∃ left,
      namedField shape room acc (m.2.key ++ (m.2.between ++ ':' :: (m.2.value ++ rest))) =
        .ok (acc ++ shape.fields m.1.toList, left) ∧ skipGap left = skipGap rest := by
  obtain ⟨entry, f⟩ := m
  dsimp only at member gives fresh ⊢
  cases member with
  | @known _ name v before after _ blanks spells blank blank' written =>
    obtain ⟨field, given⟩ := gives _ rfl
    refine ⟨after ++ rest, ?_, skipGap_append blank'⟩
    rw [namedField_known given (fresh _ rfl) blanks.2 spells blank blank' written ends]
    simp [Shape.fields, given.read]
  | other other blanks spells isText =>
    simpa [Shape.fields] using namedField_other other blanks.2 spells isText ends

theorem namedFields_close {first : Bool} (ended : skipGap s = '\x7d' :: rest) :
    namedFields shape room (budget + 1) acc first s = .ok (acc, rest) := by
  rw [namedFields, ended]
  rfl

section Step

variable {acc' : Fields} (blanks : IsGap f.before ∧ IsGap f.between)
  (reads : namedField shape room acc (f.key ++ (f.between ++ ':' :: (f.value ++ rest))) =
    .ok (acc', left))
include blanks reads

theorem namedFields_first (text : skipGap s = skipGap (f.chars ++ rest)) :
    namedFields shape room (budget + 1) acc true s =
      namedFields shape room budget acc' false left := by
  rw [namedFields, text, skipGap_chars blanks]
  simp [reads, bind, Except.bind]

theorem namedFields_comma (text : skipGap s = ',' :: (f.chars ++ rest)) :
    namedFields shape room (budget + 1) acc false s =
      namedFields shape room budget acc' false left := by
  rw [namedFields, text]
  simp [skipGap_chars blanks, reads, bind, Except.bind]

end Step

theorem IsMember.blanks {names : List String} (member : IsMember names m.1 m.2) :
    IsGap m.2.before ∧ IsGap m.2.between := by
  generalize m.1 = entry at member
  cases member with
  | known _ blanks | other _ blanks => exact blanks

theorem filterMap_fst_cons :
    (m :: ms).filterMap Prod.fst = m.1.toList ++ ms.filterMap Prod.fst := by
  cases entry : m.1 <;> simp [entry]

theorem Shape.fields_append {o' : Object} :
    shape.fields (o ++ o') = shape.fields o ++ shape.fields o' :=
  List.filterMap_append

variable (shape) in
theorem Shape.get?_append_fields {o' : Object} (distinct : ((o ++ o').map Prod.fst).Nodup)
    (fresh : ∀ e ∈ o', acc.get? e.1 = none) :
    ∀ e ∈ o', Fields.get? (acc ++ shape.fields o) e.1 = none := by
  rw [List.map_append, List.nodup_append] at distinct
  intro e member
  have before := Fields.get?_eq_none_iff.mp (fresh e member)
  refine Fields.get?_eq_none_iff.mpr fun f own => ?_
  rcases List.mem_append.mp own with earlier | new
  · exact before f earlier
  · obtain ⟨v, own, -⟩ := Shape.mem_fields.mp new
    exact distinct.2.2 f.1 (List.mem_map_of_mem (f := Prod.fst) own) e.1
      (List.mem_map_of_mem (f := Prod.fst) member)

theorem endsNumber_commas {ts : List (List Char)} :
    EndsNumber (ts.flatMap (',' :: ·) ++ '\x7d' :: rest) := by
  cases ts <;> exact endsNumber_cons.mpr (by decide)

theorem namedFields_members (all : ∀ n ∈ ms, IsMember (shape.map Prod.fst) n.1 n.2)
    (gives : ∀ e ∈ ms.filterMap Prod.fst, ∃ field, shape.Gives room e.1 e.2 field)
    (distinct : ((ms.filterMap Prod.fst).map Prod.fst).Nodup)
    (fresh : ∀ e ∈ ms.filterMap Prod.fst, acc.get? e.1 = none) (enough : ms.length < budget)
    (text : skipGap s =
      skipGap ((ms.map fun n => n.2.chars).flatMap (',' :: ·) ++ '\x7d' :: rest)) :
    namedFields shape room budget acc false s =
      .ok (acc ++ shape.fields (ms.filterMap Prod.fst), rest) := by
  induction ms generalizing acc budget s with
  | nil =>
    obtain ⟨budget, rfl⟩ := Nat.exists_eq_add_one_of_ne_zero (Nat.ne_zero_of_lt enough)
    rw [namedFields_close (text.trans (skipGap_cons (by decide)))]
    simp [Shape.fields]
  | cons m ms ih =>
    obtain ⟨budget, rfl⟩ := Nat.exists_eq_add_one_of_ne_zero (Nat.ne_zero_of_lt enough)
    obtain ⟨first, others⟩ := List.forall_mem_cons.mp all
    rw [filterMap_fst_cons] at gives distinct fresh ⊢
    rw [List.map_cons, flatMap_comma_append, skipGap_cons (by decide)] at text
    obtain ⟨left, reads, behind⟩ := namedField_member first
      (fun e own => gives e (by simp_all)) (fun e own => fresh e (by simp_all)) endsNumber_commas
    have distinct' := (List.nodup_append.mp (List.map_append ▸ distinct)).2.1
    have fresh' := shape.get?_append_fields distinct fun e member =>
      fresh e (List.mem_append_right _ member)
    rw [namedFields_comma first.blanks reads text,
      ih others (fun e member => gives e (List.mem_append_right _ member)) distinct' fresh'
        (Nat.lt_of_succ_lt_succ enough) behind, Shape.fields_append, List.append_assoc]

theorem length_le_flatMap_comma (ts : List (List Char)) :
    ts.length ≤ (ts.flatMap (',' :: ·)).length := by
  induction ts with
  | nil => exact Nat.zero_le _
  | cons t ts ih =>
    rw [List.flatMap_cons, List.length_append, List.length_cons, List.length_cons]
    omega

theorem skipGap_of_isGap (blank : IsGap gap) : skipGap gap = [] := by
  have whole : skipGap (gap ++ []) = [] := skipGap_append blank
  rwa [List.append_nil] at whole

theorem Shape.read_brace {before text : List Char} (blank : IsGap before) :
    shape.read (before ++ '\x7b' :: text) =
      namedFields shape (depthLimit - 1) (text.length + 1) [] true text := by
  rw [Shape.read, skipGap_append blank, skipGap_cons (by decide)]
  rfl

theorem Shape.read_of_isObjectText {text : List Char}
    (isText : IsObjectText (shape.map Prod.fst) o text)
    (gives : ∀ e ∈ o, ∃ field, shape.Gives (depthLimit - 1) e.1 e.2 field)
    (distinct : (o.map Prod.fst).Nodup) :
    ∃ left, shape.read text = .ok (shape.fields o, left) ∧ skipGap left = [] := by
  cases isText with
  | @empty before inside after blank blank' blank'' =>
    refine ⟨after, ?_, skipGap_of_isGap blank''⟩
    rw [Shape.read_brace blank]
    exact namedFields_close ((skipGap_append blank').trans (skipGap_cons (by decide)))
  | @fields before after m ms blank blank' all =>
    refine ⟨after, ?_, skipGap_of_isGap blank'⟩
    obtain ⟨first, others⟩ := List.forall_mem_cons.mp all
    have text : commaSeparated ((m :: ms).map fun n => n.2.chars) ++ '\x7d' :: after =
        m.2.chars ++ ((ms.map fun n => n.2.chars).flatMap (',' :: ·) ++ '\x7d' :: after) := by
      rw [List.map_cons, commaSeparated, List.append_assoc]
    have enough := length_le_flatMap_comma (ms.map fun n => n.2.chars)
    rw [List.length_map] at enough
    rw [filterMap_fst_cons] at gives distinct ⊢
    have distinct' := (List.nodup_append.mp (List.map_append ▸ distinct)).2.1
    have empty : ∀ e ∈ m.1, Fields.get? [] e.1 = none := fun e _ => Fields.get?_nil e.1
    obtain ⟨left, reads, behind⟩ := namedField_member first (fun e own => gives e (by simp_all))
      empty endsNumber_commas
    have fresh : ∀ e ∈ ms.filterMap Prod.fst,
        Fields.get? ([] ++ shape.fields m.1.toList) e.1 = none :=
      shape.get?_append_fields distinct fun e _ => Fields.get?_nil e.1
    rw [Shape.read_brace blank, text, namedFields_first first.blanks reads rfl,
      namedFields_members others (fun e member => gives e (List.mem_append_right _ member))
        distinct' fresh ?_ behind, Shape.fields_append, List.nil_append]
    simp only [List.length_append, List.length_cons, FieldText.length_chars]
    omega

/-- A text of an object is read as what its known fields are assembled to. -/
theorem Shape.ofText?_of_isObjectText {α : Type} {assemble : Fields → Option α} {a : α}
    {text : List Char} (isText : IsObjectText (shape.map Prod.fst) o text)
    (gives : ∀ e ∈ o, ∃ field, shape.Gives (depthLimit - 1) e.1 e.2 field)
    (distinct : (o.map Prod.fst).Nodup)
    (assembled : assemble (shape.fields o) = some a) :
    shape.ofText? assemble (String.ofList text) = .ok a := by
  obtain ⟨left, reads, ended⟩ := Shape.read_of_isObjectText isText gives distinct
  rw [Shape.ofText?, String.toList_ofList, reads]
  simp only [bind, Except.bind, assembled, finish, ended]
  rfl

-- ---------------------------------------------------------------------------
-- Parts of an object
-- ---------------------------------------------------------------------------

/-- Whether an object has only fields of another one, each once, and lacks only such as may be left
out. -/
structure Object.IsPartOf (part whole : Object) (optional : String → Prop) : Prop where
  distinct : (part.map Prod.fst).Nodup
  sub : ∀ e ∈ part, e ∈ whole
  rest : ∀ e ∈ whole, e ∈ part ∨ optional e.1

theorem Object.get?_eq_some_iff (distinct : (o.map Prod.fst).Nodup) :
    o.get? key = some v ↔ (key, v) ∈ o := by
  induction o with
  | nil => simp [get?]
  | cons e o ih =>
    obtain ⟨k, w⟩ := e
    obtain ⟨fresh, distinct⟩ := List.nodup_cons.mp distinct
    rw [get?, List.mem_cons, Prod.mk.injEq]
    split
    · next same =>
      subst same
      have absent : (k, v) ∉ o := fun member => fresh (List.mem_map.mpr ⟨_, member, rfl⟩)
      simp [absent, eq_comm]
    · next other =>
      have other : key ≠ k := fun same => other same.symm
      simp [ih distinct, other]

theorem Shape.get?_fields (gives : ∀ e ∈ o, ∃ field, shape.Gives room e.1 e.2 field) :
    (shape.fields o).get? key = (o.get? key).bind (shape.field? key) := by
  induction o with
  | nil => rfl
  | cons e o ih =>
    obtain ⟨k, w⟩ := e
    obtain ⟨⟨field, ⟨read, _, _⟩⟩, others⟩ := List.forall_mem_cons.mp gives
    dsimp only at read
    have both : shape.fields ((k, w) :: o) = (k, field) :: shape.fields o := by
      simp [Shape.fields, read]
    rw [both, Object.get?]
    split
    · next same =>
      rw [Option.bind_some, ← same, read]
      simp [Fields.get?]
    · next other =>
      rw [← ih others]
      simp [Fields.get?, other]

structure Entry where
  name : String
  value : Value
  field : Field

def Entry.written (e : Entry) : String × Value := (e.name, e.value)

/-- Whether the entries of an object are read back as they say, each name standing for one. -/
structure Shape.IsHeldBy (shape : Shape) (entries : List Entry) : Prop where
  gives : ∀ e ∈ entries, shape.Gives (depthLimit - 1) e.name e.value e.field
  distinct : (entries.map Entry.name).Nodup

variable {entries : List Entry} {optional : String → Prop}

theorem Object.IsPartOf.exists_entry (isPart : o.IsPartOf (entries.map Entry.written) optional)
    {e : String × Value} (member : e ∈ o) : ∃ entry ∈ entries, entry.written = e :=
  List.mem_map.mp (isPart.sub e member)

theorem Shape.IsHeldBy.gives_part (held : shape.IsHeldBy entries)
    (isPart : o.IsPartOf (entries.map Entry.written) optional) :
    ∀ e ∈ o, ∃ field, shape.Gives (depthLimit - 1) e.1 e.2 field := by
  intro e member
  obtain ⟨entry, own, rfl⟩ := isPart.exists_entry member
  exact ⟨entry.field, held.gives entry own⟩

/-- A part of an object gives its fields, but for those that it leaves out. -/
theorem Shape.IsHeldBy.get?_part (held : shape.IsHeldBy entries)
    (isPart : o.IsPartOf (entries.map Entry.written) optional) :
    ∀ e ∈ entries, (shape.fields o).get? e.name = some e.field ∨
      (shape.fields o).get? e.name = none ∧ optional e.name := by
  intro e member
  rw [Shape.get?_fields (held.gives_part isPart)]
  cases found : o.get? e.name with
  | some v =>
    obtain ⟨other, own, same⟩ :=
      isPart.exists_entry ((Object.get?_eq_some_iff isPart.distinct).mp found)
    obtain ⟨name, rfl⟩ := Prod.mk.inj same
    obtain rfl := List.inj_on_of_nodup_map held.distinct own member name
    exact .inl (held.gives other own).read
  | none =>
    refine .inr ⟨rfl, ?_⟩
    refine (isPart.rest e.written (List.mem_map_of_mem member)).resolve_left fun kept => ?_
    rw [(Object.get?_eq_some_iff isPart.distinct).mpr kept] at found
    cases found

variable (optional) in
theorem Shape.IsHeldBy.isPartOf_self (held : shape.IsHeldBy entries) :
    Object.IsPartOf (entries.map Entry.written) (entries.map Entry.written) optional := by
  refine ⟨?_, fun _ member => member, fun _ member => .inl member⟩
  rw [List.map_map]
  exact held.distinct

theorem Shape.IsHeldBy.ofText?_part {α : Type} {assemble : Fields → Option α} {a : α}
    {text : String} (held : shape.IsHeldBy entries)
    (isPart : o.IsPartOf (entries.map Entry.written) optional)
    (isText : IsObjectText (shape.map Prod.fst) o text.toList)
    (assembled : assemble (shape.fields o) = some a) :
    shape.ofText? assemble text = .ok a := by
  have read := Shape.ofText?_of_isObjectText isText (held.gives_part isPart) isPart.distinct
    assembled
  rwa [String.ofList_toList] at read

-- ---------------------------------------------------------------------------
-- Compact texts
-- ---------------------------------------------------------------------------

def compactField (e : String × Value) : FieldText :=
  ⟨[], e.1.toList.flatMap escapeChar ++ ['"'], [], e.2.chars⟩

theorem isGap_nil : IsGap [] := by simp [IsGap]

theorem isMember_compactField {names : List String} {e : String × Value} (named : e.1 ∈ names) :
    IsMember names (some e) (compactField e) :=
  .known named ⟨isGap_nil, isGap_nil⟩ spells_escaped isGap_nil isGap_nil
    (List.append_nil _).symm

theorem chars_compactField {e : String × Value} :
    (compactField e).chars = '"' :: fieldBody e.1 e.2 := by
  simp [compactField, FieldText.chars, fieldBody]

theorem fieldTail_eq :
    fieldTail o = (o.map fun e => (compactField e).chars).flatMap (',' :: ·) ++ ['\x7d'] := by
  induction o with
  | nil => rfl
  | cons e o ih =>
    rw [fieldTail, fieldChars_cons, ih, List.map_cons, flatMap_comma_append, chars_compactField]

theorem isObjectText_chars {names : List String} (named : ∀ e ∈ o, e.1 ∈ names) :
    IsObjectText names o (Value.object o).chars := by
  cases o with
  | nil => exact .empty isGap_nil isGap_nil isGap_nil
  | cons e o =>
    let member (e : String × Value) : Option (String × Value) × FieldText :=
      (some e, compactField e)
    have all : ∀ n ∈ member e :: o.map member, IsMember names n.1 n.2 := by
      rw [← List.map_cons]
      intro n inside
      obtain ⟨e, own, rfl⟩ := List.mem_map.mp inside
      exact isMember_compactField (named e own)
    have whole : (member e :: o.map member).filterMap Prod.fst = e :: o := by
      simp [member, List.filterMap_map]
    have text : (Value.object (e :: o)).chars = [] ++ '\x7b' ::
        (commaSeparated ((member e :: o.map member).map fun n => n.2.chars) ++ ['\x7d']) := by
      rw [Value.chars, fieldChars_cons, fieldTail_eq]
      simp [commaSeparated, member, chars_compactField, List.map_map, Function.comp_def]
    rw [text, ← whole]
    exact .fields isGap_nil isGap_nil all

theorem Shape.IsHeldBy.ofText?_text {α : Type} {assemble : Fields → Option α} {a : α}
    (held : shape.IsHeldBy entries)
    (named : ∀ e ∈ entries, e.name ∈ shape.map Prod.fst)
    (assembled : assemble (shape.fields (entries.map Entry.written)) = some a) :
    shape.ofText? assemble (Value.object (entries.map Entry.written)).text = .ok a := by
  refine held.ofText?_part (held.isPartOf_self fun _ => False) ?_ assembled
  rw [Value.text, String.toList_ofList]
  refine isObjectText_chars fun e member => ?_
  obtain ⟨entry, own, rfl⟩ := List.mem_map.mp member
  exact named entry own

end JobQueue.Json
