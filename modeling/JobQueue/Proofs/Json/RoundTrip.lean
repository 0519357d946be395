import JobQueue.Proofs.Json.Scalar

/-!
# Values in a text

A value is read back as it was written, fields in their order, if its numbers are whole and fit
into 64 bits and if it is not nested too deep for the reader.
-/

namespace JobQueue.Json

variable {rest cs : List Char} {c : Char} {room budget : Nat} {v : Value} {vs : List Value}
  {o acc : Object} {n : Int} {key : String}

/-- Whether the numbers of a value are whole and fit into 64 bits, and its objects have each key
once. -/
inductive Value.IsExact : Value → Prop
  | null : IsExact .null
  | bool (b : Bool) : IsExact (.bool b)
  | whole {n : Int} (fits : Fits n) : IsExact (.number (.whole n))
  | string (s : String) : IsExact (.string s)
  | array {items : List Value} (all : ∀ v ∈ items, IsExact v) : IsExact (.array items)
  | object {fields : Object} (distinct : (fields.map Prod.fst).Nodup)
      (all : ∀ field ∈ fields, IsExact field.2) : IsExact (.object fields)

-- ---------------------------------------------------------------------------
-- Depth
-- ---------------------------------------------------------------------------

theorem Value.depth_le_of_mem (member : v ∈ vs) : v.depth ≤ Value.depthOfItems vs := by
  induction vs with
  | nil => cases member
  | cons w vs ih =>
    rw [depthOfItems]
    rcases List.mem_cons.mp member with rfl | later
    · exact Nat.le_max_left _ _
    · exact Nat.le_trans (ih later) (Nat.le_max_right _ _)

theorem Value.depthOfFields_eq : Value.depthOfFields o = Value.depthOfItems (o.map Prod.snd) := by
  induction o with
  | nil => rfl
  | cons field o ih => simp [depthOfFields, depthOfItems, ih]

-- ---------------------------------------------------------------------------
-- The first character
-- ---------------------------------------------------------------------------

theorem skipGap_cons (solid : isGap c = false) : skipGap (c :: rest) = c :: rest := by
  simp [skipGap, solid]

abbrev BeginsNumber (c : Char) : Prop := c = '-' ∨ c.isDigit = true

theorem exists_wholeText : ∃ c cs, wholeText n = c :: cs ∧ BeginsNumber c := by
  unfold wholeText
  split
  · exact ⟨'-', _, rfl, .inl rfl⟩
  · obtain ⟨c, cs, written⟩ := List.exists_cons_of_ne_nil (Nat.toDigits_ne_nil (n := n.natAbs))
    exact ⟨c, cs, written, .inr (isDigit_of_mem_toDigits c (written ▸ List.mem_cons_self))⟩

theorem isGap_of_beginsNumber (begins : BeginsNumber c) : isGap c = false := by
  simp only [isGap, Bool.or_eq_false_iff, decide_eq_false_iff_not]
  refine ⟨⟨⟨?_, ?_⟩, ?_⟩, ?_⟩ <;>
    · rintro rfl
      exact absurd begins (by decide)

theorem value_of_beginsNumber (begins : BeginsNumber c) :
    value room (c :: rest) = (number (c :: rest)).map fun (n, rest) => (.number n, rest) := by
  have solid : skipGap (c :: rest) = c :: rest := skipGap_cons (isGap_of_beginsNumber begins)
  unfold value
  rw [solid]
  split
  case h_8 first _ same =>
    obtain ⟨rfl, rfl⟩ := List.cons.inj same
    rw [if_pos begins]
    cases number (c :: rest) <;> rfl
  case h_1 same => cases same
  -- what begins otherwise is no number
  all_goals
    rename_i same
    obtain ⟨rfl, -⟩ := List.cons.inj same
    exact absurd begins (by decide)

theorem Value.IsExact.opens (exact_ : v.IsExact) :
    ∃ c cs, v.chars = c :: cs ∧ isGap c = false ∧ c ≠ ']' := by
  cases exact_ with
  | null => exact ⟨_, _, rfl, by decide⟩
  | bool b => cases b <;> exact ⟨_, _, rfl, by decide⟩
  | @whole n fits =>
    obtain ⟨c, cs, written, begins⟩ := exists_wholeText (n := n)
    refine ⟨c, cs, written, isGap_of_beginsNumber begins, ?_⟩
    rintro rfl
    exact absurd begins (by decide)
  | string s => exact ⟨_, _, rfl, by decide⟩
  | array all => exact ⟨_, _, rfl, by decide⟩
  | object distinct all => exact ⟨_, _, rfl, by decide⟩

-- ---------------------------------------------------------------------------
-- Arrays
-- ---------------------------------------------------------------------------

structure IsReadBy (item : List Char → Except Fault (Value × List Char)) (v : Value) : Prop where
  opens : ∃ c cs, v.chars = c :: cs ∧ isGap c = false ∧ c ≠ ']'
  reads {rest : List Char} (ends : EndsNumber rest) : item (v.chars ++ rest) = .ok (v, rest)

variable {item : List Char → Except Fault (Value × List Char)}

theorem endsNumber_cons : EndsNumber (c :: rest) ↔
    c.isDigit = false ∧ c ≠ '.' ∧ c ≠ 'e' ∧ c ≠ 'E' := by
  simp [EndsNumber]

def itemTail : List Value → List Char
  | [] => [']']
  | v :: vs => ',' :: itemChars (v :: vs)

theorem itemChars_cons : itemChars (v :: vs) = v.chars ++ itemTail vs := by
  cases vs <;> simp [itemChars, itemTail]

theorem endsNumber_itemTail : EndsNumber (itemTail vs ++ rest) := by
  cases vs <;> exact endsNumber_cons.mpr (by decide)

theorem length_lt_itemTail (vs : List Value) : vs.length < (itemTail vs).length := by
  induction vs with
  | nil => exact Nat.one_pos
  | cons v vs ih =>
    rw [itemTail, itemChars_cons, List.length_cons, List.length_cons, List.length_append]
    omega

theorem items_close {acc : List Value} {first : Bool} :
    items item (budget + 1) acc first (']' :: rest) = .ok (acc.reverse, rest) := rfl

theorem items_first {acc : List Value} (read : IsReadBy item v) (ends : EndsNumber rest) :
    items item (budget + 1) acc true (v.chars ++ rest) =
      items item budget (v :: acc) false rest := by
  have reads := read.reads ends
  obtain ⟨c, cs, written, solid, inside⟩ := read.opens
  rw [written, List.cons_append] at reads ⊢
  rw [items, skipGap_cons solid]
  simp only [if_true, reads]
  rfl

theorem items_comma {acc : List Value} (read : IsReadBy item v) (ends : EndsNumber rest) :
    items item (budget + 1) acc false (',' :: (v.chars ++ rest)) =
      items item budget (v :: acc) false rest := by
  have reads := read.reads ends
  obtain ⟨c, cs, written, solid, inside⟩ := read.opens
  rw [written, List.cons_append] at reads ⊢
  rw [items, skipGap_cons (c := ',') (by decide)]
  simp [skipGap_cons solid, inside, reads]
  rfl

theorem items_itemTail {acc : List Value} (read : ∀ v ∈ vs, IsReadBy item v)
    (enough : vs.length < budget) :
    items item budget acc false (itemTail vs ++ rest) = .ok (acc.reverse ++ vs, rest) := by
  induction vs generalizing acc budget with
  | nil =>
    obtain ⟨budget, rfl⟩ := Nat.exists_eq_add_one_of_ne_zero (Nat.ne_zero_of_lt enough)
    rw [List.append_nil]
    exact items_close
  | cons v vs ih =>
    obtain ⟨budget, rfl⟩ := Nat.exists_eq_add_one_of_ne_zero (Nat.ne_zero_of_lt enough)
    obtain ⟨first, others⟩ := List.forall_mem_cons.mp read
    rw [itemTail, itemChars_cons, List.cons_append, List.append_assoc,
      items_comma first endsNumber_itemTail, ih others (Nat.lt_of_succ_lt_succ enough)]
    simp

theorem items_itemChars (rest : List Char) (read : ∀ v ∈ vs, IsReadBy item v) :
    items item ((itemChars vs ++ rest).length + 1) [] true (itemChars vs ++ rest) =
      .ok (vs, rest) := by
  cases vs with
  | nil => rfl
  | cons v vs =>
    obtain ⟨first, others⟩ := List.forall_mem_cons.mp read
    have enough := length_lt_itemTail vs
    rw [itemChars_cons, List.append_assoc, items_first first endsNumber_itemTail,
      items_itemTail others (by simp only [List.length_append]; omega)]
    rfl

-- ---------------------------------------------------------------------------
-- Objects
-- ---------------------------------------------------------------------------

def fieldBody (key : String) (v : Value) : List Char :=
  key.toList.flatMap escapeChar ++ '"' :: ':' :: v.chars

theorem field_fieldBody (key : String) (read : IsReadBy item v) (ends : EndsNumber rest) :
    field item (fieldBody key v ++ rest) = .ok ((key, v), rest) := by
  have colons : colon (':' :: (v.chars ++ rest)) = .ok (v.chars ++ rest) := rfl
  rw [field, fieldBody, List.append_assoc, List.cons_append, List.cons_append,
    stringBody_stringText, List.reverse_nil, List.nil_append, String.ofList_toList]
  simp only [bind, Except.bind, colons, read.reads ends]
  rfl

def fieldTail : Object → List Char
  | [] => ['\x7d']
  | field :: o => ',' :: fieldChars (field :: o)

theorem fieldChars_cons : fieldChars ((key, v) :: o) = '"' :: fieldBody key v ++ fieldTail o := by
  cases o <;> simp [fieldChars, fieldTail, fieldBody, stringText]

theorem endsNumber_fieldTail : EndsNumber (fieldTail o ++ rest) := by
  cases o <;> exact endsNumber_cons.mpr (by decide)

theorem length_lt_fieldTail (o : Object) : o.length < (fieldTail o).length := by
  induction o with
  | nil => exact Nat.one_pos
  | cons field o ih =>
    rw [fieldTail, fieldChars_cons, List.length_cons, List.length_cons, List.length_append,
      List.length_cons]
    omega

theorem fields_close {first : Bool} :
    fields item (budget + 1) acc first ('\x7d' :: rest) = .ok (acc, rest) := rfl

theorem fields_first (read : IsReadBy item v) (ends : EndsNumber rest) :
    fields item (budget + 1) acc true ('"' :: fieldBody key v ++ rest) =
      fields item budget (acc.insert key v) false rest := by
  have reads := field_fieldBody key read ends
  rw [fields, List.cons_append, skipGap_cons (by decide)]
  simp [reads]
  rfl

theorem fields_comma (read : IsReadBy item v) (ends : EndsNumber rest) :
    fields item (budget + 1) acc false (',' :: '"' :: fieldBody key v ++ rest) =
      fields item budget (acc.insert key v) false rest := by
  have reads := field_fieldBody key read ends
  have behind : skipGap ('"' :: (fieldBody key v ++ rest)) = '"' :: (fieldBody key v ++ rest) :=
    skipGap_cons (by decide)
  rw [fields, List.cons_append, skipGap_cons (by decide)]
  simp [behind, reads]
  rfl

theorem fields_fieldTail (read : ∀ field ∈ o, IsReadBy item field.2)
    (distinct : ((acc ++ o).map Prod.fst).Nodup) (enough : o.length < budget) :
    fields item budget acc false (fieldTail o ++ rest) = .ok (acc ++ o, rest) := by
  induction o generalizing acc budget with
  | nil =>
    obtain ⟨budget, rfl⟩ := Nat.exists_eq_add_one_of_ne_zero (Nat.ne_zero_of_lt enough)
    rw [List.append_nil]
    exact fields_close
  | cons field o ih =>
    obtain ⟨budget, rfl⟩ := Nat.exists_eq_add_one_of_ne_zero (Nat.ne_zero_of_lt enough)
    obtain ⟨key, v⟩ := field
    obtain ⟨first, others⟩ := List.forall_mem_cons.mp read
    rw [List.map_append, List.map_cons] at distinct
    have fresh : key ∉ acc.map Prod.fst := fun member =>
      (List.nodup_append.mp distinct).2.2 key member key List.mem_cons_self rfl
    have appended : acc ++ (key, v) :: o = acc.insert key v ++ o := by
      rw [Object.insert_of_notMem v fresh, List.append_assoc, List.singleton_append]
    rw [fieldTail, fieldChars_cons, ← List.cons_append, List.append_assoc,
      fields_comma first endsNumber_fieldTail, appended]
    refine ih others ?_ (Nat.lt_of_succ_lt_succ enough)
    rwa [← appended, List.map_append, List.map_cons]

theorem fields_fieldChars (rest : List Char) (read : ∀ field ∈ o, IsReadBy item field.2)
    (distinct : (o.map Prod.fst).Nodup) :
    fields item ((fieldChars o ++ rest).length + 1) [] true (fieldChars o ++ rest) =
      .ok (o, rest) := by
  cases o with
  | nil => rfl
  | cons field o =>
    obtain ⟨key, v⟩ := field
    obtain ⟨first, others⟩ := List.forall_mem_cons.mp read
    have enough := length_lt_fieldTail o
    rw [fieldChars_cons, List.append_assoc, fields_first first endsNumber_fieldTail,
      fields_fieldTail others distinct (by simp only [List.length_append]; omega)]
    rfl

-- ---------------------------------------------------------------------------
-- Values
-- ---------------------------------------------------------------------------

theorem value_chars (exact_ : v.IsExact) (deep : v.depth ≤ room) (ends : EndsNumber rest) :
    value room (v.chars ++ rest) = .ok (v, rest) := by
  induction exact_ generalizing room rest with
  | null =>
    rw [value]
    rfl
  | bool b =>
    rw [value]
    cases b <;> rfl
  | @whole n fits =>
    obtain ⟨c, cs, written, begins⟩ := exists_wholeText (n := n)
    have reads := number_wholeText fits ends
    rw [written, List.cons_append] at reads
    rw [Value.chars, Number.text, written, List.cons_append, value_of_beginsNumber begins, reads]
    rfl
  | string s =>
    have reads := stringBody_stringText [] s.toList rest
    rw [List.reverse_nil, List.nil_append, String.ofList_toList] at reads
    rw [Value.chars, stringText, List.append_assoc, List.cons_append, value,
      skipGap_cons (by decide)]
    simp only [List.singleton_append, reads]
    rfl
  | @array items all ih =>
    obtain ⟨room, rfl⟩ := Nat.exists_eq_add_one_of_ne_zero (Nat.ne_zero_of_lt deep)
    have read (v : Value) (member : v ∈ items) : IsReadBy (value room) v :=
      ⟨(all v member).opens, ih v member (Nat.le_trans (Value.depth_le_of_mem member)
        (Nat.le_of_succ_le_succ deep))⟩
    have reads := items_itemChars rest read
    rw [Value.chars, List.cons_append, value, skipGap_cons (by decide)]
    simp only [reads]
    rfl
  | @object fields distinct all ih =>
    obtain ⟨room, rfl⟩ := Nat.exists_eq_add_one_of_ne_zero (Nat.ne_zero_of_lt deep)
    have read (field : String × Value) (member : field ∈ fields) :
        IsReadBy (value room) field.2 := by
      have within := Value.depth_le_of_mem (List.mem_map_of_mem (f := Prod.snd) member)
      rw [← Value.depthOfFields_eq] at within
      exact ⟨(all field member).opens,
        ih field member (Nat.le_trans within (Nat.le_of_succ_le_succ deep))⟩
    have reads := fields_fieldChars rest read distinct
    rw [Value.chars, List.cons_append, value, skipGap_cons (by decide)]
    simp only [reads]
    rfl

theorem Value.ofText?_text (exact_ : v.IsExact) (deep : v.depth ≤ depthLimit) :
    Value.ofText? v.text = .ok v := by
  have read : value depthLimit (v.chars ++ []) = .ok (v, []) :=
    value_chars exact_ deep (by simp [EndsNumber])
  rw [List.append_nil] at read
  rw [Value.ofText?, Value.text, String.toList_ofList, read]
  rfl

end JobQueue.Json
