import JobQueue.Json.Shape
import JobQueue.Proofs.Json.RoundTrip
import Mathlib.Data.List.DropRight

/-!
# The texts of values

What a value may look like in a text: with blanks wherever they may stand, with numbers of any size,
and nested to any depth. Where nobody asks for a value the reader passes over every such text
(`IsValueText.isPassed`).
-/

namespace JobQueue.Json

-- ---------------------------------------------------------------------------
-- The grammar
-- ---------------------------------------------------------------------------

def IsGap (cs : List Char) : Prop := ∀ c ∈ cs, isGap c = true

def IsDigits (cs : List Char) : Prop := cs ≠ [] ∧ ∀ c ∈ cs, c.isDigit = true

inductive IsWholePart : List Char → Prop
  | zero : IsWholePart ['0']
  | digits {c : Char} {cs : List Char} (first : c.isDigit = true) (nonzero : c ≠ '0')
      (others : ∀ d ∈ cs, d.isDigit = true) : IsWholePart (c :: cs)

inductive IsFractionPart : List Char → Prop
  | none : IsFractionPart []
  | digits {cs : List Char} (digits : IsDigits cs) : IsFractionPart ('.' :: cs)

inductive IsExponentPart : List Char → Prop
  | none : IsExponentPart []
  | plain {e : Char} {cs : List Char} (letter : e = 'e' ∨ e = 'E') (digits : IsDigits cs) :
    IsExponentPart (e :: cs)
  | signed {e c : Char} {cs : List Char} (letter : e = 'e' ∨ e = 'E') (sign : c = '+' ∨ c = '-')
      (digits : IsDigits cs) : IsExponentPart (e :: c :: cs)

inductive IsStringBody : List Char → Prop
  | close : IsStringBody ['"']
  | plain {c : Char} {cs : List Char} (quote : c ≠ '"') (slash : c ≠ '\\')
      (control : ¬c.toNat < 0x20) (others : IsStringBody cs) : IsStringBody (c :: cs)
  | short {e : Char} {cs : List Char} (letter : (shortEscape? e).isSome)
      (others : IsStringBody cs) : IsStringBody ('\\' :: e :: cs)
  | word {h i j k : Char} {cs : List Char} (digits : (hexWord? h i j k).isSome)
      (others : IsStringBody cs) : IsStringBody ('\\' :: 'u' :: h :: i :: j :: k :: cs)

def commaSeparated : List (List Char) → List Char
  | [] => []
  | t :: ts => t ++ ts.flatMap (',' :: ·)

structure FieldText where
  before : List Char
  key : List Char
  between : List Char
  value : List Char

def FieldText.chars (f : FieldText) : List Char :=
  f.before ++ '"' :: (f.key ++ (f.between ++ ':' :: f.value))

/-- The text of a value, with blanks before and after it. -/
inductive IsValueText : List Char → Prop
  | null : IsValueText ['n', 'u', 'l', 'l']
  | true : IsValueText ['t', 'r', 'u', 'e']
  | false : IsValueText ['f', 'a', 'l', 's', 'e']
  | number {whole fraction exponent : List Char} (isWhole : IsWholePart whole)
      (isFraction : IsFractionPart fraction) (isExponent : IsExponentPart exponent) :
    IsValueText (whole ++ (fraction ++ exponent))
  | negative {whole fraction exponent : List Char} (isWhole : IsWholePart whole)
      (isFraction : IsFractionPart fraction) (isExponent : IsExponentPart exponent) :
    IsValueText ('-' :: (whole ++ (fraction ++ exponent)))
  | string {body : List Char} (isBody : IsStringBody body) : IsValueText ('"' :: body)
  | emptyArray {gap : List Char} (blank : IsGap gap) : IsValueText ('[' :: (gap ++ [']']))
  | array {t : List Char} {ts : List (List Char)} (all : ∀ item ∈ t :: ts, IsValueText item) :
    IsValueText ('[' :: (commaSeparated (t :: ts) ++ [']']))
  | emptyObject {gap : List Char} (blank : IsGap gap) : IsValueText ('\x7b' :: (gap ++ ['\x7d']))
  | object {f : FieldText} {fs : List FieldText}
      (blanks : ∀ g ∈ f :: fs, IsGap g.before ∧ IsGap g.between)
      (keys : ∀ g ∈ f :: fs, IsStringBody g.key) (all : ∀ g ∈ f :: fs, IsValueText g.value) :
    IsValueText ('\x7b' :: (commaSeparated ((f :: fs).map FieldText.chars) ++ ['\x7d']))
  | padded {before cs after : List Char} (blank : IsGap before) (blank' : IsGap after)
      (isText : IsValueText cs) : IsValueText (before ++ (cs ++ after))

variable {cs gap rest s t : List Char} {c : Char} {budget : Nat} {ts : List (List Char)}
  {f : FieldText} {fs : List FieldText}

-- ---------------------------------------------------------------------------
-- Blanks
-- ---------------------------------------------------------------------------

theorem skipGap_append (blank : IsGap gap) : skipGap (gap ++ rest) = skipGap rest :=
  List.dropWhile_append_of_pos blank

theorem skipGap_skipGap : skipGap (skipGap s) = skipGap s :=
  List.dropWhile_idempotent isGap s

theorem endsNumber_append (blank : IsGap gap) (ends : EndsNumber rest) :
    EndsNumber (gap ++ rest) := by
  cases gap with
  | nil => exact ends
  | cons c gap =>
    have first := blank c List.mem_cons_self
    refine endsNumber_cons.mpr ⟨?_, ?_, ?_, ?_⟩
    · by_contra digit
      rw [isGap_of_beginsNumber (.inr (by simpa using digit))] at first
      cases first
    all_goals
      rintro rfl
      revert first
      decide

theorem colon_append (blank : IsGap gap) : colon (gap ++ ':' :: rest) = .ok rest := by
  rw [colon, skipGap_append blank, skipGap_cons (by decide)]
  rfl

-- ---------------------------------------------------------------------------
-- Numbers
-- ---------------------------------------------------------------------------

theorem EndsNumber.digit (ends : EndsNumber rest) : ∀ c ∈ rest.head?, c.isDigit = false :=
  fun c first => (ends c first).1

theorem passDigits_append (digits : ∀ c ∈ cs, c.isDigit = true)
    (ends : ∀ c ∈ rest.head?, c.isDigit = false) : passDigits (cs ++ rest) = (cs.length, rest) := by
  induction cs with
  | nil =>
    cases rest with
    | nil => rfl
    | cons c rest => simp [passDigits, ends c rfl]
  | cons c cs ih =>
    obtain ⟨first, others⟩ := List.forall_mem_cons.mp digits
    simp [passDigits, first, ih others]

theorem skipExponent_plain (digits : IsDigits cs) (ends : EndsNumber rest) :
    skipExponent (cs ++ rest) = .ok rest := by
  obtain ⟨filled, digits⟩ := digits
  cases cs with
  | nil => exact absurd rfl filled
  | cons c cs =>
    obtain ⟨first, others⟩ := List.forall_mem_cons.mp digits
    rw [List.cons_append, skipExponent.eq_def]
    split
    · next same =>
      obtain ⟨rfl, -⟩ := List.cons.inj same
      cases first
    · next same =>
      obtain ⟨rfl, -⟩ := List.cons.inj same
      cases first
    · simp [first, passDigits_append others ends.digit]

theorem skipExponent_signed (sign : c = '+' ∨ c = '-') (digits : IsDigits cs)
    (ends : EndsNumber rest) : skipExponent (c :: (cs ++ rest)) = .ok rest := by
  obtain ⟨filled, digits⟩ := digits
  cases cs with
  | nil => exact absurd rfl filled
  | cons d cs =>
    obtain ⟨first, others⟩ := List.forall_mem_cons.mp digits
    rcases sign with rfl | rfl <;>
      simp [skipExponent, first, passDigits_append others ends.digit]

theorem skipAfterFraction_append (exponent : IsExponentPart cs) (ends : EndsNumber rest) :
    skipAfterFraction (cs ++ rest) = .ok rest := by
  cases exponent with
  | none =>
    cases rest with
    | nil => rfl
    | cons c rest =>
      obtain ⟨-, -, lower, upper⟩ := ends c rfl
      rw [List.nil_append, skipAfterFraction.eq_def]
      split <;> simp_all
  | plain letter digits =>
    have passed := skipExponent_plain digits ends
    rcases letter with rfl | rfl <;> exact passed
  | signed letter sign digits =>
    have passed := skipExponent_signed sign digits ends
    rcases letter with rfl | rfl <;> exact passed

theorem head?_exponent (exponent : IsExponentPart cs) (ends : EndsNumber rest) :
    ∀ c ∈ (cs ++ rest).head?, c.isDigit = false ∧ c ≠ '.' := by
  intro c first
  cases exponent with
  | none => exact ⟨(ends c first).1, (ends c first).2.1⟩
  | plain letter | signed letter =>
    obtain rfl := Option.some.inj first
    rcases letter with rfl | rfl <;> decide

theorem skipAfterWhole_append {fraction exponent : List Char} (isFraction : IsFractionPart fraction)
    (isExponent : IsExponentPart exponent) (ends : EndsNumber rest) :
    skipAfterWhole (fraction ++ (exponent ++ rest)) = .ok rest := by
  have passed := skipAfterFraction_append isExponent ends
  have first := head?_exponent isExponent ends
  cases isFraction with
  | none =>
    rw [List.nil_append, skipAfterWhole.eq_def]
    split
    · next same =>
      rw [same] at first
      exact absurd rfl (first _ rfl).2
    · exact passed
  | @digits cs digits =>
    have counted := passDigits_append digits.2 fun c member => (first c member).1
    have some_ := List.length_pos_iff.mpr digits.1
    rw [List.cons_append, skipAfterWhole, counted]
    split
    · next same =>
      have none := (Prod.mk.inj same).1
      omega
    · next same =>
      obtain ⟨-, rfl⟩ := Prod.mk.inj same
      exact passed

theorem skipNumber_append {whole fraction exponent : List Char} (isWhole : IsWholePart whole)
    (isFraction : IsFractionPart fraction) (isExponent : IsExponentPart exponent)
    (ends : EndsNumber rest) :
    skipNumber (whole ++ (fraction ++ (exponent ++ rest))) = .ok rest := by
  have passed := skipAfterWhole_append isFraction isExponent ends
  have behind : ∀ c ∈ (fraction ++ (exponent ++ rest)).head?, c.isDigit = false := by
    intro c first
    cases isFraction with
    | none => exact (head?_exponent isExponent ends c first).1
    | digits =>
      obtain rfl := Option.some.inj first
      rfl
  cases isWhole with
  | zero =>
    generalize fraction ++ (exponent ++ rest) = after at passed behind
    cases after with
    | nil => exact passed
    | cons c after => simp [skipNumber, behind c rfl, passed]
  | @digits c cs first nonzero others =>
    rw [List.cons_append, skipNumber.eq_def]
    split
    · next same => cases same
    · next same => exact absurd (List.cons.inj same).1 nonzero
    · next same =>
      obtain ⟨rfl, rfl⟩ := List.cons.inj same
      rw [if_pos first, passDigits_append others behind]
      exact passed

-- ---------------------------------------------------------------------------
-- Strings
-- ---------------------------------------------------------------------------

theorem skipString_append (body : IsStringBody cs) : skipString (cs ++ rest) = .ok rest := by
  induction body with
  | close => rfl
  | @plain c cs quote slash control _ ih =>
    rw [List.cons_append, skipString.eq_def]
    split <;> simp_all
  | @short e cs letter _ ih =>
    rw [List.cons_append, List.cons_append, skipString.eq_def]
    simp [letter, ih]
  | @word h i j k cs digits _ ih =>
    simp [skipString, shortEscape?, digits, ih]

-- ---------------------------------------------------------------------------
-- Values
-- ---------------------------------------------------------------------------

theorem skipValue_skipGap : skipValue budget (skipGap s) = skipValue budget s := by
  cases budget with
  | zero => rfl
  | succ budget => rw [skipValue, skipValue, skipGap_skipGap]

theorem skipItems_skipGap : skipItems budget (skipGap s) = skipItems budget s := by
  cases budget with
  | zero => rfl
  | succ budget => rw [skipItems, skipItems, skipValue_skipGap]

theorem skipFields_skipGap : skipFields budget (skipGap s) = skipFields budget s := by
  cases budget with
  | zero => rfl
  | succ budget => rw [skipFields, skipFields, skipGap_skipGap]

/-- Whether a text is passed over as a value is, up to blanks behind it. -/
structure IsPassed (cs : List Char) : Prop where
  opens : ∃ c after, c ≠ ']' ∧ ∀ rest, skipGap (cs ++ rest) = c :: (after ++ rest)
  passed (budget : Nat) {rest : List Char} (ends : EndsNumber rest) (enough : cs.length ≤ budget) :
    ∃ left, skipValue budget (cs ++ rest) = .ok left ∧ skipGap left = skipGap rest

theorem flatMap_comma_append (t : List Char) (ts : List (List Char)) :
    (t :: ts).flatMap (',' :: ·) ++ rest = ',' :: (t ++ (ts.flatMap (',' :: ·) ++ rest)) := by
  simp

theorem skipItems_append (all : ∀ item ∈ t :: ts, IsPassed item)
    (enough : (t ++ ts.flatMap (',' :: ·)).length < budget) :
    skipItems budget (t ++ (ts.flatMap (',' :: ·) ++ ']' :: rest)) = .ok rest := by
  induction ts generalizing t budget with
  | nil =>
    obtain ⟨budget, rfl⟩ := Nat.exists_eq_add_one_of_ne_zero (Nat.ne_zero_of_lt enough)
    rw [List.length_append] at enough
    have ends : EndsNumber (']' :: rest) := endsNumber_cons.mpr (by decide)
    obtain ⟨left, skipped, behind⟩ :=
      (all t List.mem_cons_self).passed budget ends (by omega)
    rw [List.flatMap_nil, List.nil_append, skipItems, skipped]
    simp only [bind, Except.bind, behind, skipGap_cons (c := ']') (by decide)]
  | cons u ts ih =>
    obtain ⟨budget, rfl⟩ := Nat.exists_eq_add_one_of_ne_zero (Nat.ne_zero_of_lt enough)
    obtain ⟨first, others⟩ := List.forall_mem_cons.mp all
    rw [List.flatMap_cons, List.length_append, List.cons_append, List.length_cons] at enough
    have ends : EndsNumber (',' :: (u ++ (ts.flatMap (',' :: ·) ++ ']' :: rest))) :=
      endsNumber_cons.mpr (by decide)
    obtain ⟨left, skipped, behind⟩ := first.passed budget ends (by omega)
    rw [flatMap_comma_append, skipItems, skipped]
    simp only [bind, Except.bind, behind, skipGap_cons (c := ',') (by decide)]
    exact ih others (by omega)

section Field

variable {left : List Char} (blanks : IsGap f.before ∧ IsGap f.between) (key : IsStringBody f.key)
include blanks

theorem skipGap_chars : skipGap (f.chars ++ rest) =
    '"' :: (f.key ++ (f.between ++ ':' :: (f.value ++ rest))) := by
  rw [FieldText.chars, List.append_assoc, skipGap_append blanks.1, List.cons_append,
    skipGap_cons (by decide)]
  simp

include key

theorem skipFields_last (skipped : skipValue budget (f.value ++ rest) = .ok left)
    (behind : skipGap left = '\x7d' :: s) : skipFields (budget + 1) (f.chars ++ rest) = .ok s := by
  rw [skipFields, skipGap_chars blanks]
  simp only [bind, Except.bind, skipString_append key, colon_append blanks.2, skipped, behind]

theorem skipFields_comma (skipped : skipValue budget (f.value ++ rest) = .ok left)
    (behind : skipGap left = ',' :: s) :
    skipFields (budget + 1) (f.chars ++ rest) = skipFields budget s := by
  rw [skipFields, skipGap_chars blanks]
  simp only [bind, Except.bind, skipString_append key, colon_append blanks.2, skipped, behind]

end Field

theorem FieldText.length_chars : f.chars.length =
    f.before.length + f.key.length + f.between.length + f.value.length + 2 := by
  simp only [FieldText.chars, List.length_append, List.length_cons]
  omega

theorem skipFields_append (blanks : ∀ g ∈ f :: fs, IsGap g.before ∧ IsGap g.between)
    (keys : ∀ g ∈ f :: fs, IsStringBody g.key) (all : ∀ g ∈ f :: fs, IsPassed g.value)
    (enough : (f.chars ++ (fs.map FieldText.chars).flatMap (',' :: ·)).length < budget) :
    skipFields budget (f.chars ++ ((fs.map FieldText.chars).flatMap (',' :: ·) ++ '\x7d' :: rest)) =
      .ok rest := by
  induction fs generalizing f budget with
  | nil =>
    obtain ⟨budget, rfl⟩ := Nat.exists_eq_add_one_of_ne_zero (Nat.ne_zero_of_lt enough)
    rw [List.length_append, FieldText.length_chars] at enough
    have ends : EndsNumber ('\x7d' :: rest) := endsNumber_cons.mpr (by decide)
    obtain ⟨left, skipped, behind⟩ :=
      (all f List.mem_cons_self).passed budget ends (by omega)
    rw [skipGap_cons (by decide)] at behind
    exact skipFields_last (blanks f List.mem_cons_self) (keys f List.mem_cons_self) skipped behind
  | cons g fs ih =>
    obtain ⟨budget, rfl⟩ := Nat.exists_eq_add_one_of_ne_zero (Nat.ne_zero_of_lt enough)
    obtain ⟨blank, blanks⟩ := List.forall_mem_cons.mp blanks
    obtain ⟨key, keys⟩ := List.forall_mem_cons.mp keys
    obtain ⟨first, others⟩ := List.forall_mem_cons.mp all
    rw [List.length_append, FieldText.length_chars, List.map_cons, List.flatMap_cons,
      List.length_append, List.length_cons] at enough
    have ends : EndsNumber
        (',' :: (g.chars ++ ((fs.map FieldText.chars).flatMap (',' :: ·) ++ '\x7d' :: rest))) :=
      endsNumber_cons.mpr (by decide)
    obtain ⟨left, skipped, behind⟩ := first.passed budget ends (by omega)
    rw [skipGap_cons (by decide)] at behind
    rw [List.map_cons, flatMap_comma_append, skipFields_comma blank key skipped behind]
    exact ih blanks keys others (by rw [List.length_append]; omega)

theorem exists_wholePart {whole : List Char} (isWhole : IsWholePart whole) :
    ∃ c cs, whole = c :: cs ∧ c.isDigit = true := by
  cases isWhole with
  | zero => exact ⟨'0', [], rfl, rfl⟩
  | digits first => exact ⟨_, _, rfl, first⟩

theorem skipValue_digit (first : c.isDigit = true) :
    skipValue (budget + 1) (c :: s) = skipNumber (c :: s) := by
  have solid : skipGap (c :: s) = c :: s := skipGap_cons (isGap_of_beginsNumber (.inr first))
  rw [skipValue, solid]
  split
  case h_9 same =>
    obtain ⟨rfl, rfl⟩ := List.cons.inj same
    rw [if_pos first]
  case h_1 same => cases same
  all_goals
    rename_i same
    obtain ⟨rfl, -⟩ := List.cons.inj same
    cases first

theorem IsPassed.of_cons (solid : isGap c = false) (inside : c ≠ ']')
    (skips : ∀ {budget : Nat} {rest : List Char}, cs.length ≤ budget → EndsNumber rest →
      skipValue (budget + 1) (c :: (cs ++ rest)) = .ok rest) : IsPassed (c :: cs) where
  opens := ⟨c, cs, inside, fun _ => skipGap_cons solid⟩
  passed budget rest ends enough := by
    obtain ⟨budget, rfl⟩ := Nat.exists_eq_add_one_of_ne_zero (Nat.ne_zero_of_lt enough)
    exact ⟨rest, skips (Nat.le_of_succ_le_succ enough) ends, rfl⟩

theorem IsPassed.array (all : ∀ item ∈ t :: ts, IsPassed item) :
    IsPassed ('[' :: (commaSeparated (t :: ts) ++ [']'])) := by
  refine .of_cons (by decide) (by decide) fun {budget rest} enough _ => ?_
  have text : commaSeparated (t :: ts) ++ [']'] ++ rest =
      t ++ (ts.flatMap (',' :: ·) ++ ']' :: rest) := by
    simp [commaSeparated]
  rw [List.length_append, commaSeparated, List.length_singleton] at enough
  have skipped : skipItems budget (t ++ (ts.flatMap (',' :: ·) ++ ']' :: rest)) = .ok rest :=
    skipItems_append all enough
  obtain ⟨c, after, inside, opens⟩ := (all t List.mem_cons_self).opens
  rw [← skipItems_skipGap, opens] at skipped
  rw [text, skipValue, skipGap_cons (by decide)]
  simp only [opens]
  split
  · next same => cases same
  · next same => exact absurd (List.cons.inj same).1 inside
  · exact skipped

theorem IsPassed.object (blanks : ∀ g ∈ f :: fs, IsGap g.before ∧ IsGap g.between)
    (keys : ∀ g ∈ f :: fs, IsStringBody g.key) (all : ∀ g ∈ f :: fs, IsPassed g.value) :
    IsPassed ('\x7b' :: (commaSeparated ((f :: fs).map FieldText.chars) ++ ['\x7d'])) := by
  refine .of_cons (by decide) (by decide) fun {budget rest} enough _ => ?_
  have text : commaSeparated ((f :: fs).map FieldText.chars) ++ ['\x7d'] ++ rest =
      f.chars ++ ((fs.map FieldText.chars).flatMap (',' :: ·) ++ '\x7d' :: rest) := by
    simp [commaSeparated]
  rw [List.length_append, List.map_cons, commaSeparated, List.length_singleton] at enough
  have skipped : skipFields budget (f.chars ++
      ((fs.map FieldText.chars).flatMap (',' :: ·) ++ '\x7d' :: rest)) = .ok rest :=
    skipFields_append blanks keys all enough
  rw [← skipFields_skipGap, skipGap_chars (blanks f List.mem_cons_self)] at skipped
  rw [text, skipValue, skipGap_cons (by decide)]
  simp only [skipGap_chars (blanks f List.mem_cons_self)]
  exact skipped

theorem IsPassed.padded {before after : List Char} (blank : IsGap before) (blank' : IsGap after)
    (passed : IsPassed cs) : IsPassed (before ++ (cs ++ after)) where
  opens := by
    obtain ⟨c, behind, inside, opens⟩ := passed.opens
    refine ⟨c, behind ++ after, inside, fun rest => ?_⟩
    rw [List.append_assoc, List.append_assoc, skipGap_append blank, opens, List.append_assoc]
  passed budget rest ends enough := by
    rw [List.length_append, List.length_append] at enough
    obtain ⟨left, skipped, behind⟩ :=
      passed.passed budget (endsNumber_append blank' ends) (by omega)
    refine ⟨left, ?_, behind.trans (skipGap_append blank')⟩
    rw [List.append_assoc, List.append_assoc, ← skipValue_skipGap, skipGap_append blank,
      skipValue_skipGap, skipped]

theorem IsValueText.isPassed (isText : IsValueText cs) : IsPassed cs := by
  induction isText with
  | null | true | false =>
    refine .of_cons (by decide) (by decide) fun _ _ => ?_
    rw [skipValue, skipGap_cons (by decide)]
    rfl
  | @number whole fraction exponent isWhole isFraction isExponent =>
    obtain ⟨c, cs, rfl, digit⟩ := exists_wholePart isWhole
    refine .of_cons (isGap_of_beginsNumber (.inr digit)) ?_ fun {budget rest} _ ends => ?_
    · rintro rfl
      cases digit
    · have skipped := skipNumber_append isWhole isFraction isExponent ends
      rw [skipValue_digit digit, ← skipped]
      simp
  | negative isWhole isFraction isExponent =>
    refine .of_cons (by decide) (by decide) fun {budget rest} _ ends => ?_
    have skipped := skipNumber_append isWhole isFraction isExponent ends
    rw [skipValue, skipGap_cons (by decide), ← skipped]
    simp
  | string isBody =>
    refine .of_cons (by decide) (by decide) fun _ _ => ?_
    rw [skipValue, skipGap_cons (by decide)]
    exact skipString_append isBody
  | emptyArray blank =>
    refine .of_cons (by decide) (by decide) fun {budget rest} _ _ => ?_
    rw [skipValue, skipGap_cons (by decide), List.append_assoc]
    simp only [skipGap_append blank]
    rfl
  | array _ ih => exact .array ih
  | emptyObject blank =>
    refine .of_cons (by decide) (by decide) fun {budget rest} _ _ => ?_
    rw [skipValue, skipGap_cons (by decide), List.append_assoc]
    simp only [skipGap_append blank]
    rfl
  | object blanks keys _ ih => exact .object blanks keys ih
  | padded blank blank' _ ih => exact ih.padded blank blank'

end JobQueue.Json
