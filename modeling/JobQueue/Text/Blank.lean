/-!
Blank text: the characters of the `White_Space` property, and trimming by them. A text is
blank when trimming leaves nothing, which is the same as having no other character.
-/

namespace JobQueue.Text

/-- The code points of the `White_Space` property, as ranges. -/
def blankRanges : List (Nat × Nat) :=
  [(0x9, 0xD), (0x20, 0x20), (0x85, 0x85), (0xA0, 0xA0), (0x1680, 0x1680), (0x2000, 0x200A),
   (0x2028, 0x2029), (0x202F, 0x202F), (0x205F, 0x205F), (0x3000, 0x3000)]

def isBlank (c : Char) : Bool :=
  blankRanges.any fun r => r.1 ≤ c.toNat && c.toNat ≤ r.2

def trimFront (cs : List Char) : List Char :=
  cs.dropWhile isBlank

def trimEnds (cs : List Char) : List Char :=
  (trimFront (trimFront cs).reverse).reverse

def trim (s : String) : String :=
  String.ofList (trimEnds s.toList)

def blank (s : String) : Bool :=
  s.toList.all isBlank

/-- Blank characters include every space that core knows. -/
theorem isBlank_of_isWhitespace {c : Char} (h : c.isWhitespace = true) : isBlank c = true := by
  simp only [Char.isWhitespace, Bool.or_eq_true, decide_eq_true_eq] at h
  rcases h with ((rfl | rfl) | rfl) | rfl <;> decide

theorem trimFront_eq_nil_iff {cs : List Char} :
    trimFront cs = [] ↔ cs.all isBlank = true := by
  induction cs with
  | nil => simp [trimFront]
  | cons c rest ih =>
    cases h : isBlank c
    · simp [trimFront, h]
    · have trimmed : trimFront (c :: rest) = trimFront rest := List.dropWhile_cons_of_pos h
      simp [trimmed, h, ih]

theorem trimFront_suffix (cs : List Char) : trimFront cs <:+ cs :=
  List.dropWhile_suffix isBlank

theorem isBlank_head_trimFront {c : Char} {cs rest : List Char} (h : trimFront cs = c :: rest) :
    isBlank c = false := by
  induction cs with
  | nil => simp [trimFront] at h
  | cons d ds ih =>
    cases hd : isBlank d
    · simp only [trimFront, List.dropWhile_cons, hd] at h
      have : d = c := by simpa using (List.cons.inj h).1
      exact this ▸ hd
    · exact ih (by simpa [trimFront, List.dropWhile_cons, hd] using h)

theorem trimEnds_eq_nil_iff {cs : List Char} :
    trimEnds cs = [] ↔ cs.all isBlank = true := by
  rw [trimEnds, List.reverse_eq_nil_iff, trimFront_eq_nil_iff, List.all_reverse]
  cases h : trimFront cs with
  | nil => simp [trimFront_eq_nil_iff.1 h]
  | cons c rest =>
    have head := isBlank_head_trimFront h
    have mem : c ∈ cs := (trimFront_suffix cs).subset (by simp [h])
    constructor
    · intro all
      simp [head] at all
    · intro all
      exact absurd (List.all_eq_true.1 all c mem) (by simp [head])

/-- Trimming leaves nothing exactly of a blank text. -/
theorem trim_eq_empty_iff {s : String} : trim s = "" ↔ blank s = true := by
  rw [trim, blank, ← trimEnds_eq_nil_iff, ← String.toList_inj, String.toList_ofList]
  rfl

end JobQueue.Text
