import Mathlib.Data.String.Basic
import Mathlib.Tactic.SplitIfs

/-!
# Texts as bytes

Texts compare by their characters. Their UTF-8 bytes compare the same way (`bytes_lt_iff`), since
the bytes of a greater character are greater, whatever follows them.
-/

namespace JobQueue.Text

variable {c d : Char} {xs ys : List UInt8} {s t : String}

def bytes (s : String) : List UInt8 := s.toByteArray.data.toList

theorem bytes_eq : bytes s = s.toList.flatMap String.utf8EncodeChar := by
  rw [bytes, ← String.utf8Encode_toList, List.utf8Encode, List.data_toByteArray]

theorem bytes_inj : bytes s = bytes t ↔ s = t := by
  rw [bytes, bytes, Array.toList_inj, ← String.toByteArray_inj, ByteArray.ext_iff]

theorem length_bytes (narrow : ∀ c ∈ s.toList, c.utf8Size = 1) :
    (bytes s).length = s.toList.length := by
  have one : s.toList.map (fun c => (String.utf8EncodeChar c).length) = s.toList.map fun _ => 1 :=
    List.map_congr_left fun c member => by rw [String.length_utf8EncodeChar, narrow c member]
  rw [bytes_eq, List.length_flatMap, one]
  simp

-- ---------------------------------------------------------------------------
-- The order of bytes
-- ---------------------------------------------------------------------------

theorem utf8EncodeChar_append_lt (h : c < d) :
    String.utf8EncodeChar c ++ xs < String.utf8EncodeChar d ++ ys := by
  have bound : d.val.toNat < 0x110000 := by
    rcases d.valid with low | high
    · exact Nat.lt_trans low (by decide)
    · exact high.2
  have less : c.val.toNat < d.val.toNat := h
  have parts (n : Nat) : n / 4096 = n / 64 / 64 ∧ n / 262144 = n / 64 / 64 / 64 := by omega
  unfold String.utf8EncodeChar
  generalize c.val.toNat = m at *
  generalize d.val.toNat = n at *
  simp only [parts]
  -- a longer code has a greater first byte; codes of one length are numbers in base 64
  split_ifs <;>
    simp only [List.cons_append, List.nil_append, List.cons_lt_cons_iff, UInt8.lt_iff_toNat_lt,
      ← UInt8.toNat_inj, UInt8.toNat_ofNat'] <;>
    omega

theorem flatMap_utf8EncodeChar_lt {cs ds : List Char} (h : cs < ds) :
    cs.flatMap String.utf8EncodeChar < ds.flatMap String.utf8EncodeChar := by
  induction cs generalizing ds with
  | nil =>
    cases ds with
    | nil => exact absurd h (List.lt_irrefl _)
    | cons d ds =>
      obtain ⟨b, bs, first⟩ := List.exists_cons_of_ne_nil (String.utf8EncodeChar_ne_nil (c := d))
      rw [List.flatMap_nil, List.flatMap_cons, first]
      exact List.nil_lt_cons _ _
  | cons c cs ih =>
    cases ds with
    | nil => cases h
    | cons d ds =>
      rw [List.flatMap_cons, List.flatMap_cons]
      rcases List.cons_lt_cons_iff.mp h with before | ⟨rfl, rest⟩
      · exact utf8EncodeChar_append_lt before
      · exact List.append_left_lt (ih rest)

/-- Texts compare as their bytes do. -/
theorem bytes_lt_iff : bytes s < bytes t ↔ s < t := by
  have before {s t : String} (h : s < t) : bytes s < bytes t := by
    rw [bytes_eq, bytes_eq]
    exact flatMap_utf8EncodeChar_lt (String.lt_iff_toList_lt.mp h)
  refine ⟨fun less => ?_, before⟩
  by_contra later
  rcases lt_or_eq_of_le (not_lt.mp later) with after | rfl
  · exact List.lt_asymm less (before after)
  · exact List.lt_irrefl _ less

end JobQueue.Text
