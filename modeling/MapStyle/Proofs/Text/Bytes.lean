import Mathlib.Data.String.Basic

/-!
# Texts in byte order

The order of texts is that of their code points. UTF-8 writes the lesser of two code points as
bytes that come first, even where it needs fewer of them, so the order of the bytes is the same.
-/

namespace MapStyle.Text

/-- The bytes of a text in UTF-8. -/
def bytes (text : String) : List UInt8 := text.toUTF8.data.toList

theorem bytes_eq (text : String) : bytes text = text.toList.flatMap String.utf8EncodeChar := by
  rw [bytes, String.toUTF8, ← String.utf8Encode_toList]
  simp [List.utf8Encode]

/-- What follows the bytes of two characters does not change which ones come first. -/
theorem encoded_lt {c d : Char} (before : c < d) (rest other : List UInt8) :
    String.utf8EncodeChar c ++ rest < String.utf8EncodeChar d ++ other := by
  have codes : c.val.toNat < d.val.toNat := UInt32.lt_iff_toNat_lt.1 before
  have most : d.val.toNat < 0x110000 := by
    rcases d.valid with low | ⟨-, high⟩
    · exact lt_trans low (by decide)
    · exact high
  simp only [String.utf8EncodeChar]
  generalize c.val.toNat = m at codes
  generalize d.val.toNat = n at codes most
  -- The lengths of both encodings, and then the first byte in which they differ.
  repeat' split
  all_goals
    simp only [List.cons_append, List.nil_append, List.cons_lt_cons_iff, UInt8.lt_iff_toNat_lt,
      ← UInt8.toNat_inj, UInt8.toNat_ofNat']
    simp (disch := omega) only [Nat.mod_eq_of_lt]
    omega

theorem bytes_lt {a b : String} (before : a < b) : bytes a < bytes b := by
  rw [String.lt_iff] at before
  rw [bytes_eq, bytes_eq]
  generalize a.toList = chars at before
  generalize b.toList = others at before
  induction chars generalizing others with
  | nil =>
    cases others with
    | nil => exact absurd before (List.not_lt_nil _)
    | cons d others =>
      obtain ⟨byte, rest, encoded⟩ :=
        List.exists_cons_of_ne_nil (String.utf8EncodeChar_ne_nil (c := d))
      rw [List.flatMap_cons, encoded]
      exact List.nil_lt_cons _ _
  | cons c chars ih =>
    cases others with
    | nil => exact absurd before (List.not_lt_nil _)
    | cons d others =>
      rw [List.flatMap_cons, List.flatMap_cons]
      rcases List.cons_lt_cons_iff.1 before with first | ⟨rfl, later⟩
      · exact encoded_lt first _ _
      · exact List.append_left_lt (ih _ later)

/-- The byte order of texts is their order. -/
theorem bytes_lt_iff {a b : String} : bytes a < bytes b ↔ a < b := by
  refine ⟨fun before => ?_, bytes_lt⟩
  rcases lt_trichotomy a b with first | rfl | second
  · exact first
  · exact absurd before (List.lt_irrefl _)
  · exact absurd (bytes_lt second) (List.lt_asymm before)

end MapStyle.Text
