import Mathlib.Tactic.SplitIfs
/-!
# Byte order of texts

Texts compare character by character, by code point.  Their UTF-8 bytes can
also be compared one by one, and the two orders agree.  The encoding of a
smaller code point is smaller byte-wise at a byte both encodings have, so
whatever follows the two encodings never matters: comparing the bytes of two
texts is decided at the first character where they differ, as comparing the
characters is.
-/

namespace DenyPolicy

namespace Text

/-- The UTF-8 bytes of a text. -/
def bytes (s : String) : List UInt8 := s.toUTF8.data.toList

theorem bytes_eq (s : String) : bytes s = s.toList.flatMap String.utf8EncodeChar := by
  conv => lhs; rw [← String.ofList_toList (s := s)]
  rw [bytes, String.toUTF8_eq_toByteArray, String.toByteArray_ofList, List.utf8Encode,
    List.toList_data_toByteArray]

theorem toNat_lt_of_char (c : Char) : c.toNat < 0x110000 := by
  have h := c.valid
  simp only [UInt32.isValidChar, Nat.isValidChar] at h
  change c.val.toNat < _
  omega

/-- The encoding of a smaller character is smaller, whatever bytes follow either. -/
theorem utf8EncodeChar_append_lt {a b : Char} (h : a < b) (rest rest' : List UInt8) :
    String.utf8EncodeChar a ++ rest < String.utf8EncodeChar b ++ rest' := by
  have hab : a.toNat < b.toNat := h
  have hb := toNat_lt_of_char b
  simp only [String.utf8EncodeChar, ← Char.toNat.eq_def]
  split_ifs <;>
    simp (disch := omega) only [List.cons_append, List.nil_append, List.cons_lt_cons_iff,
      UInt8.lt_iff_toNat_lt, ← UInt8.toNat_inj, UInt8.toNat_ofNat', Nat.reducePow, Nat.mod_eq_of_lt] <;>
    omega

theorem append_lt_append_left_iff (common rest rest' : List UInt8) :
    common ++ rest < common ++ rest' ↔ rest < rest' := by
  induction common with
  | nil => rfl
  | cons b common ih => simp [ih]

theorem flatMap_utf8EncodeChar_lt_iff :
    ∀ xs ys : List Char, xs.flatMap String.utf8EncodeChar < ys.flatMap String.utf8EncodeChar ↔ xs < ys
  | [], [] => by simp
  | [], y :: ys => by
      obtain ⟨b, bs, hy⟩ := List.exists_cons_of_ne_nil (String.utf8EncodeChar_ne_nil (c := y))
      simp [hy, List.nil_lt_cons]
  | x :: xs, [] => by simp [List.not_lt_nil]
  | x :: xs, y :: ys => by
      rw [List.flatMap_cons, List.flatMap_cons, List.cons_lt_cons_iff]
      rcases Nat.lt_trichotomy x.toNat y.toNat with hlt | heq | hgt
      · exact iff_of_true (utf8EncodeChar_append_lt hlt _ _) (.inl hlt)
      · obtain rfl := Char.toNat_inj.mp heq
        rw [append_lt_append_left_iff, flatMap_utf8EncodeChar_lt_iff xs ys]
        simp
      · have hrev := @utf8EncodeChar_append_lt y x hgt (ys.flatMap String.utf8EncodeChar)
          (xs.flatMap String.utf8EncodeChar)
        refine iff_of_false (List.lt_asymm hrev) ?_
        rintro (h | ⟨rfl, -⟩)
        · exact Char.lt_asymm h hgt
        · exact Char.lt_irrefl x hgt

theorem bytes_lt_iff (s t : String) : bytes s < bytes t ↔ s < t := by
  rw [bytes_eq, bytes_eq, flatMap_utf8EncodeChar_lt_iff]
  rfl

end Text

end DenyPolicy
