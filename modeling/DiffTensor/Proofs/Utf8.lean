import Mathlib.Tactic.IntervalCases
import DiffTensor.Text.Utf8

/-!
# Text comes back whole

The bytes of a text are read as that text (`decode_encode`), whatever it says: the four forms that a
character may take are told apart by their first byte, and the ranges that the second byte has to
lie in leave out no form that is written.
-/

namespace DiffTensor.Text.Utf8

theorem toNat_ofNat {n : Nat} (h : n < 256) : (UInt8.ofNat n).toNat = n :=
  UInt8.toNat_ofNat_of_lt' h

/-- A byte that starts a longer sequence. -/
theorem decodeFrom_lead {n : Nat} {lead : Lead} (h : Lead.ofByte? n = some lead) (hl : 0x80 ≤ n)
    (hh : n < 256) (bytes : List UInt8) : decodeFrom none (UInt8.ofNat n :: bytes) =
      decodeFrom (some ⟨lead.bits, lead.following, lead.low, lead.high⟩) bytes := by
  simp only [decodeFrom, toNat_ofNat hh, take, start, if_neg (Nat.not_lt.2 hl), h, List.nil_append]

/-- A byte that goes on with a sequence. -/
theorem decodeFrom_next {p : Pending} {x : Nat} (hl : p.low ≤ x + 0x80) (hh : x + 0x80 ≤ p.high)
    (hx : x < 64) (hm : 1 < p.missing) (bytes : List UInt8) :
    decodeFrom (some p) (UInt8.ofNat (x + 0x80) :: bytes) =
      decodeFrom (some ⟨p.point * 64 + x, p.missing - 1, 0x80, 0xBF⟩) bytes := by
  simp only [decodeFrom, toNat_ofNat (by omega : x + 0x80 < 256), take, if_pos (And.intro hl hh),
    if_neg (Nat.not_le.2 hm), List.nil_append, Nat.add_sub_cancel]

/-- The byte that ends a sequence. -/
theorem decodeFrom_last {p : Pending} {x : Nat} (hl : p.low ≤ x + 0x80) (hh : x + 0x80 ≤ p.high)
    (hx : x < 64) (hm : p.missing ≤ 1) (bytes : List UInt8) :
    decodeFrom (some p) (UInt8.ofNat (x + 0x80) :: bytes) =
      Char.ofNat (p.point * 64 + x) :: decodeFrom none bytes := by
  simp only [decodeFrom, toNat_ofNat (by omega : x + 0x80 < 256), take, if_pos (And.intro hl hh),
    if_pos hm, List.singleton_append, Nat.add_sub_cancel]

theorem ofByte?_two {x : Nat} (hl : 2 ≤ x) (hh : x < 32) :
    Lead.ofByte? (x + 0xC0) = some ⟨x, 1, 0x80, 0xBF⟩ := by
  rw [Lead.ofByte?, if_pos ⟨by omega, by omega⟩, Nat.add_sub_cancel]

/-- Overlong forms and surrogates are kept out by the range of the second byte. -/
theorem ofByte?_three {x : Nat} (hh : x < 16) :
    Lead.ofByte? (x + 0xE0) =
      some ⟨x, 2, if x = 0 then 0xA0 else 0x80, if x = 0xD then 0x9F else 0xBF⟩ := by
  interval_cases x <;> rfl

theorem ofByte?_four {x : Nat} (hh : x < 5) :
    Lead.ofByte? (x + 0xF0) =
      some ⟨x, 3, if x = 0 then 0x90 else 0x80, if x = 4 then 0x8F else 0xBF⟩ := by
  interval_cases x <;> rfl

/-- The bytes of a character are read as that character. -/
theorem decodeFrom_encodeChar (c : Char) (bytes : List UInt8) :
    decodeFrom none (String.utf8EncodeChar c ++ bytes) = c :: decodeFrom none bytes := by
  have hc : Char.ofNat c.val.toNat = c := Char.ofNat_toNat c
  have hv : c.val.toNat < 0xD800 ∨ 0xDFFF < c.val.toNat ∧ c.val.toNat < 0x110000 := c.valid
  unfold String.utf8EncodeChar
  generalize c.val.toNat = v at hc hv
  subst hc
  dsimp only
  split_ifs with h1 h2 h3 <;> simp only [List.cons_append, List.nil_append]
  · simp only [List.singleton_append, decodeFrom, toNat_ofNat (by omega : v < 256), take, start,
      if_pos (by omega : v < 0x80)]
  · have hv : v / 64 % 32 * 64 + v % 64 = v := by omega
    rw [decodeFrom_lead (ofByte?_two (by omega) (by omega)) (by omega) (by omega),
      decodeFrom_last (Nat.le_add_left ..) (by simp only; omega) (by omega) (Nat.le_refl 1)]
    simp only [hv]
  · have hv' : (v / 4096 % 16 * 64 + v / 64 % 64) * 64 + v % 64 = v := by omega
    rw [decodeFrom_lead (ofByte?_three (by omega)) (by omega) (by omega),
      decodeFrom_next (by simp only; split_ifs <;> omega) (by simp only; split_ifs <;> omega)
        (by omega) (Nat.lt_succ_self 1),
      decodeFrom_last (Nat.le_add_left ..) (by simp only; omega) (by omega) (Nat.le_refl 1)]
    simp only [hv']
  · have hv' : ((v / 262144 % 8 * 64 + v / 4096 % 64) * 64 + v / 64 % 64) * 64 + v % 64 = v := by
      omega
    rw [decodeFrom_lead (ofByte?_four (by omega)) (by omega) (by omega),
      decodeFrom_next (by simp only; split_ifs <;> omega) (by simp only; split_ifs <;> omega)
        (by omega) (by simp),
      decodeFrom_next (Nat.le_add_left ..) (by simp only; omega) (by omega) (by simp),
      decodeFrom_last (Nat.le_add_left ..) (by simp only; omega) (by omega) (Nat.le_refl 1)]
    simp only [hv']


theorem decodeFrom_flatMap : ∀ chars : List Char,
    decodeFrom none (chars.flatMap String.utf8EncodeChar) = chars
  | [] => rfl
  | c :: chars => by rw [List.flatMap_cons, decodeFrom_encodeChar, decodeFrom_flatMap chars]

theorem toList_loop (bytes : ByteArray) (i : Nat) (read : List UInt8) :
    ByteArray.toList.loop bytes i read = read.reverse ++ bytes.data.toList.drop i := by
  fun_induction ByteArray.toList.loop bytes i read with
  | case1 i read h ih =>
    have hi : i < bytes.data.toList.length := h
    have hget : bytes.get! i = bytes.data.toList[i] := by
      rw [ByteArray.get!, Array.getElem!_eq_getD, Array.getElem_toList]
      exact (Array.getElem_eq_getD _).symm
    rw [ih, List.reverse_cons, List.append_assoc, hget, List.singleton_append,
      List.getElem_cons_drop]
  | case2 i read h =>
    have hi : bytes.data.toList.length ≤ i := Nat.not_lt.1 h
    rw [List.drop_eq_nil_of_le hi, List.append_nil]

/-- The bytes of a text are those of its characters. -/
theorem encode_eq (s : String) : encode s = s.toList.flatMap String.utf8EncodeChar := by
  have hs : s.toByteArray = s.toList.utf8Encode := by
    rw [← String.toByteArray_ofList, String.ofList_toList]
  rw [encode, ByteArray.toList, toList_loop]
  show s.toByteArray.data.toList.drop 0 = _
  rw [hs, List.utf8Encode, List.data_toByteArray, List.drop_zero]

theorem decode_encode (s : String) : decode (encode s) = s := by
  rw [decode, encode_eq, decodeFrom_flatMap, String.ofList_toList]

end DiffTensor.Text.Utf8
