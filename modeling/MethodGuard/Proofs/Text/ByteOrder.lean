/-
# The order of strings is the order of their bytes

Strings are compared character by character; readers of a listing compare the bytes of its UTF-8
form.  The two orders are the same: of two characters the greater has the greater encoding, at a
byte that both encodings have (`utf8EncodeChar_lt`), so nothing that follows can change the order.
-/
import MethodGuard.NameSet

namespace MethodGuard

namespace ByteOrder

/-- The bytes of a string's UTF-8 form. -/
def utf8 (s : String) : List UInt8 := s.toByteArray.data.toList

theorem utf8_eq (s : String) : utf8 s = s.toList.flatMap String.utf8EncodeChar := by
  rw [utf8, ← String.utf8Encode_toList, List.utf8Encode]
  simp

theorem ofNat_lt_ofNat {m n : Nat} (hm : m < 256) (hn : n < 256) :
    UInt8.ofNat m < UInt8.ofNat n ↔ m < n := by
  rw [UInt8.lt_iff_toNat_lt, UInt8.toNat_ofNat', UInt8.toNat_ofNat']
  omega

theorem ofNat_eq_ofNat {m n : Nat} (hm : m < 256) (hn : n < 256) :
    UInt8.ofNat m = UInt8.ofNat n ↔ m = n := by
  rw [← UInt8.toNat_inj, UInt8.toNat_ofNat', UInt8.toNat_ofNat']
  omega

/-- Division by 64 twice and three times, as the digits of an encoding need it. -/
theorem div_64_div_64 (n : Nat) : n / 64 / 64 = n / 4096 ∧ n / 4096 / 64 = n / 262144 :=
  ⟨Nat.div_div_eq_div_mul n 64 64, Nat.div_div_eq_div_mul n 4096 64⟩

/-- **Greater characters have greater encodings**, whatever bytes follow. -/
theorem utf8EncodeChar_lt {a b : Char} (h : a < b) (as bs : List UInt8) :
    String.utf8EncodeChar a ++ as < String.utf8EncodeChar b ++ bs := by
  have hlt : a.val.toNat < b.val.toNat := h
  have hb : b.val.toNat < 1114112 := by
    rcases b.valid with hb | hb
    · omega
    · omega
  unfold String.utf8EncodeChar
  generalize a.val.toNat = m at *
  generalize b.val.toNat = n at *
  have hm := div_64_div_64 m
  have hn := div_64_div_64 n
  have hleading (k : Nat) : m / k < n / k ∨ m / k = n / k :=
    Nat.lt_or_eq_of_le (Nat.div_le_div_right (Nat.le_of_lt hlt))
  have h64 := hleading 64
  have h4096 := hleading 4096
  have h262144 := hleading 262144
  have hm8 : m / 262144 % 8 = m / 262144 := Nat.mod_eq_of_lt (by omega)
  have hn8 : n / 262144 % 8 = n / 262144 := Nat.mod_eq_of_lt (by omega)
  dsimp only
  -- one case for each pair of lengths; the first byte that differs decides
  repeat' split
  all_goals simp only [List.cons_append, List.nil_append, List.cons_lt_cons_iff]
  all_goals simp (disch := omega) only [ofNat_lt_ofNat, ofNat_eq_ofNat]
  all_goals omega

/-- The encodings of two lists of characters are in the order of the lists. -/
theorem flatMap_utf8EncodeChar_lt {as bs : List Char} (h : as < bs) :
    as.flatMap String.utf8EncodeChar < bs.flatMap String.utf8EncodeChar := by
  induction as generalizing bs with
  | nil =>
    cases bs with
    | nil => exact absurd h (List.lt_irrefl _)
    | cons b bs =>
      rw [List.flatMap_nil, List.flatMap_cons]
      cases hb : String.utf8EncodeChar b with
      | nil => exact absurd hb String.utf8EncodeChar_ne_nil
      | cons x xs => exact List.nil_lt_cons _ _
  | cons a as ih =>
    cases bs with
    | nil => exact absurd h (List.not_lt_nil _)
    | cons b bs =>
      rw [List.flatMap_cons, List.flatMap_cons]
      rcases List.cons_lt_cons_iff.mp h with hab | ⟨rfl, hrest⟩
      · exact utf8EncodeChar_lt hab _ _
      · exact List.append_left_lt (ih hrest)

/-- **A smaller string has smaller bytes.** -/
theorem utf8_lt {s t : String} (h : s < t) : utf8 s < utf8 t := by
  rw [utf8_eq, utf8_eq]
  exact flatMap_utf8EncodeChar_lt h

end ByteOrder

/-- The names of a set come in strictly ascending byte order. -/
theorem NameSet.names_byteOrder (s : NameSet) :
    s.names.Pairwise fun a b => ByteOrder.utf8 a < ByteOrder.utf8 b :=
  s.ascending.imp ByteOrder.utf8_lt

end MethodGuard
