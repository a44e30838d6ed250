import CycleChart.Proofs.Text.Utf8

namespace CycleChart.Text

/-- The bytes of a text. -/
def bytes (text : String) : List UInt8 := text.toUTF8.data.toList

theorem bytes_eq_flatMap (text : String) : bytes text = text.toList.flatMap String.utf8EncodeChar := by
  rw [bytes, String.toUTF8_eq_toByteArray, ← String.utf8Encode_toList, List.utf8Encode, List.toList_data_toByteArray]

theorem exists_byte (n : Nat) (less : n < 256) : ∃ b : UInt8, UInt8.ofNat n = b ∧ b.toNat = n :=
  ⟨_, rfl, UInt8.toNat_ofNat_of_lt' less⟩

/-- A character has up to four bytes. The first one tells how many, and together they tell its number. -/
theorem encode_cases (c : Char) :
    (∃ a : UInt8, String.utf8EncodeChar c = [a] ∧ a.toNat ≤ 0x7F ∧ c.toNat = a.toNat) ∨
      (∃ a b : UInt8, String.utf8EncodeChar c = [a, b] ∧ (0xC0 ≤ a.toNat ∧ a.toNat ≤ 0xDF) ∧ isTrail b ∧
        0x7F < c.toNat ∧ c.toNat + 0x3080 = a.toNat * 0x40 + b.toNat) ∨
      (∃ a b d : UInt8, String.utf8EncodeChar c = [a, b, d] ∧ (0xE0 ≤ a.toNat ∧ a.toNat ≤ 0xEF) ∧ isTrail b ∧
        isTrail d ∧ 0x7FF < c.toNat ∧ c.toNat + 0xE2080 = a.toNat * 0x1000 + b.toNat * 0x40 + d.toNat) ∨
      (∃ a b d e : UInt8, String.utf8EncodeChar c = [a, b, d, e] ∧ 0xF0 ≤ a.toNat ∧ isTrail b ∧ isTrail d ∧
        isTrail e ∧ 0xFFFF < c.toNat ∧
        c.toNat + 0x3C82080 = a.toNat * 0x40000 + b.toNat * 0x1000 + d.toNat * 0x40 + e.toNat) := by
  have valid : c.toNat.isValidChar := c.valid
  have eq := encode_ofNat valid
  rw [c.ofNat_toNat] at eq
  unfold Nat.isValidChar at valid
  obtain ⟨last, byte, last_eq⟩ := exists_byte (c.toNat % 64 + 128) (by omega)
  rw [eq, byte]
  by_cases one : c.toNat ≤ 0x7F
  · obtain ⟨a, first, a_eq⟩ := exists_byte c.toNat (by omega)
    rw [if_pos one, first]
    exact .inl ⟨a, rfl, by omega, a_eq.symm⟩
  · rw [if_neg one]
    by_cases two : c.toNat ≤ 0x7FF
    · obtain ⟨a, first, a_eq⟩ := exists_byte (c.toNat / 64 % 32 + 192) (by omega)
      rw [if_pos two, first]
      exact .inr (.inl ⟨a, last, rfl, by omega, isTrail_iff.2 (by omega), by omega, by omega⟩)
    · obtain ⟨b, third, b_eq⟩ := exists_byte (c.toNat / 64 % 64 + 128) (by omega)
      rw [if_neg two, third]
      by_cases three : c.toNat ≤ 0xFFFF
      · obtain ⟨a, first, a_eq⟩ := exists_byte (c.toNat / 4096 % 16 + 224) (by omega)
        rw [if_pos three, first]
        exact .inr (.inr (.inl ⟨a, b, last, rfl, by omega, isTrail_iff.2 (by omega), isTrail_iff.2 (by omega),
          by omega, by omega⟩))
      · obtain ⟨d, second, d_eq⟩ := exists_byte (c.toNat / 4096 % 64 + 128) (by omega)
        obtain ⟨a, first, a_eq⟩ := exists_byte (c.toNat / 262144 % 8 + 240) (by omega)
        rw [if_neg three, first, second]
        exact .inr (.inr (.inr ⟨a, d, b, last, rfl, by omega, isTrail_iff.2 (by omega), isTrail_iff.2 (by omega),
          isTrail_iff.2 (by omega), by omega, by omega⟩))

/-- A character with a lesser number has lesser bytes, whatever follows them. -/
theorem encode_append_lt {c d : Char} (less : c < d) (s t : List UInt8) :
    String.utf8EncodeChar c ++ s < String.utf8EncodeChar d ++ t := by
  have below : c.toNat < d.toNat := less
  -- of two lengths, the greater one has the greater first byte; at one length the numbers decide
  rcases encode_cases c with ⟨_, eq, h⟩ | ⟨_, _, eq, h⟩ | ⟨_, _, _, eq, h⟩ | ⟨_, _, _, _, eq, h⟩ <;>
    rcases encode_cases d with ⟨_, eq', h'⟩ | ⟨_, _, eq', h'⟩ | ⟨_, _, _, eq', h'⟩ | ⟨_, _, _, _, eq', h'⟩ <;>
    rw [eq, eq'] <;>
    simp only [List.cons_append, List.cons_lt_cons_iff, UInt8.lt_iff_toNat_lt, ← UInt8.toNat_inj, isTrail_iff]
      at h h' ⊢ <;>
    omega

/-- Texts with lesser characters have lesser bytes. -/
theorem flatMap_encode_lt {s t : List Char} (less : s < t) :
    s.flatMap String.utf8EncodeChar < t.flatMap String.utf8EncodeChar := by
  induction less with
  | @nil c t =>
    rw [List.flatMap_nil, List.flatMap_cons]
    cases bytes : String.utf8EncodeChar c with
    | nil => exact absurd bytes String.utf8EncodeChar_ne_nil
    | cons b s => exact .nil
  | cons _ ih =>
    rw [List.flatMap_cons, List.flatMap_cons]
    exact List.append_left_lt ih
  | rel first =>
    rw [List.flatMap_cons, List.flatMap_cons]
    exact encode_append_lt first _ _

/-- Texts come in the order of their bytes. -/
theorem bytes_lt_iff {s t : String} : bytes s < bytes t ↔ s < t := by
  rw [bytes_eq_flatMap, bytes_eq_flatMap]
  constructor
  · intro less
    apply Std.not_le.1
    intro le
    rcases Std.le_iff_lt_or_eq.1 le with more | rfl
    · exact Std.lt_irrefl (Std.lt_trans less (flatMap_encode_lt more))
    · exact Std.lt_irrefl less
  · exact flatMap_encode_lt

end CycleChart.Text
