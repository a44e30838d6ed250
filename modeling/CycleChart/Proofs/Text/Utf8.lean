import CycleChart.Path.Basic
import CycleChart.Text.Utf8

namespace CycleChart.Text

theorem widthOf_cases (a : UInt8) :
    widthOf a = 0 ∨ widthOf a = 1 ∧ a.toNat < 0x80 ∨ widthOf a = 2 ∧ 0xC2 ≤ a.toNat ∧ a.toNat ≤ 0xDF ∨
      widthOf a = 3 ∧ 0xE0 ≤ a.toNat ∧ a.toNat ≤ 0xEF ∨ widthOf a = 4 ∧ 0xF0 ≤ a.toNat ∧ a.toNat ≤ 0xF4 := by
  simp only [widthOf, UInt8.lt_iff_toNat_lt, UInt8.le_iff_toNat_le]
  split
  · simp_all
  · split
    · simp_all
    · split
      · simp_all
      · split <;> simp_all

theorem isTrail_iff {b : UInt8} : isTrail b ↔ 0x80 ≤ b.toNat ∧ b.toNat ≤ 0xBF := by
  simp [isTrail, UInt8.le_iff_toNat_le]

theorem isSecond_bounds {a b : UInt8} (h : isSecond a b) :
    (0x80 ≤ b.toNat ∧ b.toNat ≤ 0xBF) ∧ (a.toNat = 0xE0 → 0xA0 ≤ b.toNat) ∧ (a.toNat = 0xED → b.toNat ≤ 0x9F) ∧
      (a.toNat = 0xF0 → 0x90 ≤ b.toNat) ∧ (a.toNat = 0xF4 → b.toNat ≤ 0x8F) := by
  rw [isSecond, Bool.and_eq_true, isTrail_iff] at h
  refine ⟨h.1, fun first => ?_, fun first => ?_, fun first => ?_, fun first => ?_⟩
  · obtain rfl : a = 0xE0 := UInt8.toNat_inj.1 first
    simpa [UInt8.le_iff_toNat_le] using h.2
  · obtain rfl : a = 0xED := UInt8.toNat_inj.1 first
    simpa [UInt8.le_iff_toNat_le] using h.2
  · obtain rfl : a = 0xF0 := UInt8.toNat_inj.1 first
    simpa [UInt8.le_iff_toNat_le] using h.2
  · obtain rfl : a = 0xF4 := UInt8.toNat_inj.1 first
    simpa [UInt8.le_iff_toNat_le] using h.2

/-- A character is encoded by its number alone. -/
theorem encode_ofNat {n : Nat} (valid : n.isValidChar) :
    String.utf8EncodeChar (Char.ofNat n) =
      if n ≤ 0x7F then [.ofNat n]
      else if n ≤ 0x7FF then [.ofNat (n / 64 % 32 + 192), .ofNat (n % 64 + 128)]
      else if n ≤ 0xFFFF then [.ofNat (n / 4096 % 16 + 224), .ofNat (n / 64 % 64 + 128), .ofNat (n % 64 + 128)]
      else [.ofNat (n / 262144 % 8 + 240), .ofNat (n / 4096 % 64 + 128), .ofNat (n / 64 % 64 + 128),
        .ofNat (n % 64 + 128)] := by
  have same : (Char.ofNat n).val.toNat = n := by
    rw [Char.ofNat, dif_pos valid]
    rfl
  rw [String.utf8EncodeChar, same]

theorem ofNat_eq_of_toNat {n : Nat} {b : UInt8} (h : n = b.toNat) : UInt8.ofNat n = b := by
  rw [h, UInt8.ofNat_toNat]

theorem encode_one {a : UInt8} (h : a.toNat < 0x80) : String.utf8EncodeChar (Char.ofNat a.toNat) = [a] := by
  have valid : a.toNat.isValidChar := .inl (by omega)
  rw [encode_ofNat valid, if_pos (Nat.le_of_lt_succ h), UInt8.ofNat_toNat]

theorem encode_two {a b : UInt8} (lead : 0xC2 ≤ a.toNat ∧ a.toNat ≤ 0xDF) (second : 0x80 ≤ b.toNat ∧ b.toNat ≤ 0xBF) :
    String.utf8EncodeChar (Char.ofNat (a.toNat % 32 * 64 + six b)) = [a, b] := by
  rw [six]
  generalize eq : a.toNat % 32 * 64 + b.toNat % 64 = n
  have valid : n.isValidChar := .inl (by omega)
  have first : n / 64 % 32 + 192 = a.toNat := by omega
  have next : n % 64 + 128 = b.toNat := by omega
  rw [encode_ofNat valid, if_neg (by omega), if_pos (by omega), ofNat_eq_of_toNat first, ofNat_eq_of_toNat next]

theorem encode_three {a b c : UInt8} (lead : 0xE0 ≤ a.toNat ∧ a.toNat ≤ 0xEF) (second : isSecond a b)
    (third : 0x80 ≤ c.toNat ∧ c.toNat ≤ 0xBF) :
    String.utf8EncodeChar (Char.ofNat ((a.toNat % 16 * 64 + six b) * 64 + six c)) = [a, b, c] := by
  obtain ⟨trail, overlong, surrogate, -⟩ := isSecond_bounds second
  rw [six, six]
  generalize eq : (a.toNat % 16 * 64 + b.toNat % 64) * 64 + c.toNat % 64 = n
  have valid : n.isValidChar := by
    unfold Nat.isValidChar
    omega
  have first : n / 4096 % 16 + 224 = a.toNat := by omega
  have next : n / 64 % 64 + 128 = b.toNat := by omega
  have last : n % 64 + 128 = c.toNat := by omega
  rw [encode_ofNat valid, if_neg (by omega), if_neg (by omega), if_pos (by omega), ofNat_eq_of_toNat first,
    ofNat_eq_of_toNat next, ofNat_eq_of_toNat last]

theorem encode_four {a b c d : UInt8} (lead : 0xF0 ≤ a.toNat ∧ a.toNat ≤ 0xF4) (second : isSecond a b)
    (third : 0x80 ≤ c.toNat ∧ c.toNat ≤ 0xBF) (fourth : 0x80 ≤ d.toNat ∧ d.toNat ≤ 0xBF) :
    String.utf8EncodeChar (Char.ofNat (((a.toNat % 8 * 64 + six b) * 64 + six c) * 64 + six d)) = [a, b, c, d] := by
  obtain ⟨trail, -, -, overlong, large⟩ := isSecond_bounds second
  rw [six, six, six]
  generalize eq : ((a.toNat % 8 * 64 + b.toNat % 64) * 64 + c.toNat % 64) * 64 + d.toNat % 64 = n
  have valid : n.isValidChar := by
    unfold Nat.isValidChar
    omega
  have first : n / 262144 % 8 + 240 = a.toNat := by omega
  have next : n / 4096 % 64 + 128 = b.toNat := by omega
  have later : n / 64 % 64 + 128 = c.toNat := by omega
  have last : n % 64 + 128 = d.toNat := by omega
  rw [encode_ofNat valid, if_neg (by omega), if_neg (by omega), if_neg (by omega), ofNat_eq_of_toNat first,
    ofNat_eq_of_toNat next, ofNat_eq_of_toNat later, ofNat_eq_of_toNat last]

/-- What a piece was read from. -/
def Piece.bytes : Piece → List UInt8
  | .char c => String.utf8EncodeChar c
  | .broken bytes => bytes

/-- Reading bytes loses nothing. -/
theorem flatMap_pieces (s : List UInt8) : (pieces s).flatMap Piece.bytes = s := by
  have width (a : UInt8) := widthOf_cases a
  fun_induction pieces s with
  | case1 => rfl
  | case2 a s one ih =>
    have lead : a.toNat < 0x80 := by simpa [one] using width a
    rw [List.flatMap_cons, ih, Piece.bytes, encode_one lead]
    rfl
  | case3 a b s two second ih =>
    have lead : 0xC2 ≤ a.toNat ∧ a.toNat ≤ 0xDF := by simpa [two] using width a
    rw [List.flatMap_cons, ih, Piece.bytes, encode_two lead (isSecond_bounds second).1]
    rfl
  | case5 a b three second c s trail ih =>
    have lead : 0xE0 ≤ a.toNat ∧ a.toNat ≤ 0xEF := by simpa [three] using width a
    rw [List.flatMap_cons, ih, Piece.bytes, encode_three lead second (isTrail_iff.1 trail)]
    rfl
  | case9 a b four second c third d s fourth ih =>
    have lead : 0xF0 ≤ a.toNat ∧ a.toNat ≤ 0xF4 := by simpa [four] using width a
    rw [List.flatMap_cons, ih, Piece.bytes, encode_four lead second (isTrail_iff.1 third) (isTrail_iff.1 fourth)]
    rfl
  | _ => simp_all [Piece.bytes]

theorem eq_map_of_mapM {parts : List Piece} {cs : List Char} (h : parts.mapM Piece.char? = some cs) :
    parts = cs.map .char := by
  induction parts generalizing cs with
  | nil =>
    cases h
    rfl
  | cons p parts ih =>
    cases p with
    | broken bytes => cases h
    | char c =>
      rw [List.mapM_cons] at h
      cases rest : parts.mapM Piece.char? with
      | none =>
        rw [rest] at h
        cases h
      | some cs =>
        rw [rest] at h
        cases h
        rw [ih rest, List.map_cons]

/-- Bytes that are text are those of the text they read as. -/
theorem ofString_readable {s : List UInt8} (whole : (decode? s).isSome) : Path.ofString (readable s) = ⟨s⟩ := by
  obtain ⟨text, read⟩ := Option.isSome_iff_exists.1 whole
  obtain ⟨cs, known, -⟩ := Option.map_eq_some_iff.1 read
  have parts := eq_map_of_mapM known
  have bytes := flatMap_pieces s
  rw [parts, List.flatMap_map] at bytes
  have shown : (pieces s).map Piece.shown = cs := by
    rw [parts, List.map_map]
    exact List.map_id cs
  rw [Path.ofString, readable, shown, String.toUTF8_eq_toByteArray, String.toByteArray_ofList, List.utf8Encode,
    List.toList_data_toByteArray]
  exact congrArg Path.mk bytes

end CycleChart.Text
