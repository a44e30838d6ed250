import CycleChart.Proofs.Text.Thousandths

namespace CycleChart.Text

open Binary (Double Exact Format binary64)

/-! What a label reads as. -/

/-- The whole part of a magnitude, and the nearest thousandths of the rest. -/
def toThousandths (w : Rat) : Rat := ⌊w⌋₊ + Binary.nearestEven (Int.fract w * 1000) / 1000

theorem floor_add_fract {w : Rat} (nonneg : 0 ≤ w) : (⌊w⌋₊ : Rat) + Int.fract w = w := by
  rw [natCast_floor_eq_intCast_floor nonneg]
  exact Int.floor_add_fract w

theorem toThousandths_of_whole {w : Rat} (none : Int.fract w = 0) : toThousandths w = ⌊w⌋₊ := by
  rw [toThousandths, none]
  simp [Binary.nearestEven]

theorem toThousandths_error {w : Rat} (nonneg : 0 ≤ w) : |toThousandths w - w| ≤ 1 / 2000 := by
  have error := Binary.nearestEven_error (mul_nonneg (Int.fract_nonneg w) (by norm_num : (0 : Rat) ≤ 1000))
  have cut := floor_add_fract nonneg
  rw [abs_le] at error ⊢
  rw [toThousandths]
  constructor <;> linarith

/-- What reads as a whole number is one. -/
theorem eq_of_toThousandths {k n : Nat} (h : toThousandths (nearThousandths k) = n) : nearThousandths k = n := by
  have nonneg : 0 ≤ nearThousandths k := Format.near_nonneg (by positivity)
  rcases fract_nearThousandths k with none | ⟨low, high⟩
  · rw [toThousandths_of_whole none] at h
    rw [← floor_add_fract nonneg, none, h, add_zero]
  · obtain ⟨some, few, -⟩ := dropZeroPoint_threePlaces low high
    rw [toThousandths] at h
    generalize Binary.nearestEven (Int.fract (nearThousandths k) * 1000) = part at *
    -- a part of a thousand would be whole
    have whole : ⌊nearThousandths k⌋₊ * 1000 + part = n * 1000 := by
      rw [← eq_sub_iff_add_eq', div_eq_iff (by norm_num)] at h
      rw [← @Nat.cast_inj Rat]
      push_cast
      linarith
    omega

/-- As long as doubles tell thousandths apart, the double nearest to some thousandths is written as these. -/
theorem toThousandths_few {k : Nat} (few : k ≤ 1000 * 2 ^ 42) : toThousandths (nearThousandths k) = k / 1000 := by
  obtain ⟨floor, near, -⟩ := nearThousandths_few few
  have whole : ⌊nearThousandths k⌋₊ = k / 1000 := by
    rw [← Int.floor_toNat, floor, Int.toNat_natCast]
  rw [abs_lt] at near
  obtain ⟨low, high⟩ := Binary.nearestEven_mem (Int.fract (nearThousandths k) * 1000) (k % 1000) (k % 1000)
    (by linarith) (by linarith) (mul_nonneg (Int.fract_nonneg _) (by norm_num))
  rw [toThousandths, whole, le_antisymm high low, ← thousandths_eq k]

theorem decimal_written {k : Nat} (small : nearThousandths k < 2 ^ 64) :
    decimal (written (nearThousandths k)) = toThousandths (nearThousandths k) := by
  have floor : ⌊nearThousandths k⌋₊ < 2 ^ 64 := (Nat.floor_lt' (by norm_num)).2 (by exact_mod_cast small)
  rw [written, min_eq_left (Nat.le_of_lt_succ floor)]
  split
  · rename_i none
    rw [decimal_grouped, toThousandths_of_whole none]
  · rename_i some
    obtain ⟨low, high⟩ := (fract_nearThousandths k).resolve_left some
    obtain ⟨positive, few, -⟩ := dropZeroPoint_threePlaces low high
    rw [decimal_places, (places_thousandths positive few).2, toThousandths]

/-- From the least number on that has more than 64 bits, all doubles are written the same. -/
theorem written_of_le {w : Rat} (held : binary64.Holds w) (large : 2 ^ 64 ≤ w) :
    written w = grouped 0xFFFFFFFFFFFFFFFF := by
  have floor : 2 ^ 64 ≤ ⌊w⌋₊ := Nat.le_floor (by exact_mod_cast large)
  obtain ⟨n, whole⟩ : ∃ n : Nat, w = n := by
    refine held.whole_or_lt.resolve_right (not_lt.2 ?_)
    norm_num [binary64] at large ⊢
    linarith
  have none : Int.fract w = 0 := by rw [whole, Int.fract_natCast]
  rw [written, if_pos none, min_eq_right ((by decide : 0xFFFFFFFFFFFFFFFF ≤ 2 ^ 64).trans floor)]

/-! How far a label is off. -/

section

variable {q : Rat}

theorem thousandths_error (nonneg : 0 ≤ q) :
    |(thousandths q : Rat) / 1000 - q| ≤ 1 / 2000 + (1 / 1000 + q) / 2 ^ 52 := by
  have scaled : 0 ≤ q * 1000 := by positivity
  have error := Double.near_error_le scaled
  have positive : 0 ≤ binary64.near (q * 1000) + 1 / 2 := by linarith [Format.near_nonneg (f := binary64) scaled]
  have low : (thousandths q : Rat) ≤ binary64.near (q * 1000) + 1 / 2 := Nat.floor_le positive
  have high : binary64.near (q * 1000) + 1 / 2 < thousandths q + 1 := Nat.lt_floor_add_one _
  rw [abs_le] at error ⊢
  constructor <;> linarith

theorem nearThousandths_error (k : Nat) : |nearThousandths k - k / 1000| ≤ (1 + k / 1000) / 2 ^ 52 :=
  Double.near_error_le (by positivity)

theorem nearThousandths_mono {q r : Rat} (le : q ≤ r) :
    nearThousandths (thousandths q) ≤ nearThousandths (thousandths r) := by
  have scaled := Double.near_mono (mul_le_mul_of_nonneg_right le (by norm_num : (0 : Rat) ≤ 1000))
  have whole : thousandths q ≤ thousandths r := Nat.floor_mono (by linarith)
  exact Double.near_mono (div_le_div_of_nonneg_right (by exact_mod_cast whole) (by norm_num))

theorem nearThousandths_of_power : nearThousandths (thousandths (2 ^ 64)) = 2 ^ 64 := by
  have scaled : binary64.near (2 ^ 64 * 1000) = (2 ^ 64 * 1000 : Nat) := by
    have held := Double.near_shifted (n := 1000) (k := 64) (by decide) (by decide) (by decide)
    norm_num at held ⊢
    exact held
  have floor : thousandths (2 ^ 64) = 2 ^ 64 * 1000 := by
    rw [thousandths, scaled, Nat.floor_eq_iff (by positivity)]
    norm_num
  have held := Double.near_shifted (n := 1) (k := 64) (by decide) (by decide) (by decide)
  rw [nearThousandths, floor]
  norm_num at held ⊢
  exact held

end

section

variable {v : Double} {q : Rat} (value : v.exact.HasValue q) (nonneg : 0 ≤ q)
include value

theorem atMost_of_hasValue {b : Rat} (le : q ≤ b) : v.exact.AtMost b := by
  obtain ⟨s, p, eq, pos⟩ := Exact.Within.exists_finite value
  rw [eq] at value ⊢
  exact .finite pos (value.2.2.trans le)

include nonneg

theorem magnitude_of_hasValue : magnitude v = q := by
  obtain ⟨s, p, eq, -⟩ := Exact.Within.exists_finite value
  rw [eq] at value
  rw [magnitude, eq, le_antisymm value.2.2 value.2.1, max_eq_left nonneg]

/-- The label of a value that is not below zero. -/
theorem axisLabel_of_value (le : q ≤ 2 ^ (65 : Int)) : axisLabel v = written (nearThousandths (thousandths q)) := by
  rw [axisLabel_eq (atMost_of_hasValue value le), magnitude_of_hasValue value nonneg]

/-- Up to the numbers of 64 bits a label reads as its value but for a thousandth, or for a part of it that doubles leave. -/
theorem label_error (small : q < 2 ^ 64) : |decimal (axisLabel v) - q| ≤ max (1 / 1000) (q / 2 ^ 50) := by
  have le : q ≤ 2 ^ (65 : Int) := by
    norm_num
    linarith
  have text := axisLabel_of_value value nonneg le
  have held := holds_nearThousandths nonneg le
  have scaled := thousandths_error nonneg
  have back := nearThousandths_error (thousandths q)
  have most := nearThousandths_mono small.le
  rw [nearThousandths_of_power] at most
  generalize thousandths q = k at *
  rw [abs_le] at scaled back
  rcases le_total k (1000 * 2 ^ 42) with few | many
  · have less : (k : Rat) ≤ 1000 * 2 ^ 42 := by exact_mod_cast few
    rw [text, decimal_written (by linarith), toThousandths_few few, le_max_iff, abs_le, abs_le]
    rcases le_total q (2 ^ 40) with little | much
    · left
      constructor <;> linarith
    · right
      constructor <;> linarith
  · have more : 1000 * 2 ^ 42 ≤ (k : Rat) := by exact_mod_cast many
    rw [le_max_iff, abs_le, abs_le]
    right
    rcases lt_or_ge (nearThousandths k) (2 ^ 64) with less | all
    · rw [text, decimal_written less]
      have error := toThousandths_error (w := nearThousandths k) (by linarith)
      rw [abs_le] at error
      constructor <;> linarith
    · rw [text, written_of_le held all, decimal_grouped]
      push_cast
      constructor <;> linarith

/-- All greater values have the label of the greatest number of 64 bits. -/
theorem axisLabel_of_large (large : 2 ^ 64 ≤ q) (le : q ≤ 2 ^ (65 : Int)) :
    axisLabel v = grouped 0xFFFFFFFFFFFFFFFF := by
  have least := nearThousandths_mono large
  rw [nearThousandths_of_power] at least
  rw [axisLabel_of_value value nonneg le, written_of_le (holds_nearThousandths nonneg le) least]

/-- So a label reads as its value just if that is not more than some units above the numbers of 64 bits. -/
theorem label_error_iff (le : q ≤ 2 ^ (65 : Int)) :
    |decimal (axisLabel v) - q| ≤ max (1 / 1000) (q / 2 ^ 50) ↔ q < 2 ^ 64 + 2 ^ 14 := by
  rcases lt_or_ge q (2 ^ 64) with small | large
  · exact iff_of_true (label_error value nonneg small) (by linarith)
  · have off : |((0xFFFFFFFFFFFFFFFF : Nat) : Rat) - q| = q - 2 ^ 64 + 1 := by
      rw [abs_of_nonpos (by norm_num; linarith)]
      norm_num
      ring
    have most : max (1 / 1000) (q / 2 ^ 50) = q / 2 ^ 50 := max_eq_right (by linarith)
    rw [axisLabel_of_large value nonneg large le, decimal_grouped, off, most]
    constructor
    · intro near
      by_contra! far
      linarith
    · intro near
      -- doubles of that size are multiples of a unit, four of which are just too many
      obtain ⟨s, eq, -⟩ := value.exists_sign nonneg
      obtain ⟨n, units⟩ := Format.exists_rounded_eq (f := binary64) (k := 64) (q := q) (by norm_num; linarith)
      rw [(Double.holds_exact eq).rounded] at units
      norm_num [binary64] at units
      have few : (n : Rat) < (2 ^ 52 + 4 : Nat) := by
        push_cast
        linarith
      have fewer : n ≤ 2 ^ 52 + 3 := Nat.le_of_lt_succ (by exact_mod_cast few)
      have le : (n : Rat) ≤ 2 ^ 52 + 3 := by exact_mod_cast fewer
      linarith

end

end CycleChart.Text
