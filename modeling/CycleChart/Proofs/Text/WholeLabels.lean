import CycleChart.Proofs.Binary.Spacing
import CycleChart.Proofs.Text.Reading

namespace CycleChart.Text

open Binary (Double Exact offGrid)

/-! A whole number is scaled by a thousand and back. -/

/-- How far the thousandfold of a number is from the double that takes its place. -/
def scalingLoss (n : Nat) : Nat := offGrid (1000 * n) (2 ^ ((1000 * n).log2 - 52))

/-- Whether a whole number is lost when it is scaled by a thousand and back: then the thousandfold is off by more than a
thousand times half the step from the number to the next double. -/
def Slips (n : Nat) : Prop := 1000 * 2 ^ n.log2 < 2 ^ 53 * scalingLoss n

instance (n : Nat) : Decidable (Slips n) := Nat.decLt _ _

theorem thousandths_natCast (n : Nat) : |(thousandths n : Rat) - (1000 * n : Nat)| = scalingLoss n := by
  obtain ⟨m, eq, off⟩ := Double.exists_near_natCast (1000 * n)
  have scaled : (n : Rat) * 1000 = (1000 * n : Nat) := by
    push_cast
    ring
  have same : thousandths n = m := by
    rw [thousandths, scaled, eq, Nat.floor_eq_iff (by positivity)]
    constructor <;> linarith
  rwa [same]

/-- A thousandfold is a multiple of eight. -/
theorem offGrid_thousandfold_of_le {n k : Nat} (le : k ≤ 3) : offGrid (1000 * n) (2 ^ k) = 0 :=
  Binary.offGrid_of_dvd (((Nat.pow_dvd_pow 2 le).trans (by decide : 2 ^ 3 ∣ 1000)).mul_right n)

theorem eight_dvd_scalingLoss (n : Nat) : 8 ∣ scalingLoss n := by
  rw [scalingLoss]
  generalize (1000 * n).log2 - 52 = k
  rcases le_or_gt k 3 with le | gt
  · rw [offGrid_thousandfold_of_le le]
    exact dvd_zero 8
  · exact Binary.dvd_offGrid ((by decide : 8 ∣ 1000).mul_right n) (Nat.pow_dvd_pow 2 gt.le)

theorem scalingLoss_of_lt {n : Nat} (small : 1000 * n < 2 ^ 56) : scalingLoss n = 0 := by
  apply offGrid_thousandfold_of_le
  rcases Nat.eq_zero_or_pos n with rfl | some
  · decide
  · have digits := (Nat.log2_lt (by omega)).2 small
    omega

theorem scalingLoss_power (j : Nat) : scalingLoss (2 ^ j) = 0 := by
  have filled := Nat.two_pow_pos j
  have digits : (1000 * 2 ^ j).log2 < j + 10 := by
    rw [Nat.log2_lt (by omega), Nat.pow_add]
    omega
  exact Binary.offGrid_of_dvd ((Nat.pow_dvd_pow 2 (by omega)).mul_left 1000)

theorem scalingLoss_le {n : Nat} (le : n ≤ 2 ^ 53) : scalingLoss n ≤ 512 := by
  have within := Binary.two_mul_offGrid_le (1000 * n) (2 ^ ((1000 * n).log2 - 52))
  have digits : (1000 * n).log2 - 52 ≤ 10 := by
    rcases Nat.eq_zero_or_pos n with rfl | some
    · decide
    · have less := (Nat.log2_lt (n := 1000 * n) (k := 63) (by omega)).2 (by omega)
      omega
  have step : 2 ^ ((1000 * n).log2 - 52) ≤ 2 ^ 10 := Nat.pow_le_pow_right (by decide) digits
  rw [scalingLoss]
  omega

/-- The thousandfold is never off by just that much: its loss is a multiple of eight, and a thousand halves of a step are
not. -/
theorem scalingLoss_ne_half (n : Nat) {j : Nat} (small : j ≤ 52) : 2 ^ 53 * scalingLoss n ≠ 1000 * 2 ^ j := by
  intro same
  obtain ⟨part, eq⟩ := eight_dvd_scalingLoss n
  have cut : 2 ^ 53 = 2 * 2 ^ (52 - j) * 2 ^ j := by
    rw [Nat.mul_assoc, ← Nat.pow_add, Nat.sub_add_cancel small, ← Nat.pow_succ']
  have odd : 8 * (2 * 2 ^ (52 - j) * part) = 8 * 125 := by
    apply Nat.eq_of_mul_eq_mul_right (Nat.two_pow_pos j)
    calc 8 * (2 * 2 ^ (52 - j) * part) * 2 ^ j
      _ = 2 * 2 ^ (52 - j) * 2 ^ j * (8 * part) := by ring
      _ = 8 * 125 * 2 ^ j := by rw [← cut, ← eq, same]
  rw [Nat.mul_assoc] at odd
  omega

/-- Some thousandths near the thousandfold of a number come back as the number just if they are off by less than that. -/
theorem nearThousandths_eq_iff {n k e j : Nat} (off : |(k : Rat) - (1000 * n : Nat)| = e) (few : e < 1000)
    (low : 2 ^ j < n) (high : n < 2 ^ (j + 1)) (small : j ≤ 52) (apart : 2 ^ 53 * e ≠ 1000 * 2 ^ j) :
    nearThousandths k = n ↔ 2 ^ 53 * e < 1000 * 2 ^ j := by
  have error : |(k : Rat) / 1000 - n| = e / 1000 := by
    have part : (k : Rat) / 1000 - n = (k - (1000 * n : Nat)) / 1000 := by
      push_cast
      ring
    rw [part, abs_div, off]
    norm_num
  have half : (2 : Rat) ^ ((j : Int) - 53) = 2 ^ j / 2 ^ 53 := by
    rw [sub_eq_add_neg, Binary.two_zpow_add, zpow_natCast, zpow_neg, ← div_eq_mul_inv]
    norm_num
  have compare : (e : Rat) / 1000 < 2 ^ j / 2 ^ 53 ↔ 2 ^ 53 * e < 1000 * 2 ^ j := by
    rw [div_lt_div_iff₀ (by norm_num) (by norm_num), ← @Nat.cast_lt Rat, mul_comm (e : Rat), mul_comm (2 ^ j : Rat)]
    norm_num
  have tie : |(k : Rat) / 1000 - n| ≠ 2 ^ ((j : Int) - 53) := by
    rw [error, half, Ne, div_eq_div_iff (by norm_num) (by norm_num), mul_comm (e : Rat), mul_comm (2 ^ j : Rat)]
    exact_mod_cast apart
  have within : |(k : Rat) / 1000 - n| < 1 := by
    rw [error, div_lt_one (by norm_num)]
    exact_mod_cast few
  have least : (2 : Rat) ^ j + 1 ≤ n := by exact_mod_cast low
  have most : (n : Rat) + 1 ≤ 2 ^ (j + 1) := by exact_mod_cast high
  rw [abs_lt] at within
  rw [nearThousandths, Double.near_eq_iff (by linarith) (by linarith) small tie, error, half, compare]

/-- Scaled by a thousand and back, a whole number is what it was just if it does not slip. -/
theorem nearThousandths_natCast_iff {n : Nat} (le : n ≤ 2 ^ 53) : nearThousandths (thousandths n) = n ↔ ¬Slips n := by
  have off := thousandths_natCast n
  rw [Slips, not_lt]
  rcases Nat.eq_zero_or_pos (scalingLoss n) with exact | inexact
  · rw [exact, Nat.cast_zero, abs_eq_zero, sub_eq_zero, Nat.cast_inj] at off
    have back : ((1000 * n : Nat) : Rat) / 1000 = n := by
      push_cast
      ring
    refine iff_of_true ?_ (by omega)
    rw [nearThousandths, off, back, Double.near_natCast le]
  · have some : n ≠ 0 := by
      rintro rfl
      exact absurd inexact (by decide)
    have low : 2 ^ n.log2 < n := by
      refine (Nat.log2_self_le some).lt_of_ne fun power => inexact.ne' ?_
      rw [← power, scalingLoss_power]
    have small : n.log2 < 53 := (Nat.pow_lt_pow_iff_right (by decide)).1 (low.trans_le le)
    have apart := scalingLoss_ne_half n (Nat.le_of_lt_succ small)
    rw [nearThousandths_eq_iff off ((scalingLoss_le le).trans_lt (by decide)) low Nat.lt_log2_self
      (Nat.le_of_lt_succ small) apart]
    omega

/-! The label. -/

/-- A whole number is labelled as a whole number just if it does not slip, and small ones do not. -/
theorem axisLabel_ofNat_iff {n : Nat} (le : n ≤ 2 ^ 53) :
    (axisLabel (.ofNat n) = grouped n ↔ ¬Slips n) ∧ (1000 * n < 2 ^ 56 → axisLabel (.ofNat n) = grouped n) := by
  have value : (Double.ofNat n).exact.HasValue n :=
    Double.hasValue_of_holds (Exact.within_ofRat n) (Double.holds_natCast le)
  have few : (n : Rat) ≤ (2 ^ 53 : Nat) := by exact_mod_cast le
  have text := axisLabel_of_value value (Nat.cast_nonneg n) (few.trans (by norm_num))
  have iff : axisLabel (.ofNat n) = grouped n ↔ ¬Slips n := by
    rw [← nearThousandths_natCast_iff le]
    constructor
    · intro label
      have most := nearThousandths_mono few
      rw [(nearThousandths_natCast_iff le_rfl).2 (by decide)] at most
      have small : nearThousandths (thousandths n) < 2 ^ 64 := most.trans_lt (by norm_num)
      have read := decimal_written small
      rw [← text, label, decimal_grouped] at read
      exact eq_of_toThousandths read.symm
    · intro back
      rw [text, back, written, Int.fract_natCast, if_pos rfl, Nat.floor_natCast, min_eq_left (by omega)]
  refine ⟨iff, fun small => iff.2 ?_⟩
  rw [Slips, scalingLoss_of_lt small]
  omega

/-- Just above three quarters of the range a number slips, and its label is another whole number. -/
theorem axisLabel_ofNat_iff_slipping :
    6755399441055808 ≤ 2 ^ 53 ∧
      ((axisLabel (.ofNat 6755399441055808) = grouped 6755399441055808 ↔ ¬Slips 6755399441055808) ∧
        (1000 * 6755399441055808 < 2 ^ 56 →
          axisLabel (.ofNat 6755399441055808) = grouped 6755399441055808)) ∧
      Slips 6755399441055808 :=
  have le : 6755399441055808 ≤ 2 ^ 53 := by decide
  ⟨le, axisLabel_ofNat_iff le, by decide⟩

/-- The least number that slips is labelled with places after the point. -/
theorem not_all_whole : ¬∀ n : Nat, n ≤ 2 ^ 53 → axisLabel (.ofNat n) = grouped n := by
  intro all
  have label : axisLabel (.ofNat 72057594037929) = "72,057,594,037,928.984" := by decide +kernel
  have whole : grouped 72057594037929 = "72,057,594,037,929" := by decide +kernel
  have same := all 72057594037929 (by decide)
  rw [label, whole] at same
  exact absurd same (by decide)

end CycleChart.Text
