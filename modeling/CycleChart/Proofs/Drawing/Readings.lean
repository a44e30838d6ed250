import CycleChart.Drawing.Labels
import CycleChart.Proofs.Drawing.Descent
import CycleChart.Proofs.Text.Reading

namespace CycleChart.Drawing

open Binary (Double Exact)

/-- A value on the axis of the counts is labelled by a number that is as near as doubles leave it, just as long as it
is not too far above the counts of 64 bits. Above them all values have one label. -/
theorem axisLabel_reads (b : Breakdown) {t : Double} (low : (0 : Double).le t = true) (high : t.le b.axisEnd = true) :
    ∃ q, t.exact.HasValue q ∧
      (|Text.decimal (Text.axisLabel t) - q| ≤ max (1 / 1000) (q / 2 ^ 50) ↔ q < 2 ^ 64 + 2 ^ 14) ∧
      (2 ^ 64 ≤ q → Text.axisLabel t = Text.grouped 0xFFFFFFFFFFFFFFFF) := by
  obtain ⟨stop, value, -, -, le⟩ := b.exists_axisEnd
  obtain ⟨q, known, nonneg, less⟩ := Double.exists_between Double.hasValue_zero value low high
  have reach := less.trans le
  exact ⟨q, known, Text.label_error_iff known nonneg reach, fun large =>
    Text.axisLabel_of_large known nonneg large reach⟩

/-- A breakdown with the greatest count there is. -/
def fullBreakdown : Breakdown := ⟨[⟨"a", 0xFFFFFFFFFFFFFFFF⟩]⟩

theorem axisLabel_reads_full :
    (0 : Double).le 20000000000000000000 = true ∧ (20000000000000000000 : Double).le fullBreakdown.axisEnd = true ∧
      ∃ q, (20000000000000000000 : Double).exact.HasValue q ∧
        (|Text.decimal (Text.axisLabel 20000000000000000000) - q| ≤ max (1 / 1000) (q / 2 ^ 50) ↔
          q < 2 ^ 64 + 2 ^ 14) ∧
        (2 ^ 64 ≤ q → Text.axisLabel 20000000000000000000 = Text.grouped 0xFFFFFFFFFFFFFFFF) := by
  have low : (0 : Double).le 20000000000000000000 = true := by decide +kernel
  have high : (20000000000000000000 : Double).le fullBreakdown.axisEnd = true := by decide +kernel
  exact ⟨low, high, axisLabel_reads fullBreakdown low high⟩

/-- The last mark on that axis is labelled by the greatest count, though it is greater. -/
theorem not_all_read :
    ¬∀ (b : Breakdown) (t : Double), (0 : Double).le t = true → t.le b.axisEnd = true →
      |Text.decimal (Text.axisLabel t) - t.exact.value| ≤ max (1 / 1000) (t.exact.value / 2 ^ 50) := by
  intro all
  have near := all fullBreakdown 20000000000000000000 (by decide +kernel) (by decide +kernel)
  have label : Text.axisLabel 20000000000000000000 = Text.grouped 0xFFFFFFFFFFFFFFFF := by decide +kernel
  have value : (20000000000000000000 : Double).exact.value = 20000000000000000000 := by decide +kernel
  rw [label, Text.decimal_grouped, value, max_eq_right (by norm_num), abs_le] at near
  norm_num at near

example : (ticks fullBreakdown.axisEnd 11).map Text.axisLabel =
    ["0", "2,000,000,000,000,000,000", "4,000,000,000,000,000,000", "6,000,000,000,000,000,000",
      "8,000,000,000,000,000,000", "10,000,000,000,000,000,000", "12,000,000,000,000,000,000",
      "14,000,000,000,000,000,000", "16,000,000,000,000,000,000", "18,000,000,000,000,000,000",
      "18,446,744,073,709,551,615"] := by
  decide +kernel

end CycleChart.Drawing
