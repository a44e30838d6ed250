import CycleChart.Figure
import CycleChart.Proofs.Binary.UpTo
import CycleChart.Proofs.Canvas.Content
import CycleChart.Proofs.Drawing.Slots
import CycleChart.Proofs.Results

namespace CycleChart

open Binary (Double)
open Drawing (IsShare)

/-! The part of a length that a ratio takes. -/

/-- A ratio is made a share by keeping it between zero and one, unless it is not a number. -/
theorem isShare_clamp (ratio : Double) : IsShare (ratio.clamp 0 1) := by
  have zero : (0 : Double).exact = .finite false 0 := Double.exact_zero
  have one : (1 : Double).exact = .finite false 1 := Double.hasValue_one.eq_finite one_pos
  rw [Double.clamp]
  split
  · exact .inr (Double.hasValue_zero.mono le_rfl zero_le_one)
  · rename_i above
    split
    · exact .inr (Double.hasValue_one.mono zero_le_one le_rfl)
    · rename_i below
      -- what passes both comparisons is within, or compares with nothing
      cases eq : ratio.exact with
      | nan => exact .inl eq
      | infinite s =>
        rw [Double.lt, eq, zero] at above
        rw [Double.lt, eq, one] at below
        cases s
        · exact absurd rfl below
        · exact absurd rfl above
      | finite s q =>
        rw [Double.lt, eq, zero, Binary.Exact.lt, decide_eq_true_iff, not_lt] at above
        rw [Double.lt, eq, one, Binary.Exact.lt, decide_eq_true_iff, not_lt] at below
        exact .inr (eq ▸ ⟨(Double.holds_exact eq).nonneg, above, below⟩)

/-- A share of a length has no more pixels than the length. What is not a number has none. -/
theorem toUInt32_round_share {share : Double} (h : IsShare share) (length : UInt32) :
    (.ofNat length.toNat * share : Double).round.toUInt32 ≤ length := by
  rw [UInt32.le_iff_toNat_le]
  have small := length.toNat_lt
  rcases h with nan | within
  · have value : (Double.ofNat length.toNat).exact.HasValue length.toNat := Double.hasValue_ofNat (by omega)
    have product : (.ofNat length.toNat * share : Double).exact = .nan := by
      obtain ⟨s, q, eq, -⟩ := Binary.Exact.Within.exists_finite value
      rw [Double.exact_mul, eq, nan]
      exact Double.exact_ofExact_nan
    rw [Double.round, product, Double.toUInt32]
    exact Nat.zero_le _
  · have part : share.UpTo 1 := by rwa [Double.UpTo, Nat.cast_one]
    -- the length is a double, so neither the product nor what it is rounded to gets past it
    have product := (Double.upTo_ofNat (Nat.le_refl length.toNat) (by omega)).mul part (by omega)
    rw [Nat.mul_one] at product
    exact (product.round (by omega)).toUInt32 small

theorem exists_addSizes_iff (cause : Overflow) {a b : UInt32} :
    (∃ sum, addSizes cause a b = .ok sum) ↔ a.toNat + b.toNat < 2 ^ 32 := by
  rw [addSizes]
  split
  · rename_i fits
    exact iff_of_true ⟨_, rfl⟩ fits
  · rename_i large
    refine iff_of_false ?_ large
    rintro ⟨sum, h⟩
    cases h

namespace Figure

theorem one_le_pixelSize (f : Figure) : 1 ≤ f.pixelSize.1.toNat ∧ 1 ≤ f.pixelSize.2.toNat := by
  simp only [pixelSize, toNat_max]
  exact ⟨le_max_right _ _, le_max_right _ _⟩

theorem chartHeight_le (f : Figure) : f.chartHeight ≤ f.pixelSize.2 :=
  toUInt32_round_share (isShare_clamp f.chartRatio) f.pixelSize.2

/-- How many rows the bars and some summary lines take. -/
def rowsNeeded (f : Figure) (lines : Nat) : Nat := f.chartHeight.toNat + (f.summaryHeight lines).toNat

theorem canvasSize_eq_ok_iff {f : Figure} {lines : Nat} {size : UInt32 × UInt32} :
    f.canvasSize lines = .ok size ↔
      f.rowsNeeded lines < 2 ^ 32 ∧ size.1 = f.pixelSize.1 ∧
        size.2.toNat = max f.pixelSize.2.toNat (f.rowsNeeded lines) := by
  constructor
  · intro h
    obtain ⟨needed, sum, h⟩ := bind_eq_ok h
    cases h
    have total := addSizes_eq_ok_iff.1 sum
    exact ⟨(exists_addSizes_iff .canvasHeight).1 ⟨_, sum⟩, rfl, by rw [toNat_max, total, rowsNeeded]⟩
  · rintro ⟨fits, width, height⟩
    obtain ⟨needed, sum⟩ := (exists_addSizes_iff .canvasHeight).2 fits
    have total := addSizes_eq_ok_iff.1 sum
    rw [rowsNeeded, ← total, ← toNat_max, UInt32.toNat_inj] at height
    rw [canvasSize, sum, ← Prod.mk.eta (p := size), width, height]
    rfl

theorem exists_canvasSize_iff {f : Figure} {lines : Nat} :
    (∃ size, f.canvasSize lines = .ok size) ↔ f.rowsNeeded lines < 2 ^ 32 := by
  constructor
  · rintro ⟨size, sized⟩
    exact (canvasSize_eq_ok_iff.1 sized).1
  · intro fits
    obtain ⟨needed, sum⟩ := (exists_addSizes_iff .canvasHeight).2 fits
    exact ⟨_, by rw [canvasSize, sum]; rfl⟩

end Figure
end CycleChart
