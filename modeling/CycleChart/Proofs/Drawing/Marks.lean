import CycleChart.Drawing.Ticks
import CycleChart.Proofs.Binary.Signed
import CycleChart.Proofs.Binary.Unsigned

namespace CycleChart.Drawing

open Binary (Double Exact)

theorem unsigned_tenTo (k : Int) : (tenTo k).exact.Unsigned := by
  rw [tenTo]
  split
  · exact Double.unsigned_ofNat _
  · exact Double.unsigned_ofExact ((Double.unsigned_ofNat 1).div (Double.unsigned_ofNat _))

/-! A step is never negative: each refinement divides it by a whole number. -/

theorem unsigned_refine (stop : Double) (limit : Nat) {coarse fine : Double} {parts : List Double}
    (hc : coarse.exact.Unsigned) (hf : fine.exact.Unsigned) (hp : ∀ d ∈ parts, d.exact.Unsigned) :
    (refine stop limit coarse parts fine).1.exact.Unsigned := by
  induction parts generalizing fine with
  | nil => exact hf
  | cons d parts ih =>
    obtain ⟨hd, hp⟩ := List.forall_mem_cons.1 hp
    simp only [refine]
    split
    · exact hf
    · exact ih (Double.unsigned_ofExact (hc.div hd)) hp

theorem unsigned_refineStep (stop : Double) (limit fuel : Nat) {step : Double} (h : step.exact.Unsigned) :
    (refineStep stop limit fuel step).exact.Unsigned := by
  have parts : ∀ d ∈ ([2, 5, 10] : List Double), d.exact.Unsigned := by
    simp only [List.forall_mem_cons]
    exact ⟨Double.unsigned_ofNat 2, Double.unsigned_ofNat 5, Double.unsigned_ofNat 10, by simp⟩
  induction fuel generalizing step with
  | zero => exact h
  | succ fuel ih =>
    have finer := unsigned_refine stop limit h h parts
    rw [refineStep]
    split
    · exact ih (Double.unsigned_ofExact (h.div (Double.unsigned_ofNat 10)))
    · rename_i fine eq
      rwa [eq] at finer

theorem unsigned_tickStep (stop : Double) (limit : Nat) : (tickStep stop limit).exact.Unsigned := by
  apply unsigned_refineStep
  split
  · exact Double.unsigned_ofExact ((unsigned_tenTo _).mul (Double.unsigned_ofNat 10))
  · exact unsigned_tenTo _

theorem atMost_leftOver {a b : Double} {v : Rat} (ha : a.exact = .finite false v) (nonneg : 0 ≤ v)
    (hb : b.exact.Unsigned) : (leftOver a b).exact.AtMost v := by
  have unsigned : a.exact.Unsigned := ha ▸ .finite nonneg
  have quotient := Double.unsigned_ofExact (unsigned.div hb)
  have whole := Double.unsigned_ofExact ((Double.unsigned_ofExact quotient.floor).mul hb)
  have rest : (a - (a / b).floor * b).exact.AtMost v := by
    refine Double.atMost_ofExact ?_ (Double.holds_exact ha)
    rw [ha]
    exact whole.sub_atMost nonneg
  have zero : (0 : Double).exact.AtMost v := by
    rw [Double.exact_zero]
    exact .finite le_rfl nonneg
  have either (small : Bool) : (if small then 0 else a - (a / b).floor * b).exact.AtMost v := by
    cases small
    · exact rest
    · exact zero
  exact either _

/-- The first mark of an axis is at zero. -/
theorem exists_ticks {stop : Double} {v : Rat} (h : stop.exact.HasValue v) (positive : 0 < v) {limit : Nat}
    (filled : 0 < limit) : ∃ marks, ticks stop limit = 0 :: marks := by
  have exact : stop.exact = .finite false v := h.eq_finite positive
  have right : (stop - leftOver stop (tickStep stop limit)).exact.Unsigned := by
    refine Double.unsigned_ofExact ?_
    rw [exact]
    exact (atMost_leftOver exact positive.le (unsigned_tickStep stop limit)).sub_unsigned
  have offset : (stop - leftOver stop (tickStep stop limit) - 0).exact.Unsigned := by
    refine Double.unsigned_ofExact ?_
    rw [Double.exact_zero]
    exact right.sub_zero
  have below : (-tolerance).exact = .finite true (1 / 0x10000000000000) := by decide +kernel
  obtain ⟨fuel, rounds⟩ : ∃ fuel, 2 * limit = fuel + 1 := ⟨2 * limit - 1, by omega⟩
  have inside : (stop - leftOver stop (tickStep stop limit) - 0).lt (-tolerance) = false := by
    rw [Double.lt, below]
    exact offset.not_lt (by norm_num [Exact.value])
  simp only [ticks, rounds, marksFrom, inside, Bool.false_eq_true, if_false]
  exact ⟨_, rfl⟩

end CycleChart.Drawing
