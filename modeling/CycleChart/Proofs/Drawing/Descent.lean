import CycleChart.Proofs.Chart.Ranking
import CycleChart.Proofs.Drawing.Faithful
import CycleChart.Proofs.Drawing.Pixels

namespace CycleChart

open Binary (Double Exact Format binary64)

namespace Breakdown

theorem natCast_count_le (n : UInt64) : (n.toNat : Rat) ≤ 2 ^ (64 : Int) := by
  exact_mod_cast n.toNat_lt.le

theorem hasValue_count (n : UInt64) : (Double.ofNat n.toNat).exact.HasValue (binary64.near n.toNat) := by
  refine Double.hasValue_ofExact (k := 64) (Exact.within_ofRat _) ?_ (by decide) (by decide)
  rw [abs_of_nonneg (Nat.cast_nonneg _)]
  exact natCast_count_le n

/-- The space after the longest bar, as the nearest double. -/
def headroom : Rat := binary64.near 1.15

theorem hasValue_headroom : (1.15 : Double).exact.HasValue headroom := by
  refine Double.hasValue_ofExact (k := 1) ?_ (by norm_num [abs_le]) (by decide) (by decide)
  exact (Exact.within_ofRat _).mono (by norm_num) (by norm_num)

theorem headroom_mem : 1 ≤ headroom ∧ headroom ≤ 2 ^ (1 : Int) := by
  have least := Double.near_mono (show 1 ≤ 1.15 by norm_num)
  rw [Format.Holds.near Double.holds_one] at least
  exact ⟨least, (abs_le.1 (Double.abs_near_le (by norm_num [abs_le]) (by decide) (by decide))).2⟩

/-- With that space the longest bar still has a double for its end, and not before its own. -/
theorem near_headroom {count : Rat} (nonneg : 0 ≤ count) (most : count ≤ 2 ^ (64 : Int)) :
    |binary64.near count * headroom| ≤ 2 ^ (65 : Int) ∧
      binary64.near count ≤ binary64.near (binary64.near count * headroom) := by
  obtain ⟨least, less⟩ := headroom_mem
  have positive : 0 ≤ binary64.near count := Format.near_nonneg nonneg
  have size : |count| ≤ 2 ^ (64 : Int) := (abs_of_nonneg nonneg).trans_le most
  have reach := (abs_le.1 (Double.abs_near_le size (by decide) (by decide))).2
  have further : binary64.near count ≤ binary64.near count * headroom := le_mul_of_one_le_right positive least
  constructor
  · rw [abs_of_nonneg (positive.trans further)]
    calc binary64.near count * headroom
      _ ≤ 2 ^ (64 : Int) * 2 ^ (1 : Int) := mul_le_mul reach less (zero_le_one.trans least) (by norm_num)
      _ = 2 ^ (65 : Int) := by norm_num
  · have kept := Double.near_mono further
    rwa [Double.near_near nonneg most (by decide) (by decide)] at kept

/-- The axis of the counts ends after the greatest one, and at most at twice the numbers of 64 bits. -/
theorem exists_axisEnd (b : Breakdown) :
    ∃ stop, b.axisEnd.exact.HasValue stop ∧ 0 < stop ∧ binary64.near b.maxCount.toNat ≤ stop ∧
      stop ≤ 2 ^ (65 : Int) := by
  have greatest : b.greatest.exact.HasValue (binary64.near b.maxCount.toNat) := hasValue_count b.maxCount
  have compare : (0 : Double).lt b.greatest = true ↔ 0 < binary64.near b.maxCount.toNat :=
    Double.hasValue_zero.lt_iff greatest
  rw [axisEnd]
  split
  · rename_i filled
    obtain ⟨bound, further⟩ := near_headroom (Nat.cast_nonneg _) (natCast_count_le b.maxCount)
    exact ⟨_, Double.hasValue_ofExact (greatest.mul hasValue_headroom) bound (by decide) (by decide),
      (compare.1 filled).trans_le further, further,
      (abs_le.1 (Double.abs_near_le bound (by decide) (by decide))).2⟩
  · rename_i none
    have least : binary64.near b.maxCount.toNat ≤ 0 := not_lt.1 fun positive => none (compare.2 positive)
    exact ⟨1, Double.hasValue_one, one_pos, least.trans zero_le_one, one_le_zpow₀ (by norm_num) (by decide)⟩

end Breakdown

namespace Drawing

/-- The share of a count, each of the numbers being a double. -/
def countShare (n : UInt64) (stop : Rat) : Rat := binary64.near (binary64.near n.toNat / stop)

section

variable {m n : UInt64} {stop : Rat} (positive : 0 < stop)
include positive

theorem countShare_mono (le : m ≤ n) : countShare m stop ≤ countShare n stop := by
  have near := near_natCast_mono (UInt64.le_iff_toNat_le.1 le)
  exact Double.near_mono (div_le_div_of_nonneg_right near positive.le)

theorem countShare_mem (le : binary64.near n.toNat ≤ stop) : 0 ≤ countShare n stop ∧ countShare n stop ≤ 1 := by
  have nonneg : 0 ≤ binary64.near (n.toNat : Rat) := Format.near_nonneg (Nat.cast_nonneg _)
  refine ⟨Format.near_nonneg (div_nonneg nonneg positive.le), ?_⟩
  have most := Double.near_mono (div_le_one_of_le₀ le positive.le)
  rwa [Format.Holds.near Double.holds_one] at most

end

namespace Plot

variable {p : Plot} (wide : p.area.left < p.area.right) (narrow : p.area.right - p.area.left < 2 ^ 23)
include wide narrow

/-- A count comes to the pixels that its share of the way covers. -/
theorem exists_pixel :
    ∃ stop, 0 < stop ∧ ∀ n : UInt64, n ≤ p.breakdown.maxCount →
      p.counts.pixel (.ofNat n.toNat) =
        p.area.left + covered (p.area.right - 1 - p.area.left) (countShare n stop) := by
  obtain ⟨stop, value, positive, reach, -⟩ := p.breakdown.exists_axisEnd
  refine ⟨stop, positive, ?_⟩
  intro n le
  have within := (near_natCast_mono (UInt64.le_iff_toNat_le.1 le)).trans reach
  have nonneg : 0 ≤ binary64.near (n.toNat : Rat) := Format.near_nonneg (Nat.cast_nonneg _)
  have quotient := (Breakdown.hasValue_count n).div value positive.ne'
  have share : (.ofNat n.toNat / p.breakdown.axisEnd : Double).exact.HasValue (countShare n stop) := by
    refine Double.hasValue_ofExact (k := 0) quotient ?_ (by decide) (by decide)
    rw [abs_of_nonneg (div_nonneg nonneg positive.le)]
    simpa using div_le_one_of_le₀ within positive.le
  obtain ⟨low, high⟩ := countShare_mem positive within
  exact pixelAt_up share low high (show p.area.left ≤ p.area.right - 1 by omega)
    (show p.area.right - 1 - p.area.left < _ by omega)

theorem pixel_mono {m n : UInt64} (le : m ≤ n) (within : n ≤ p.breakdown.maxCount) :
    p.counts.pixel (.ofNat m.toNat) ≤ p.counts.pixel (.ofNat n.toNat) := by
  obtain ⟨stop, positive, pixel⟩ := exists_pixel wide narrow
  have more := covered_mono (show 0 ≤ p.area.right - 1 - p.area.left by omega) (countShare_mono positive le)
  rw [pixel m (UInt64.le_trans le within), pixel n within]
  omega

/-- No count is shown in the first column. -/
theorem pixel_zero : p.counts.pixel 0 = p.area.left := by
  obtain ⟨stop, positive, pixel⟩ := exists_pixel wide narrow
  have share : countShare 0 stop = 0 := by simp [countShare, Format.near]
  have zero := pixel 0 (UInt64.zero_le)
  rwa [share, covered_zero, add_zero] at zero

end Plot

/-- An area that lies not below another one, starts in the same column and stops no sooner. -/
structure Leads (a b : Area) : Prop where
  top_le : a.top ≤ b.top
  bottom_le : a.bottom ≤ b.bottom
  left_eq : a.left = b.left
  le_right : b.right ≤ a.right

section

variable {p : Plot} (wide : p.area.left < p.area.right) (narrow : p.area.right - p.area.left < 2 ^ 23)
  (high : p.area.top < p.area.bottom) (low : p.area.bottom - p.area.top < 2 ^ 23)
include wide narrow high low

/-- A longer bar of a lower rank leads a shorter one. -/
theorem Plot.leads_bar (few : p.breakdown.bars.length < 2 ^ 32) {rank later : Nat} (less : rank < later)
    (inside : later < p.breakdown.bars.length) {b b' : Bar} (le : b'.count ≤ b.count)
    (within : b.count ≤ p.breakdown.maxCount) : Leads (p.bar rank b) (p.bar later b') := by
  have slots : 0 < p.slots.lastSlot := lastSlot_pos few (by omega)
  have down : p.slots.last ≤ p.slots.first := show p.area.top ≤ p.area.bottom - 1 by omega
  have short : p.slots.first - p.slots.last < 2 ^ 23 := show p.area.bottom - 1 - p.area.top < _ by omega
  have order : p.slotOf later ≤ p.slotOf rank := by
    rw [slotOf_eq few inside, slotOf_eq few (less.trans inside)]
    omega
  have most : p.slotOf rank ≤ p.slots.lastSlot := slotOf_le few (less.trans inside)
  have starts := SlotAxis.start_anti slots down short order most
  have stops := SlotAxis.stop_anti slots down short order most
  have shorter := pixel_mono wide narrow le within
  have least := pixel_mono wide narrow (UInt64.zero_le (a := b'.count)) (UInt64.le_trans le within)
  have column : p.counts.pixel (.ofNat (0 : UInt64).toNat) = p.area.left := pixel_zero wide narrow
  have zero : p.counts.pixel 0 = p.area.left := column
  rw [column] at least
  constructor <;> simp only [bar, Area.ordered, Area.ofCorners, Area.keepArea, Area.keepRow, Area.keepColumn, zero] <;>
    omega

/-- The bars of a sorted breakdown lead each other from the first rank on. -/
theorem Plot.pairwise_barAreas (few : p.breakdown.bars.length < 2 ^ 32)
    (sorted : p.breakdown.bars.Pairwise fun a b => b.count ≤ a.count) :
    (barAreas p).Pairwise Leads := by
  rw [List.pairwise_iff_getElem] at sorted ⊢
  intro i j hi hj less
  simp only [barAreas, List.length_map, List.length_zipIdx] at hi hj
  have within := Breakdown.count_le_maxCount (List.pairwise_iff_getElem.2 sorted) (List.getElem_mem hi)
  simpa [barAreas] using leads_bar wide narrow high low few less hj (sorted i j hi hj less) within

end

/-- What is drawn has room for its labels. -/
theorem exists_labelWidth {c : Chart} {f : Figure} {page : Page} (drawn : c.page f = .ok page) :
    ∃ k, f.labelWidth c.breakdown.longestLabel = .ok k := by
  obtain ⟨-, -, layout, laid⟩ := parts_of_page drawn
  obtain ⟨k, fits, -⟩ := bind_eq_ok laid
  exact ⟨k, fits⟩

/-- A report is drawn if there is room for its labels and a slot for each of them. Its bars come from the top down: each
starts in the same column as the ones of higher ranks, lies no lower and is no shorter. -/
theorem page_descends (identifier : String) (r : Report) :
    ((∃ page, (Chart.ofReport identifier r).page {} = .ok page) ↔
      (∃ k, Figure.labelWidth {} (Breakdown.ofCounts r.counts).longestLabel = .ok k) ∧
        r.counts.entries.length < 2 ^ 32) ∧
    ∀ page, (Chart.ofReport identifier r).page {} = .ok page →
      ∃ k, Figure.labelWidth {} (Breakdown.ofCounts r.counts).longestLabel = .ok k ∧
        areas page.items =
          (⟨0, 0, 3600, pageHeight (Summary.ofReport r).lines.length⟩, .white) ::
            ((barAreas (defaultPlot (.ofCounts r.counts) k)).mergeSort before).map (·, .skyBlue) ∧
        (barAreas (defaultPlot (.ofCounts r.counts) k)).Pairwise Leads := by
  constructor
  · constructor
    · rintro ⟨page, drawn⟩
      obtain ⟨k, fits⟩ := exists_labelWidth drawn
      exact ⟨⟨k, fits⟩, (exists_page_ofReport_iff identifier r fits).1 ⟨page, drawn⟩⟩
    · rintro ⟨⟨k, fits⟩, few⟩
      exact (exists_page_ofReport_iff identifier r fits).2 few
  · intro page drawn
    obtain ⟨k, fits⟩ := exists_labelWidth drawn
    obtain ⟨least, most⟩ := labelWidth_mem fits
    have few := few_of_page drawn
    obtain ⟨page', drawn', items⟩ := page_default fits (lines_ofReport r) few
    cases drawn.symm.trans drawn'
    refine ⟨k, fits, ?_, ?_⟩
    · rw [items]
      simp [Chart.ofReport]
    · have sorted := Breakdown.pairwise_bars r.counts
      exact Plot.pairwise_barAreas (p := defaultPlot (.ofCounts r.counts) k)
        (show (42 + k.toNat : Int) < 3558 by omega) (show (3558 - (42 + k.toNat) : Int) < 2 ^ 23 by omega)
        (show (92 : Int) < 1492 by decide) (show (1492 - 92 : Int) < 2 ^ 23 by decide) few sorted

theorem page_descends_pair :
    ∃ page, (Chart.ofReport "pair.json" (reportOf pair)).page {} = .ok page ∧
      ∃ k, Figure.labelWidth {} (Breakdown.ofCounts pair).longestLabel = .ok k ∧
        areas page.items =
          (⟨0, 0, 3600, pageHeight 3⟩, .white) ::
            ((barAreas (defaultPlot (.ofCounts pair) k)).mergeSort before).map (·, .skyBlue) ∧
        (barAreas (defaultPlot (.ofCounts pair) k)).Pairwise Leads := by
  obtain ⟨exists_iff, all⟩ := page_descends "pair.json" (reportOf pair)
  obtain ⟨page, drawn⟩ := exists_iff.2 ⟨⟨67, labelWidth_pair⟩, show 2 < 2 ^ 32 by norm_num⟩
  exact ⟨page, drawn, all page drawn⟩

end Drawing
end CycleChart
