import CycleChart.Proofs.Drawing.Descent
import CycleChart.Proofs.Drawing.Marks

namespace CycleChart.Drawing

open Binary (Double Exact Format binary32 binary64)

/-! The gap above and below a bar. -/

/-- What the bars leave of their slots is at most a quarter. -/
theorem left_within : (1 - 0.8 : Double).exact.Within 0 (1 / 4) := by
  have quarters {i : Int} (small : i.natAbs < 2 ^ 53) : binary64.Holds |(i : Rat) * 2 ^ (-2 : Int)| :=
    Format.holds_abs small (by decide) (by decide)
  have three := quarters (i := 3) (by decide)
  have quarter := quarters (i := 1) (by decide)
  norm_num at three quarter
  have covers : (0.8 : Double).exact.Within (3 / 4) 1 := by
    refine Double.within_ofExact ?_ (by norm_num; exact three) Double.holds_one
    exact (Exact.within_ofRat _).mono (by norm_num) (by norm_num)
  refine Double.within_ofExact ((Exact.Within.sub Double.hasValue_one covers).mono ?_ ?_) Double.holds_zero ?_
  · norm_num
  · norm_num
  · norm_num
    exact quarter

/-- The gap is at most an eighth of a slot, but for rounding. -/
theorem gap_le {slot : Double} {height : Rat} (h : slot.exact.Within 0 height) (short : height ≤ 1024) :
    ((slot * (1 - 0.8) / 2 : Double).round.toUInt32.toNat : Rat) ≤ height / 8 + 1 / 2 + 1 / 1024 := by
  have exact := h.mul left_within le_rfl le_rfl
  rw [zero_mul] at exact
  have product : (slot * (1 - 0.8) : Double).exact.Within 0 (height * (1 / 4) + 2 ^ (-45 : Int)) :=
    Double.within_ofExact_add (k := 8) exact (by norm_num; linarith) (by decide) (by decide)
  have halved := product.div Double.hasValue_two two_pos
  rw [zero_div] at halved
  have quotient : (slot * (1 - 0.8) / 2 : Double).exact.Within 0
      ((height * (1 / 4) + 2 ^ (-45 : Int)) / 2 + 2 ^ (-45 : Int)) :=
    Double.within_ofExact_add (k := 8) halved (by norm_num; linarith) (by decide) (by decide)
  have gap := Double.toUInt32_round_le quotient (by norm_num; linarith)
  norm_num at gap ⊢
  linarith

section

variable {b : Breakdown} (k : UInt32)

theorem hasValue_height : (.ofInt (barArea k).height : Double).exact.HasValue 1400 := by
  have whole : (Double.ofInt 1400).exact.HasValue (1400 : Int) := Double.within_ofInt (by decide)
  exact_mod_cast whole

theorem gap_default (filled : 1 ≤ b.bars.length) :
    ((defaultPlot b k).gap : Rat) =
      (.ofInt (barArea k).height / .ofNat b.bars.length * (1 - 0.8) / 2 : Double).round.toUInt32.toNat := by
  simp only [Plot.gap, defaultPlot, max_eq_left filled, Int.cast_natCast]

theorem gap_few (several : 2 ≤ b.bars.length) (few : b.bars.length ≤ 400) :
    ((defaultPlot b k).gap : Rat) ≤ 175 / b.bars.length + 1 / 2 + 1 / 512 := by
  have count : (2 : Rat) ≤ b.bars.length := by exact_mod_cast several
  have least : (1400 : Rat) / b.bars.length ≤ 700 := by
    rw [div_le_iff₀ (by linarith)]
    linarith
  have nonneg : (0 : Rat) ≤ 1400 / b.bars.length := by positivity
  have number : (Double.ofNat b.bars.length).exact.HasValue b.bars.length := Double.hasValue_ofNat (by omega)
  have quotient := (hasValue_height k).div number (by linarith)
  have slot := Double.within_ofExact_add (k := 10) (quotient.mono nonneg le_rfl) (by norm_num; linarith) (by decide)
    (by decide)
  have gap := gap_le slot (by norm_num; linarith)
  have eq : (175 : Rat) / b.bars.length = 1400 / b.bars.length / 8 := by ring
  rw [gap_default k (by omega), eq]
  refine gap.trans ?_
  norm_num
  linarith

/-- With more bars than that no gap is left. -/
theorem gap_many (many : 400 < b.bars.length) : (defaultPlot b k).gap = 0 := by
  have divisor : (Double.ofNat b.bars.length).exact = binary64.nearest (.ofRat b.bars.length) := by
    rw [Double.exact_ofNat, Exact.ofRat, if_neg (not_lt.2 (Nat.cast_nonneg _))]
  have held : binary64.Holds ((400 : Nat) : Rat) := by
    simpa using Format.holds_int (f := binary64) (i := 400) (by decide) (by decide) (by decide)
  have half : binary64.Holds |((7 : Int) : Rat) / 2| := Format.holds_half (by decide) (by decide) (by decide)
  have length : (Double.ofInt (barArea k).height).exact.Within 0 1400 :=
    (hasValue_height k).mono (by norm_num) le_rfl
  have quotient := quotient_within (by decide) length le_rfl (by norm_num) many.le (by decide) held
  rw [← divisor] at quotient
  have slot : (.ofInt (barArea k).height / .ofNat b.bars.length : Double).exact.Within 0 (((7 : Int) : Rat) / 2) :=
    Double.within_ofExact (quotient.mono (by norm_num) (by norm_num)) Double.holds_zero half
  have gap := gap_le slot (by norm_num)
  rw [← gap_default k (by omega)] at gap
  have less : (defaultPlot b k).gap < 1 := by
    have : ((defaultPlot b k).gap : Rat) < 1 := gap.trans_lt (by norm_num)
    exact_mod_cast this
  have nonneg : 0 ≤ (defaultPlot b k).gap := Int.natCast_nonneg _
  omega

end

/-! The rows of slots. -/

/-- The share of a slot, but for rounding. -/
theorem shareOf_near {slot last : Nat} (positive : 0 < last) (le : slot ≤ last) (few : last < 2 ^ 53) :
    |shareOf slot last - slot / last| ≤ 2 ^ (-53 : Int) := by
  have count {n : Nat} (small : n < 2 ^ 53) : binary64.near n = n :=
    Format.Holds.near (Double.holds_of_small (i := n) (by omega))
  have filled : (0 : Rat) < last := Nat.cast_pos.2 positive
  have size : |(slot : Rat) / last| ≤ 2 ^ (0 : Int) := by
    rw [abs_of_nonneg (div_nonneg (Nat.cast_nonneg _) filled.le), zpow_zero]
    exact div_le_one_of_le₀ (by exact_mod_cast le) filled.le
  have error := Double.near_error size (by decide)
  rw [shareOf, count few, count (le.trans_lt few)]
  rwa [zero_sub] at error

/-- The shares of neighbours differ by the share of one slot, but for rounding. -/
theorem shareOf_succ {slot last : Nat} (positive : 0 < last) (less : slot < last) (few : last < 2 ^ 53) :
    1 / (last : Rat) - 2 ^ (-52 : Int) ≤ shareOf (slot + 1) last - shareOf slot last := by
  have before := abs_le.1 (shareOf_near positive less.le few)
  have after := abs_le.1 (shareOf_near positive (show slot + 1 ≤ last from less) few)
  rw [Nat.cast_add, Nat.cast_one, add_div] at after
  norm_num at before after ⊢
  linarith

/-- Of the pixels between two shares hardly more than one is lost. -/
theorem covered_gain {length : Int} {s t : Rat} (nonneg : 0 ≤ length) (hs : 0 ≤ s ∧ s ≤ 1) (ht : 0 ≤ t ∧ t ≤ 1)
    (short : length ≤ 4096) : length * (t - s) - 1 - 1 / 64 ≤ (covered length t - covered length s : Int) := by
  obtain ⟨-, here⟩ := covered_near nonneg hs.1 hs.2 short
  obtain ⟨next, -⟩ := covered_near nonneg ht.1 ht.2 short
  push_cast
  linarith

namespace SlotAxis

variable {a : SlotAxis}

/-- A row that leaves room for two gaps in its slot lies between them. -/
theorem center_mem_gaps (slots : 0 < a.lastSlot) (down : a.last ≤ a.first) (short : a.first - a.last < 2 ^ 23)
    {gap : Int} {slot : Nat} (le : slot ≤ a.lastSlot) (last : 2 * gap ≤ -a.step)
    (inside : slot < a.lastSlot → 2 * gap ≤ a.start slot - a.start (slot + 1)) :
    a.stop slot + gap ≤ a.center slot ∧ a.center slot ≤ a.start slot - gap := by
  have here := start_mem slots down short le
  unfold center stop
  split
  · rename_i less
    have room := inside less
    have half := Int.mul_tdiv_add_tmod (a.start slot + a.start (slot + 1)) 2
    have rest := Int.tmod_two_eq (a.start slot + a.start (slot + 1))
    omega
  · have half := Int.mul_tdiv_add_tmod a.step 2
    have rest := Int.tmod_two_eq a.step
    omega

/-- The pixels that each slot would have, were there parts of pixels. -/
def exactStep (a : SlotAxis) : Rat := ((a.first - a.last : Int) : Rat) / (a.lastSlot + 1 : Nat)

/-- The step is at most half a pixel off, but for rounding. It is negative, since the slots count upward. -/
theorem step_near (down : a.last ≤ a.first) (short : a.first - a.last ≤ 2048) (few : a.lastSlot < 2 ^ 20) :
    a.exactStep - 1 / 2 - 1 / 1024 ≤ -a.step ∧ -a.step ≤ a.exactStep + 1 / 2 + 1 / 1024 := by
  have whole {i : Int} (small : i.natAbs < 2 ^ 24) : (binary32.nearest (.ofRat i)).HasValue i :=
    (Exact.within_ofRat i).nearest (by decide) (Format.holds_int small (by decide) (by decide))
      (Format.holds_int small (by decide) (by decide))
  have length := whole (i := a.last - a.first) (by omega)
  have slots := whole (i := (a.lastSlot + 1 : Nat)) (by omega)
  have filled : (1 : Rat) ≤ ((a.lastSlot + 1 : Nat) : Int) := by exact_mod_cast Nat.le_add_left 1 _
  have quotient := length.div slots (by linarith)
  have eq : ((a.last - a.first : Int) : Rat) / ((a.lastSlot + 1 : Nat) : Int) = -a.exactStep := by
    rw [exactStep, ← neg_div, ← Int.cast_neg, neg_sub, Int.cast_natCast]
  have length_nonneg : (0 : Rat) ≤ (a.first - a.last : Int) := by exact_mod_cast (by omega : 0 ≤ a.first - a.last)
  have size : |-a.exactStep| ≤ 2 ^ (11 : Int) := by
    rw [abs_neg, exactStep, abs_of_nonneg (div_nonneg length_nonneg (Nat.cast_nonneg _))]
    refine (div_le_self length_nonneg filled).trans ?_
    norm_num1
    exact_mod_cast short
  rw [eq] at quotient
  have near := Exact.Within.nearest_near (f := binary32) (by decide) quotient (by decide) (by decide) size size
  have error : |binary32.near (-a.exactStep) - -a.exactStep| ≤ 2 ^ (11 - 24 : Int) := Format.near_error size (by decide)
  rw [abs_le] at size error
  norm_num at size error
  obtain ⟨least, most⟩ := near.clampTo_round (show ((-0x80000000 : Int) : Rat) ≤ _ by push_cast; linarith)
    (show _ ≤ ((0x7FFFFFFF : Int) : Rat) by push_cast; linarith)
  change _ ≤ (a.step : Rat) at least
  change (a.step : Rat) ≤ _ at most
  constructor <;> linarith

variable (slots : 0 < a.lastSlot) (down : a.last ≤ a.first) (short : a.first - a.last ≤ 2048)
  (few : a.lastSlot < 2 ^ 20)
include slots down short few

/-- The starts of all slots but the last one share the way in equal parts. -/
theorem exactStep_le_part :
    a.exactStep - 1 / 2 - 1 / 1024 ≤ (a.first - (a.last - a.step) : Int) * (1 / (a.lastSlot : Rat)) := by
  obtain ⟨-, near⟩ := step_near down short few
  have filled : (1 : Rat) ≤ a.lastSlot := by exact_mod_cast slots
  have parts : a.exactStep * (a.lastSlot + 1) = (a.first - a.last : Int) := by
    rw [exactStep]
    push_cast
    rw [div_mul_cancel₀ _ (by linarith)]
  rw [mul_one_div, le_div_iff₀ (by linarith)]
  push_cast at parts ⊢
  calc (a.exactStep - 1 / 2 - 1 / 1024) * (a.lastSlot : Rat)
    _ = a.exactStep * (a.lastSlot + 1) - a.exactStep - (1 / 2 + 1 / 1024) * a.lastSlot := by ring
    _ ≤ a.exactStep * (a.lastSlot + 1) - a.exactStep - (1 / 2 + 1 / 1024) * 1 := by linarith
    _ ≤ a.first - (a.last - a.step) := by linarith

/-- From one slot to the next it is hardly less than the exact step, but for the loss of whole pixels. -/
theorem start_near {slot : Nat} (less : slot < a.lastSlot) :
    a.exactStep - 49 / 32 ≤ (a.start slot - a.start (slot + 1) : Int) := by
  have within : slot + 1 ≤ a.lastSlot := less
  obtain ⟨half, upward⟩ := step_mem slots down (by omega)
  have part := exactStep_le_part slots down short few
  rw [start_eq slots down (by omega) less.le (hasValue_share_few slots less.le (by omega)),
    start_eq slots down (by omega) within (hasValue_share_few slots within (by omega))]
  obtain ⟨length, eq⟩ : ∃ length, length = a.first - (a.last - a.step) := ⟨_, rfl⟩
  rw [← eq] at part ⊢
  have most : (length : Rat) ≤ 2048 := by exact_mod_cast (by omega : length ≤ 2048)
  have nonneg : (0 : Rat) ≤ length := by exact_mod_cast (by omega : 0 ≤ length)
  have gained := covered_gain (show 0 ≤ length by omega) (shareOf_mem slots less.le) (shareOf_mem slots within)
    (by omega)
  have scaled := mul_le_mul_of_nonneg_left (shareOf_succ slots less (by omega)) nonneg
  have error : (length : Rat) * 2 ^ (-52 : Int) ≤ 1 / 1024 :=
    (mul_le_mul_of_nonneg_right most (Binary.two_zpow_pos _).le).trans (by norm_num)
  rw [mul_sub] at scaled
  push_cast at gained ⊢
  linarith

end SlotAxis

section

variable {b : Breakdown} (k : UInt32) (few : b.bars.length < 2 ^ 32) (several : 2 ≤ b.bars.length)
include few several

/-- Every slot has room for two gaps: with many slots there are no gaps, and otherwise a slot has almost its share. -/
theorem gaps_le : 2 * (defaultPlot b k).gap ≤ -(defaultPlot b k).slots.step ∧
    ∀ slot < b.lastSlot.toNat, 2 * (defaultPlot b k).gap ≤
      (defaultPlot b k).slots.start slot - (defaultPlot b k).slots.start (slot + 1) := by
  have count : b.lastSlot.toNat + 1 = b.bars.length := by
    rw [Breakdown.toNat_lastSlot few]
    omega
  have last := lastSlot_pos few several
  rw [slots_default]
  -- two gaps take a quarter of the share and a pixel, a slot lacks a pixel and a half: up to 400 slots that fits
  by_cases less : b.bars.length ≤ 400
  · have gap := gap_few k several less
    have unit : (1 : Rat) / 400 ≤ 1 / b.bars.length :=
      one_div_le_one_div_of_le (by exact_mod_cast (by omega : 0 < b.bars.length)) (by exact_mod_cast less)
    have step : (SlotAxis.mk b.lastSlot.toNat 1491 92).exactStep = 1399 * (1 / (b.bars.length : Rat)) := by
      rw [SlotAxis.exactStep, count]
      norm_num
      ring
    rw [div_eq_mul_one_div] at gap
    constructor
    · obtain ⟨near, -⟩ := SlotAxis.step_near (a := ⟨b.lastSlot.toNat, 1491, 92⟩) (by norm_num) (by norm_num)
        (show b.lastSlot.toNat < 2 ^ 20 by omega)
      rw [step] at near
      rw [← Int.cast_le (R := Rat)]
      push_cast
      linarith
    · intro slot less
      have near := SlotAxis.start_near (a := ⟨b.lastSlot.toNat, 1491, 92⟩) last (by norm_num) (by norm_num)
        (show b.lastSlot.toNat < 2 ^ 20 by omega) less
      rw [step] at near
      rw [← Int.cast_le (R := Rat)]
      push_cast at near ⊢
      linarith
  · rw [gap_many k (by omega)]
    have step := SlotAxis.step_mem (a := ⟨b.lastSlot.toNat, 1491, 92⟩) last (by norm_num) (by norm_num)
    refine ⟨by omega, ?_⟩
    intro slot less
    have next := SlotAxis.start_anti (a := ⟨b.lastSlot.toNat, 1491, 92⟩) last (by norm_num) (by norm_num)
      (show slot ≤ slot + 1 by omega) less
    omega

/-- Where the bar of a slot starts and stops, and the row of its texts between. -/
theorem slot_mem {slot : Nat} (le : slot ≤ b.lastSlot.toNat) :
    92 ≤ (defaultPlot b k).slots.stop slot ∧ (defaultPlot b k).slots.start slot ≤ 1491 ∧
      (defaultPlot b k).slots.stop slot + (defaultPlot b k).gap ≤ (defaultPlot b k).slots.center slot ∧
      (defaultPlot b k).slots.center slot ≤ (defaultPlot b k).slots.start slot - (defaultPlot b k).gap := by
  have last := lastSlot_pos few several
  obtain ⟨room, inside⟩ := gaps_le k few several
  rw [slots_default] at room inside ⊢
  have start := SlotAxis.start_mem (a := ⟨b.lastSlot.toNat, 1491, 92⟩) last (by norm_num) (by norm_num) le
  have stop := SlotAxis.stop_mem (a := ⟨b.lastSlot.toNat, 1491, 92⟩) last (by norm_num) (by norm_num) slot
  have center := SlotAxis.center_mem_gaps (a := ⟨b.lastSlot.toNat, 1491, 92⟩) last (by norm_num) (by norm_num) le room
    (inside slot)
  exact ⟨stop.1, start.2, center⟩

end

/-- An area lies between two rows, and a row is one of its rows. -/
structure Encloses (top bottom : Int) (a : Area) (row : Int) : Prop where
  top_le : top ≤ a.ordered.top
  le_bottom : a.ordered.bottom ≤ bottom
  top_le_row : a.ordered.top ≤ row
  row_le_bottom : row ≤ a.ordered.bottom

section

variable {b : Breakdown} (k : UInt32)

theorem encloses_bar (few : b.bars.length < 2 ^ 32) (several : 2 ≤ b.bars.length) {rank : Nat}
    (inside : rank < b.bars.length) (bar : Bar) :
    Encloses 92 1491 ((defaultPlot b k).bar rank bar) ((defaultPlot b k).row rank) := by
  have slot := slot_mem k few several (Plot.slotOf_le (p := defaultPlot b k) few inside)
  have gap : 0 ≤ (defaultPlot b k).gap := Int.natCast_nonneg _
  have area : (defaultPlot b k).area = barArea k := rfl
  rw [row_several k few several inside]
  constructor <;>
    simp only [Plot.bar, area, barArea, Area.ordered, Area.ofCorners, Area.keepArea, Area.keepRow] <;>
    omega

/-- A bar that is alone starts above the slots. -/
theorem top_alone (single : b.bars.length = 1) (bar : Bar) : ((defaultPlot b k).bar 0 bar).ordered.top = -48 := by
  have alone : b.lastSlot.toNat = 0 := by
    rw [Breakdown.lastSlot, single]
    rfl
  have slot : (defaultPlot b k).slotOf 0 = 0 := by
    rw [Plot.slotOf_eq (by rw [defaultPlot, single]; norm_num) (by rw [defaultPlot, single]; norm_num), defaultPlot,
      single]
  have start : (SlotAxis.mk 0 1491 92).start 0 = 0 := by decide +kernel
  have stop : (SlotAxis.mk 0 1491 92).stop 0 = 92 := by decide +kernel
  have gap : (defaultPlot b k).gap = 140 := by
    have tenth : (.ofInt 1400 / .ofNat 1 * (1 - 0.8) / 2 : Double).round.toUInt32.toNat = 140 := by decide +kernel
    change ((.ofInt 1400 / .ofNat (max b.bars.length 1) * (1 - 0.8) / 2 : Double).round.toUInt32.toNat : Int) = 140
    rw [single, max_self, tenth]
    rfl
  have area : (defaultPlot b k).area = barArea k := rfl
  simp only [Plot.bar, slots_default, slot, alone, start, stop, gap, area, barArea, Area.ordered, Area.ofCorners,
    Area.keepArea, Area.keepRow]
  omega

/-! The grid lines. -/

theorem gridLine_mem_gridItems {p : Plot} {line : Stroke} : .gridLine line ∈ gridItems p ↔
    ∃ t ∈ p.countTicks, line = .vertical t.pixel (p.area.bottom - 1) p.area.top := by
  simp [gridItems, eq_comm]

theorem gridLine_not_mem_items (e : Edge) (p : Plot) (strip : Area) (size : Double) (line : Stroke) :
    .gridLine line ∉ e.items p strip size := by
  intro mem
  simp only [Edge.items, List.mem_cons, reduceCtorEq, false_or, List.mem_flatMap] at mem
  obtain ⟨t, -, mem⟩ := mem
  simp only [Edge.tickItems, List.mem_cons, reduceCtorEq, false_or] at mem
  split at mem <;> simp at mem

/-- The grid line at zero is always there. -/
theorem exists_countTick (p : Plot) : ∃ t, t ∈ p.countTicks := by
  obtain ⟨stop, value, positive, -⟩ := p.breakdown.exists_axisEnd
  obtain ⟨marks, eq⟩ := exists_ticks value positive (show 0 < 11 by decide)
  rw [Plot.countTicks, eq]
  exact ⟨_, List.mem_cons_self⟩

variable {c : Chart} {page : Page}

theorem gridLine_mem_page (fits : Figure.labelWidth {} c.breakdown.longestLabel = .ok k)
    (short : c.summary.lines.length ≤ 8) (drawn : c.page {} = .ok page) (line : Stroke) :
    .gridLine line ∈ page.items ↔ ∃ t ∈ (defaultPlot c.breakdown k).countTicks, line = .vertical t.pixel 1491 92 := by
  obtain ⟨page', drawn', items⟩ := page_default fits short (few_of_page drawn)
  cases drawn.symm.trans drawn'
  rw [items]
  simp only [List.mem_append, List.mem_cons, reduceCtorEq, List.not_mem_nil, false_or, or_false,
    gridLine_not_mem_items, gridLine_mem_gridItems, barItems, annotationItems, summaryItems, List.mem_map, and_false,
    exists_false]
  exact Iff.rfl

end

/-- Every report that is drawn has grid lines over the rows from 92 to 1491. Between them lies each bar, with the row of
its texts, unless it is alone. -/
theorem page_encloses (identifier : String) (r : Report) {k : UInt32}
    (fits : Figure.labelWidth {} (Breakdown.ofCounts r.counts).longestLabel = .ok k) :
    ((∃ page, (Chart.ofReport identifier r).page {} = .ok page) ↔ r.counts.entries.length < 2 ^ 32) ∧
      ∀ page, (Chart.ofReport identifier r).page {} = .ok page →
        Shows (Chart.ofReport identifier r) k page ∧
        (∃ line, .gridLine line ∈ page.items) ∧
        (∀ line, .gridLine line ∈ page.items → ∃ column, line = .vertical column 1491 92) ∧
        ∀ rank bar, (Breakdown.ofCounts r.counts).bars[rank]? = some bar →
          (Encloses 92 1491 ((defaultPlot (.ofCounts r.counts) k).bar rank bar)
              ((defaultPlot (.ofCounts r.counts) k).row rank) ↔
            (Breakdown.ofCounts r.counts).bars.length ≠ 1) := by
  refine ⟨exists_page_ofReport_iff identifier r fits, fun page drawn => ?_⟩
  have shows := shows_page (c := Chart.ofReport identifier r) fits (lines_ofReport r) drawn
  have lines := gridLine_mem_page (c := Chart.ofReport identifier r) k fits (lines_ofReport r) drawn
  refine ⟨shows, ?_, ?_, ?_⟩
  · obtain ⟨t, mem⟩ := exists_countTick (defaultPlot (.ofCounts r.counts) k)
    exact ⟨_, (lines _).2 ⟨t, mem, rfl⟩⟩
  · intro line mem
    obtain ⟨t, -, eq⟩ := (lines line).1 mem
    exact ⟨t.pixel, eq⟩
  · intro rank bar here
    have less : rank < (Breakdown.ofCounts r.counts).bars.length := (List.getElem?_eq_some_iff.1 here).1
    constructor
    · intro encloses alone
      obtain rfl : rank = 0 := by omega
      have top := encloses.top_le
      rw [top_alone k alone] at top
      omega
    · intro others
      have several : 2 ≤ (Breakdown.ofCounts r.counts).bars.length := by omega
      exact encloses_bar k (few_of_page drawn) several less bar

theorem page_encloses_pair :
    Figure.labelWidth {} (Breakdown.ofCounts pair).longestLabel = .ok 67 ∧
      (Breakdown.ofCounts pair).bars[1]? = some ⟨"b", 3⟩ ∧
      Encloses 92 1491 ((defaultPlot (.ofCounts pair) 67).bar 1 ⟨"b", 3⟩) ((defaultPlot (.ofCounts pair) 67).row 1) := by
  have here : (Breakdown.ofCounts pair).bars[1]? = some ⟨"b", 3⟩ := by
    rw [bars_pair]
    rfl
  obtain ⟨exists_iff, all⟩ := page_encloses "pair.json" (reportOf pair) labelWidth_pair
  obtain ⟨page, drawn⟩ := exists_iff.2 (show 2 < 2 ^ 32 by norm_num)
  obtain ⟨-, -, -, encloses⟩ := all page drawn
  refine ⟨labelWidth_pair, here, (encloses 1 ⟨"b", 3⟩ here).2 ?_⟩
  change (Breakdown.ofCounts pair).bars.length ≠ 1
  rw [bars_pair]
  decide

/-- Not every bar lies between the ends of the grid lines. -/
theorem not_all_enclosed :
    ¬∀ (identifier : String) (r : Report) (k : UInt32),
      Figure.labelWidth {} (Breakdown.ofCounts r.counts).longestLabel = .ok k →
        ∃ page, (Chart.ofReport identifier r).page {} = .ok page ∧
          ∀ line, .gridLine line ∈ page.items → ∀ a, (a, .skyBlue) ∈ areas page.items →
            line.stop.y ≤ a.ordered.top ∧ a.ordered.bottom ≤ line.start.y := by
  intro enclosed
  obtain ⟨page, drawn, inside⟩ := enclosed "single.json" (reportOf single) 67 labelWidth_single
  have shows := shows_page (c := Chart.ofReport "single.json" (reportOf single)) labelWidth_single (lines_ofReport _)
    drawn
  obtain ⟨t, mem⟩ := exists_countTick (defaultPlot (.ofCounts single) 67)
  have line := (gridLine_mem_page (c := Chart.ofReport "single.json" (reportOf single)) 67 labelWidth_single
    (lines_ofReport _) drawn _).2 ⟨t, mem, rfl⟩
  obtain ⟨bars, filled, perm⟩ := shows.areas_eq
  have bar : (defaultPlot (.ofCounts single) 67).bar 0 ⟨"a", 5⟩ ∈ bars := by
    refine perm.mem_iff.2 (List.mem_map.2 ⟨(⟨"a", 5⟩, 0), ?_, rfl⟩)
    change (⟨"a", 5⟩, 0) ∈ (Breakdown.ofCounts single).bars.zipIdx
    rw [bars_single]
    exact List.mem_cons_self
  obtain ⟨top, -⟩ := inside _ line ((defaultPlot (.ofCounts single) 67).bar 0 ⟨"a", 5⟩) (by
    rw [filled]
    exact List.mem_cons_of_mem _ (List.mem_map_of_mem bar))
  rw [top_alone 67 (congrArg List.length bars_single)] at top
  change (92 : Int) ≤ -48 at top
  omega

end CycleChart.Drawing
