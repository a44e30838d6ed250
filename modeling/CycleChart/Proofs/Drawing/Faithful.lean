import CycleChart.Proofs.Drawing.Shown
import CycleChart.Proofs.Drawing.Slots
import CycleChart.Proofs.Results

namespace CycleChart

open Binary (Double)

namespace Breakdown

variable {b : Breakdown}

theorem toNat_lastSlot (few : b.bars.length < 2 ^ 32) : b.lastSlot.toNat = b.bars.length - 1 := by
  have size : UInt32.size = 2 ^ 32 := rfl
  rw [lastSlot, UInt32.toNat_ofNat_of_lt']
  omega

/-- There are slots for fewer than `2 ^ 32` bars. Of more, one would come below the first slot. -/
theorem hasSlots_iff : b.hasSlots = true ↔ b.bars.length < 2 ^ 32 := by
  have size : UInt32.size = 2 ^ 32 := rfl
  simp only [hasSlots, Bool.and_eq_true, decide_eq_true_eq, List.all_eq_true, List.mem_range, UInt32.le_iff_toNat_le]
  constructor
  · rintro ⟨counted, reach⟩
    apply Classical.byContradiction
    intro many
    have below := reach (b.lastSlot.toNat + 1) (by omega)
    rw [UInt32.toNat_ofNat_of_lt' (by omega)] at below
    omega
  · intro few
    rw [toNat_lastSlot few]
    refine ⟨by omega, fun rank less => ?_⟩
    rw [UInt32.toNat_ofNat_of_lt' (by omega)]
    omega

end Breakdown

namespace Drawing

/-! The bars, the marks beside them and their numbers go by the same slots. -/

/-- The first bar has the last slot. -/
theorem Plot.slotOf_eq {p : Plot} (few : p.breakdown.bars.length < 2 ^ 32) {rank : Nat}
    (inside : rank < p.breakdown.bars.length) : p.slotOf rank = p.breakdown.bars.length - 1 - rank := by
  have size : UInt32.size = 2 ^ 32 := rfl
  have last := Breakdown.toNat_lastSlot few
  have number : (UInt32.ofNat rank).toNat = rank := UInt32.toNat_ofNat_of_lt' (by omega)
  rw [slotOf, UInt32.toNat_sub_of_le, last, number]
  rw [UInt32.le_iff_toNat_le, last, number]
  omega

theorem Plot.slotOf_le {p : Plot} (few : p.breakdown.bars.length < 2 ^ 32) {rank : Nat}
    (inside : rank < p.breakdown.bars.length) : p.slotOf rank ≤ p.breakdown.lastSlot.toNat := by
  rw [slotOf_eq few inside, Breakdown.toNat_lastSlot few]
  omega

/-- The marks of the slots name the bars from the last rank to the first, each in the slot of its bar. -/
theorem Plot.slotTicks_eq {p : Plot} (few : p.breakdown.bars.length < 2 ^ 32) (filled : p.breakdown.bars ≠ []) :
    p.slotTicks =
      (p.breakdown.bars.zipIdx.map fun (b, rank) => ⟨p.slots.center (p.slotOf rank), b.label⟩).reverse := by
  have positive : 0 < p.breakdown.bars.length := List.length_pos_iff.2 filled
  have last := Breakdown.toNat_lastSlot few
  refine List.ext_getElem ?_ ?_
  · simp only [slotTicks, List.length_map, List.length_range, List.length_reverse, List.length_zipIdx]
    omega
  · intro i h h'
    have here : i < p.breakdown.bars.length := by
      simp only [slotTicks, List.length_map, List.length_range] at h
      omega
    have inside : p.breakdown.bars.length - 1 - i < p.breakdown.bars.length := by omega
    have slot : p.breakdown.bars.length - 1 - (p.breakdown.bars.length - 1 - i) = i := by omega
    simp [slotTicks, slotOf_eq few inside, last, List.getElem?_eq_getElem inside, slot]

/-- Where the bars of the default figure go, beside a strip of some width for their labels. -/
def barArea (k : UInt32) : Area := ⟨42 + k.toNat, 92, 3558, 1492⟩

theorem labelWidth_mem {characters : Nat} {k : UInt32} (h : Figure.labelWidth {} characters = .ok k) :
    42 ≤ k.toNat ∧ k.toNat ≤ 1800 := by
  obtain ⟨needed, sum, h⟩ := bind_eq_ok h
  cases h
  have margin : (Figure.marginPixels {}).toNat = 42 := by decide +kernel
  have half : (Figure.pixelSize {}).1 / 2 = 1800 := by decide +kernel
  rw [addSizes_eq_ok_iff, margin] at sum
  rw [half]
  change 42 ≤ (if needed ≤ 1800 then needed else 1800).toNat ∧ (if needed ≤ 1800 then needed else 1800).toNat ≤ 1800
  split
  · rename_i le
    exact ⟨by omega, UInt32.le_iff_toNat_le.1 le⟩
  · exact ⟨by decide, by decide⟩

theorem isEmpty_iff {a : Area} : a.isEmpty = true ↔ a.right ≤ a.left ∨ a.bottom ≤ a.top := by
  simp [Area.isEmpty, Area.width, Area.height]

theorem Layout.strip_filled {a : Area} (wide : a.left < a.right) (high : a.top < a.bottom) : strip a = some a :=
  if_neg (by rw [isEmpty_iff]; omega)

theorem Layout.strip_empty {a : Area} (h : a.right ≤ a.left ∨ a.bottom ≤ a.top) : strip a = none :=
  if_pos (isEmpty_iff.2 h)

theorem Layout.ofFigure_default {characters : Nat} {k : UInt32} (h : Figure.labelWidth {} characters = .ok k) :
    Layout.ofFigure {} characters = .ok {
      title := ⟨1800, 47⟩
      plot := barArea k
      above := none
      left := some ⟨42, 92, 42 + k.toNat, 1492⟩
      below := some ⟨42 + k.toNat, 1492, 3558, 1638⟩
      right := none } := by
  obtain ⟨least, most⟩ := labelWidth_mem h
  have inner : inner {} = ⟨42, 92, 3558, 1638⟩ := by decide +kernel
  have rows : coordinate (Figure.labelHeight {}) = 146 := by decide +kernel
  have margin : margin {} = 42 := by decide +kernel
  have padding : titlePadding {} = 5 := by decide +kernel
  have width : coordinate k = k.toNat := coordinate_of_lt (by omega)
  have columns : Cuts.sorted 42 3558 (42 + k.toNat) 3558 = ⟨42, 42 + k.toNat, 3558, 3558⟩ := by
    simp only [Cuts.sorted, Cuts.mk.injEq]
    omega
  have lines : Cuts.sorted 92 1638 92 (1638 - max 0 146) = ⟨92, 92, 1492, 1638⟩ := rfl
  have fits : [42, 92, 3558, 1638, (⟨42, 92, 3558, 1638⟩ : Area).width, (⟨42, 92, 3558, 1638⟩ : Area).height,
      42 + k.toNat, 1638 - max 0 146, 1492 + min 0 146].all isCoordinate := by
    simp [isCoordinate, Area.width, Area.height]
    omega
  simp only [ofFigure, h, inner, rows, margin, padding, width, columns, lines, fits, ensure, if_true, bind,
    Except.bind, pure, Except.pure]
  rw [strip_empty (.inr le_rfl), strip_filled (by simp; omega) (by simp), if_neg (by omega),
    strip_filled (by simp; omega) (by simp), strip_empty (.inl le_rfl)]
  rfl

/-! The texts beside the bars. -/

/-- The row of a bar's slot. -/
def Plot.row (p : Plot) (rank : Nat) : Int := p.area.keepRow (p.slots.center (p.slotOf rank))

theorem Plot.mem_slotTicks {p : Plot} {t : Tick} (h : t ∈ p.slotTicks) :
    ∃ slot ≤ p.breakdown.lastSlot.toNat, t.pixel = p.slots.center slot := by
  obtain ⟨slot, within, rfl⟩ := List.mem_map.1 h
  exact ⟨slot, Nat.lt_succ_iff.1 (List.mem_range.1 within), rfl⟩

section

variable (b : Breakdown) (k : UInt32)

/-- The bars of the default figure. -/
def defaultPlot : Plot := ⟨barArea k, b⟩

/-- The labels of the bars from the first rank on, each in the row of its bar. -/
def barLabels : List Lettering :=
  b.bars.zipIdx.map fun (bar, rank) =>
    ⟨bar.label, ⟨32 + k.toNat, (defaultPlot b k).row rank⟩, .right, .center, .proportional,
      Figure.pointsToPixels {} 10⟩

/-- Where the number of a bar starts, a hundredth of the greatest count after the end of the bar. -/
def numberColumn (bar : Bar) : Int :=
  (barArea k).keepColumn ((defaultPlot b k).counts.pixel (.ofNat bar.count.toNat + b.greatest * 0.01))

/-- The numbers of the bars from the first rank on, each in the row of its bar. -/
def barNumbers : List Lettering :=
  b.bars.zipIdx.map fun (bar, rank) =>
    ⟨Text.grouped bar.count.toNat, ⟨numberColumn b k bar, (defaultPlot b k).row rank⟩, .left, .center, .proportional,
      Figure.pointsToPixels {} 10⟩

theorem slots_default : (defaultPlot b k).slots = ⟨b.lastSlot.toNat, 1491, 92⟩ := rfl

theorem tickLength_default (least : k.toNat ≤ 1800) : (defaultPlot b k).tickLength = 5 := by
  have shorter : min (barArea k).width (barArea k).height = 1400 := by
    simp only [barArea, Area.width, Area.height]
    omega
  have rounded : min 5 (0.05 * .ofInt 1400 : Double).round.toInt32 = 5 := by decide +kernel
  rw [Plot.tickLength, defaultPlot, shorter, rounded]

/-- The place of a slot that is alone lies outside the bars. -/
theorem center_alone : (SlotAxis.mk 0 1491 92).center 0 = -699 := by decide +kernel

variable {b} (few : b.bars.length < 2 ^ 32)
include few

theorem lastSlot_pos (several : 2 ≤ b.bars.length) : 0 < b.lastSlot.toNat := by
  rw [Breakdown.toNat_lastSlot few]
  omega

theorem center_several (several : 2 ≤ b.bars.length) {slot : Nat} (le : slot ≤ b.lastSlot.toNat) :
    92 ≤ (defaultPlot b k).slots.center slot ∧ (defaultPlot b k).slots.center slot ≤ 1491 := by
  have last := lastSlot_pos few several
  rw [slots_default]
  exact SlotAxis.center_mem last (by norm_num) (by norm_num) le

theorem row_several (several : 2 ≤ b.bars.length) {rank : Nat} (inside : rank < b.bars.length) :
    (defaultPlot b k).row rank = (defaultPlot b k).slots.center ((defaultPlot b k).slotOf rank) := by
  have := center_several k few several (Plot.slotOf_le (p := defaultPlot b k) few inside)
  have area : (defaultPlot b k).area = barArea k := rfl
  simp only [Plot.row, Area.keepRow, area, barArea]
  omega

omit few in
theorem holds_left (t : Tick) : Edge.left.holds (defaultPlot b k) t = true ↔ 92 ≤ t.pixel ∧ t.pixel ≤ 1491 := by
  simp [Edge.holds, Edge.range, defaultPlot, barArea]

/-- The marks of the slots lie beside the bars unless a single slot, or none, is taken. -/
theorem filter_slotTicks :
    (defaultPlot b k).slotTicks.filter (Edge.left.holds (defaultPlot b k)) =
      if 2 ≤ b.bars.length then (defaultPlot b k).slotTicks else [] := by
  split
  · rename_i several
    apply List.filter_eq_self.2
    intro t mem
    obtain ⟨slot, le, pixel⟩ := Plot.mem_slotTicks mem
    rw [holds_left, pixel]
    exact center_several k few several le
  · rename_i single
    have alone : b.lastSlot.toNat = 0 := by
      rw [Breakdown.toNat_lastSlot few]
      omega
    apply List.filter_eq_nil_iff.2
    intro t mem
    obtain ⟨slot, le, pixel⟩ := Plot.mem_slotTicks mem
    obtain rfl : slot = 0 := Nat.le_zero.1 (alone ▸ le)
    rw [holds_left, pixel, slots_default, alone, center_alone]
    decide

/-- Every bar but a single one is called by its label, in the row of its slot. -/
theorem texts_left (least : k.toNat ≤ 1800) :
    texts (Edge.left.items (defaultPlot b k) ⟨42, 92, 42 + k.toNat, 1492⟩ (Figure.pointsToPixels {} 10)) =
      if b.bars.length = 1 then [] else (barLabels b k).reverse := by
  have outside : Edge.isInward (defaultPlot b k) ⟨42, 92, 42 + k.toNat, 1492⟩ = false := by
    simp [Edge.isInward, Area.overlaps, defaultPlot, barArea]
  rw [Edge.texts_items _ _ _ _ outside, tickLength_default b k least]
  change ((defaultPlot b k).slotTicks.filter _).map _ = _
  rw [filter_slotTicks k few]
  split
  · rename_i several
    have filled : (defaultPlot b k).breakdown.bars ≠ [] := by
      rintro none
      rw [show b.bars = [] from none] at several
      cases several
    rw [Plot.slotTicks_eq few filled, if_neg (by omega), List.map_reverse, List.map_map, barLabels]
    congr 1
    apply List.map_congr_left
    rintro ⟨bar, rank⟩ mem
    have inside := (List.getElem?_eq_some_iff.1 (List.mem_zipIdx_iff_getElem?.1 mem)).1
    simp [Edge.outwardLabel, Edge.label, row_several k few several inside]
    omega
  · split
    · rfl
    · have none : b.bars = [] := List.length_eq_zero_iff.1 (by omega)
      simp [barLabels, none]

omit few

variable (b)

theorem texts_numbers : texts (annotationItems (defaultPlot b k) (Figure.pointsToPixels {} 10)) = barNumbers b k :=
  texts_map_text _ _

theorem texts_below (size : Double) :
    ∀ t ∈ texts (Edge.below.items (defaultPlot b k) ⟨42 + k.toNat, 1492, 3558, 1638⟩ size),
      t.across = .center ∧ t.down = .top := by
  have outside : Edge.isInward (defaultPlot b k) ⟨42 + k.toNat, 1492, 3558, 1638⟩ = false := by
    simp [Edge.isInward, Area.overlaps, defaultPlot, barArea]
  rw [Edge.texts_items _ _ _ _ outside]
  intro t mem
  obtain ⟨tick, -, rfl⟩ := List.mem_map.1 mem
  exact ⟨rfl, rfl⟩

/-- Before the gaps are left free, a bar covers the row of its slot. -/
theorem row_mem_bar {b : Breakdown} (few : b.bars.length < 2 ^ 32) (several : 2 ≤ b.bars.length) {rank : Nat}
    (inside : rank < b.bars.length) (bar : Bar) :
    ((defaultPlot b k).bar rank bar).top - (defaultPlot b k).gap ≤ (defaultPlot b k).row rank ∧
      (defaultPlot b k).row rank ≤ ((defaultPlot b k).bar rank bar).bottom + (defaultPlot b k).gap := by
  have last := lastSlot_pos few several
  have between := SlotAxis.center_mem_slot (a := (defaultPlot b k).slots) last (by simp [slots_default])
    (by simp [slots_default]) (Plot.slotOf_le (p := defaultPlot b k) few inside)
  simp only [Plot.bar, Plot.row, Area.ordered, Area.ofCorners, Area.keepArea, Area.keepRow]
  simp only [defaultPlot] at *
  omega

/-! The lines below the bars. -/

/-- The height of a page with some summary lines. -/
def pageHeight (lines : Nat) : Nat := max 2100 (1680 + (825 * lines + 511) / 12)

theorem canvasSize_default {lines : Nat} (few : lines ≤ 8) :
    Figure.canvasSize {} lines = .ok (3600, .ofNat (pageHeight lines)) := by
  have all : ∀ n < 9, Figure.canvasSize {} n = .ok (3600, .ofNat (pageHeight n)) := by decide +kernel
  exact all lines (by omega)

theorem coordinate_pageHeight {lines : Nat} (few : lines ≤ 8) :
    coordinate (.ofNat (pageHeight lines)) = pageHeight lines := by
  have all : ∀ n < 9, coordinate (.ofNat (pageHeight n)) = pageHeight n := by decide
  exact all lines (by omega)

/-- The lines of a summary, from the row below the bars' part of the page down. -/
def summaryTexts (s : Summary) : List Lettering :=
  s.lines.zipIdx.map fun (line, i) =>
    ⟨line.text, ⟨42, 1680 + (275 * i + 2) / 4⟩, .left, .top, .monospaced, Figure.pointsToPixels {} 11⟩

theorem summaryPlace_default {i : Nat} (less : i < 8) (right bottom : Int) :
    summaryPlace {} ⟨0, 1680, right, bottom⟩ i = ⟨42, 1680 + (275 * i + 2) / 4⟩ := by
  have margin : (Figure.pointsToPixels {} 10).round.toInt32 = 42 := by decide +kernel
  have rows : ∀ i < 8, (.ofNat i * Figure.lineHeight {} : Double).round.toInt32 = (275 * i + 2) / 4 := by
    decide +kernel
  simp only [summaryPlace, margin, rows i less, zero_add]

theorem isPlace_summary {lines : Nat} (few : lines ≤ 8) (right bottom : Int) :
    ((List.range lines).all fun i => (summaryPlace {} ⟨0, 1680, right, bottom⟩ i).isPlace) = true := by
  rw [List.all_eq_true]
  intro i mem
  have less : i < lines := List.mem_range.1 mem
  rw [summaryPlace_default (by omega)]
  simp only [Point.isPlace, isCoordinate, Bool.and_eq_true, decide_eq_true_eq]
  omega

theorem texts_summary {s : Summary} (few : s.lines.length ≤ 8) :
    texts (summaryItems {} ⟨0, 1680, 3600, pageHeight s.lines.length⟩ s) = summaryTexts s := by
  rw [summaryItems, texts_map_text]
  apply List.map_congr_left
  rintro ⟨line, i⟩ mem
  have within : i < s.lines.length := (List.getElem?_eq_some_iff.1 (List.mem_zipIdx_iff_getElem?.1 mem)).1
  have room : 1680 + ((275 * i + 2) / 4 : Int) ≤ pageHeight s.lines.length := by
    simp only [pageHeight]
    omega
  simp only [summaryPlace_default (show i < 8 by omega), Area.keep, Area.keepColumn, Area.keepRow, Lettering.mk.injEq,
    Point.mk.injEq, true_and, and_true]
  omega

theorem lines_ofReport (r : Report) : (Summary.ofReport r).lines.length ≤ 8 :=
  List.length_filterMap_le _ _

end

/-! What a chart comes to on a page of the default figure whose strip for labels has `k` columns. -/

section

variable (c : Chart) (k : UInt32)

def titleText : Lettering := ⟨c.title, ⟨1800, 47⟩, .center, .top, .proportional, Figure.pointsToPixels {} 12⟩

def countText : Lettering :=
  ⟨"Cycle Count", ⟨42 + k.toNat + (3558 - (42 + k.toNat) : Int).tdiv 2, 1638⟩, .center, .bottom, .proportional,
    Figure.pointsToPixels {} 10⟩

/-- The page fills one area for each bar, around the row of its slot unless the slot is alone. It has every text of the
chart once, but for the label of a single bar. -/
structure Shows (page : Page) : Prop where
  areas_eq : ∃ bars : List Area,
    areas page.items = (⟨0, 0, 3600, pageHeight c.summary.lines.length⟩, .white) :: bars.map (·, .skyBlue) ∧
      bars.Perm (c.breakdown.bars.zipIdx.map fun (bar, rank) => (defaultPlot c.breakdown k).bar rank bar)
  row_mem : 2 ≤ c.breakdown.bars.length → ∀ rank bar, c.breakdown.bars[rank]? = some bar →
    ((defaultPlot c.breakdown k).bar rank bar).top - (defaultPlot c.breakdown k).gap ≤
        (defaultPlot c.breakdown k).row rank ∧
      (defaultPlot c.breakdown k).row rank ≤
        ((defaultPlot c.breakdown k).bar rank bar).bottom + (defaultPlot c.breakdown k).gap
  texts_eq : ∃ counts : List Lettering,
    texts page.items =
      titleText c :: countText k ::
        (if c.breakdown.bars.length = 1 then [] else (barLabels c.breakdown k).reverse) ++ counts ++
        barNumbers c.breakdown k ++ summaryTexts c.summary ∧
      ∀ t ∈ counts, t.across = .center ∧ t.down = .top

/-- What is drawn has a size, slots for its bars and room for its labels. -/
theorem parts_of_page {c : Chart} {f : Figure} {page : Page} (drawn : c.page f = .ok page) :
    f.canvasSize c.summary.lines.length = .ok (page.width, page.height) ∧ c.breakdown.bars.length < 2 ^ 32 ∧
      ∃ layout, Layout.ofFigure f c.breakdown.longestLabel = .ok layout := by
  obtain ⟨⟨width, height⟩, sized, drawn⟩ := bind_eq_ok drawn
  obtain ⟨_, counted, drawn⟩ := bind_eq_ok drawn
  obtain ⟨layout, laid, drawn⟩ := bind_eq_ok drawn
  obtain ⟨_, -, drawn⟩ := bind_eq_ok drawn
  cases drawn
  exact ⟨sized, Breakdown.hasSlots_iff.1 (ensure_eq_ok_iff.1 counted), layout, laid⟩

theorem few_of_page {c : Chart} {f : Figure} {page : Page} (drawn : c.page f = .ok page) :
    c.breakdown.bars.length < 2 ^ 32 := (parts_of_page drawn).2.1

variable {c k} (fits : Figure.labelWidth {} c.breakdown.longestLabel = .ok k) (short : c.summary.lines.length ≤ 8)
include fits short

theorem page_default (few : c.breakdown.bars.length < 2 ^ 32) : ∃ page, c.page {} = .ok page ∧
    page.items =
      [.area ⟨0, 0, 3600, pageHeight c.summary.lines.length⟩ .white, .text (titleText c), .text (countText k)] ++
        gridItems (defaultPlot c.breakdown k) ++
        Edge.left.items (defaultPlot c.breakdown k) ⟨42, 92, 42 + k.toNat, 1492⟩ (Figure.pointsToPixels {} 10) ++
        Edge.below.items (defaultPlot c.breakdown k) ⟨42 + k.toNat, 1492, 3558, 1638⟩ (Figure.pointsToPixels {} 10) ++
        barItems (defaultPlot c.breakdown k) ++
        annotationItems (defaultPlot c.breakdown k) (Figure.pointsToPixels {} 10) ++
        summaryItems {} ⟨0, 1680, 3600, pageHeight c.summary.lines.length⟩ c.summary := by
  have width : coordinate 3600 = 3600 := rfl
  have upper : coordinate (Figure.chartHeight {}) = 1680 := by decide +kernel
  have slots := Breakdown.hasSlots_iff.2 few
  simp only [Chart.page, canvasSize_default short, Layout.ofFigure_default fits, width, coordinate_pageHeight short,
    upper, slots, isPlace_summary short, ensure, if_true, bind, Except.bind, pure, Except.pure]
  refine ⟨_, rfl, ?_⟩
  simp [axisName, titleText, countText, defaultPlot, Area.width]

theorem shows_page {page : Page} (drawn : c.page {} = .ok page) : Shows c k page := by
  obtain ⟨least, most⟩ := labelWidth_mem fits
  have few := few_of_page drawn
  obtain ⟨page', drawn', items⟩ := page_default fits short few
  cases drawn.symm.trans drawn'
  refine ⟨?_, ?_, ?_⟩
  · refine ⟨(barAreas (defaultPlot c.breakdown k)).mergeSort before, ?_, List.mergeSort_perm _ _⟩
    rw [items]
    simp
  · intro several rank bar here
    exact row_mem_bar k few several (List.getElem?_eq_some_iff.1 here).1 bar
  · refine ⟨_, ?_, texts_below c.breakdown k (Figure.pointsToPixels {} 10)⟩
    rw [items]
    simp [texts_left k few most, texts_summary short, texts_numbers]

end

/-- Nothing is written beside a single bar on the side of the labels. -/
theorem Shows.across_ne_right {c : Chart} {k : UInt32} {page : Page} (shows : Shows c k page)
    (single : c.breakdown.bars.length = 1) : ∀ t ∈ texts page.items, t.across ≠ .right := by
  obtain ⟨counts, eq, centered⟩ := shows.texts_eq
  rw [eq, if_pos single]
  intro t mem
  simp only [List.cons_append, List.nil_append, List.mem_cons, List.mem_append, barNumbers, summaryTexts,
    List.mem_map] at mem
  rcases mem with rfl | rfl | (mem | ⟨bar, -, rfl⟩) | ⟨line, -, rfl⟩
  · exact Across.noConfusion
  · exact Across.noConfusion
  · rw [(centered t mem).1]
    exact Across.noConfusion
  · exact Across.noConfusion
  · exact Across.noConfusion

/-- A report is drawn just if its counts can be numbered in 32 bits. -/
theorem exists_page_ofReport_iff (identifier : String) (r : Report) {k : UInt32}
    (fits : Figure.labelWidth {} (Breakdown.ofCounts r.counts).longestLabel = .ok k) :
    (∃ page, (Chart.ofReport identifier r).page {} = .ok page) ↔ r.counts.entries.length < 2 ^ 32 := by
  rw [← Breakdown.length_ofCounts]
  constructor
  · rintro ⟨page, drawn⟩
    exact few_of_page drawn
  · intro few
    obtain ⟨page, drawn, -⟩ := page_default (c := Chart.ofReport identifier r) fits (lines_ofReport r) few
    exact ⟨page, drawn⟩

/-- A report that is drawn is drawn in full, except for the label of a single bar. -/
theorem page_ofReport (identifier : String) (r : Report) {k : UInt32}
    (fits : Figure.labelWidth {} (Breakdown.ofCounts r.counts).longestLabel = .ok k) :
    ((∃ page, (Chart.ofReport identifier r).page {} = .ok page) ↔ r.counts.entries.length < 2 ^ 32) ∧
      (∀ page, (Chart.ofReport identifier r).page {} = .ok page → Shows (Chart.ofReport identifier r) k page) ∧
      (Breakdown.ofCounts r.counts).bars.Perm (r.counts.entries.map fun (label, count) => ⟨label, count⟩) := by
  refine ⟨exists_page_ofReport_iff identifier r fits, ?_, List.mergeSort_perm _ _⟩
  intro page drawn
  exact shows_page (c := Chart.ofReport identifier r) fits (lines_ofReport r) drawn

/-- A report with some counts and small totals. -/
def reportOf (counts : LabelCounts) : Report where
  counts := counts
  blobs := none
  blockExecutions := none
  transactions := none
  evmGas := none
  proofs := none
  gas := 7
  instructions := 1
  syscalls := 0

def pair : LabelCounts := ⟨[("a", 5), ("b", 3)], by decide⟩

theorem bars_pair : (Breakdown.ofCounts pair).bars = [⟨"a", 5⟩, ⟨"b", 3⟩] := List.mergeSort_of_pairwise (by decide)

theorem labelWidth_pair : Figure.labelWidth {} (Breakdown.ofCounts pair).longestLabel = .ok 67 := by
  rw [Breakdown.longestLabel, bars_pair]
  decide +kernel

theorem page_ofReport_pair :
    Figure.labelWidth {} (Breakdown.ofCounts pair).longestLabel = .ok 67 ∧
      ∃ page, (Chart.ofReport "pair.json" (reportOf pair)).page {} = .ok page ∧
        Shows (Chart.ofReport "pair.json" (reportOf pair)) 67 page := by
  obtain ⟨drawn, shows, -⟩ := page_ofReport "pair.json" (reportOf pair) labelWidth_pair
  obtain ⟨page, drawn⟩ := drawn.2 (show 2 < 2 ^ 32 by norm_num)
  exact ⟨labelWidth_pair, page, drawn, shows page drawn⟩

def single : LabelCounts := ⟨[("a", 5)], by decide⟩

theorem bars_single : (Breakdown.ofCounts single).bars = [⟨"a", 5⟩] := List.mergeSort_of_pairwise (by decide)

theorem labelWidth_single : Figure.labelWidth {} (Breakdown.ofCounts single).longestLabel = .ok 67 := by
  rw [Breakdown.longestLabel, bars_single]
  decide +kernel

/-- Not every bar is called by its label. -/
theorem not_all_labelled :
    ¬∀ (identifier : String) (r : Report) (k : UInt32),
      Figure.labelWidth {} (Breakdown.ofCounts r.counts).longestLabel = .ok k →
        ∃ page, (Chart.ofReport identifier r).page {} = .ok page ∧
          ∀ bar ∈ (Breakdown.ofCounts r.counts).bars,
            ∃ t ∈ texts page.items, t.content = bar.label ∧ t.across = .right := by
  intro labelled
  obtain ⟨page, drawn, right⟩ := labelled "single.json" (reportOf single) 67 labelWidth_single
  have shows := shows_page (c := Chart.ofReport "single.json" (reportOf single)) labelWidth_single (lines_ofReport _)
    drawn
  obtain ⟨t, mem, -, across⟩ := right ⟨"a", 5⟩ (by rw [reportOf, bars_single]; exact List.mem_singleton_self _)
  exact shows.across_ne_right (congrArg List.length bars_single) t mem across

end CycleChart.Drawing
