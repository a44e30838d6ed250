import CycleChart.Proofs.Drawing.Faithful
import CycleChart.Proofs.Drawing.Sizes

namespace CycleChart

/-! Coordinates of sizes that take all 32 bits. -/

theorem coordinate_of_le {size : UInt32} (h : 2 ^ 31 ≤ size.toNat) : coordinate size = size.toNat - 2 ^ 32 := by
  have less := size.toNat_lt
  have cond : coordinate size = if 2 * size.toNat < 2 ^ 32 then (size.toNat : Int) else size.toNat - (2 ^ 32 : Nat) :=
    BitVec.toInt_eq_toNat_cond size.toBitVec
  rw [cond, if_neg (by omega)]
  norm_num

theorem coordinate_lt (size : UInt32) : coordinate size < 2 ^ 31 := by
  have less := size.toNat_lt
  rcases Nat.lt_or_ge size.toNat (2 ^ 31) with small | large
  · have same := coordinate_of_lt small
    omega
  · have wrapped := coordinate_of_le large
    omega

namespace Area

/-- A pixel of an area. -/
def Contains (a : Area) (p : Point) : Prop := a.left ≤ p.x ∧ p.x < a.right ∧ a.top ≤ p.y ∧ p.y < a.bottom

/-- The area of a whole canvas. -/
def ofSize (size : UInt32 × UInt32) : Area := ⟨0, 0, coordinate size.1, coordinate size.2⟩

/-- The part of an area above a row. -/
def above (a : Area) (row : Int) : Area := { a with bottom := row }

/-- The part of an area from a row on. -/
def below (a : Area) (row : Int) : Area := { a with top := row }

/-- Two areas share the pixels of a canvas: each pixel belongs to one of them and none to both. No other place belongs
to either. -/
structure Divide (size : UInt32 × UInt32) (a b : Area) : Prop where
  whole (p : Point) : a.Contains p ∨ b.Contains p ↔ 0 ≤ p.x ∧ p.x < size.1.toNat ∧ 0 ≤ p.y ∧ p.y < size.2.toNat
  apart (p : Point) : ¬(a.Contains p ∧ b.Contains p)

variable {size : UInt32 × UInt32} {row : UInt32}

theorem divide_of_lt (le : row.toNat ≤ size.2.toNat) (wide : size.1.toNat < 2 ^ 31) (high : size.2.toNat < 2 ^ 31) :
    Divide size ((ofSize size).above (coordinate row)) ((ofSize size).below (coordinate row)) := by
  have columns := coordinate_of_lt wide
  have rows := coordinate_of_lt high
  have cut := coordinate_of_lt (le.trans_lt high)
  constructor <;> intro p
  all_goals
    simp only [Contains, ofSize, above, below]
    omega

/-- A side of more pixels than coordinates can count loses its last pixel. -/
theorem not_divide_of_large (filled : 1 ≤ size.1.toNat ∧ 1 ≤ size.2.toNat)
    (large : 2 ^ 31 ≤ size.1.toNat ∨ 2 ^ 31 ≤ size.2.toNat) :
    ¬Divide size ((ofSize size).above (coordinate row)) ((ofSize size).below (coordinate row)) := by
  intro shared
  have wide := size.1.toNat_lt
  have high := size.2.toNat_lt
  have cut := coordinate_lt row
  rcases large with columns | rows
  · -- the right edge lies left of all columns, so even the first pixel is lost
    have wrapped := coordinate_of_le columns
    have corner := (shared.whole ⟨0, 0⟩).2 (by simp only; omega)
    simp only [Contains, ofSize, above, below] at corner
    omega
  · -- the last row is below every cut, and the lower edge lies above the page
    have wrapped := coordinate_of_le rows
    have last := (shared.whole ⟨0, (size.2.toNat : Int) - 1⟩).2 (by simp only; omega)
    simp only [Contains, ofSize, above, below] at last
    omega

/-- Cut at one of its rows, a canvas is shared as long as coordinates can count its columns and its rows. -/
theorem divide_iff (filled : 1 ≤ size.1.toNat ∧ 1 ≤ size.2.toNat) (le : row.toNat ≤ size.2.toNat) :
    Divide size ((ofSize size).above (coordinate row)) ((ofSize size).below (coordinate row)) ↔
      size.1.toNat < 2 ^ 31 ∧ size.2.toNat < 2 ^ 31 := by
  constructor
  · intro shared
    by_contra large
    exact not_divide_of_large filled (by omega) shared
  · rintro ⟨wide, high⟩
    exact divide_of_lt le wide high

end Area

open Drawing Area

namespace Figure

/-- The part of a canvas for the bars. -/
def chartRegion (f : Figure) (size : UInt32 × UInt32) : Area := (ofSize size).above (coordinate f.chartHeight)

/-- The part of a canvas for the summary. -/
def summaryRegion (f : Figure) (size : UInt32 × UInt32) : Area := (ofSize size).below (coordinate f.chartHeight)

end Figure

/-- A page starts as white. The summary is drawn last, in the region for it. -/
theorem Chart.page_regions {c : Chart} {f : Figure} {page : Page} (h : c.page f = .ok page) :
    page.items.head? = some (.area (ofSize (page.width, page.height)) .white) ∧
      summaryItems f (f.summaryRegion (page.width, page.height)) c.summary <:+ page.items := by
  obtain ⟨size, -, h⟩ := bind_eq_ok h
  obtain ⟨_, -, h⟩ := bind_eq_ok h
  obtain ⟨layout, -, h⟩ := bind_eq_ok h
  obtain ⟨_, -, h⟩ := bind_eq_ok h
  cases h
  exact ⟨rfl, _, rfl⟩

/-- The bars and what belongs to them end a margin before the region for them. -/
theorem Figure.inner_regions {f : Figure} {size : UInt32 × UInt32} (wide : size.1 = f.pixelSize.1) :
    (Layout.inner f).right = (f.chartRegion size).right - Layout.margin f ∧
      (Layout.inner f).bottom = (f.chartRegion size).bottom - Layout.margin f := by
  rw [chartRegion, above, ofSize, wide]
  exact ⟨rfl, rfl⟩

/-- Cut below the bars, a canvas has a region for the bars and one for the summary. They share it as long as
coordinates can count its columns and its rows. -/
theorem Figure.canvasSize_regions (f : Figure) {lines : Nat} {size : UInt32 × UInt32}
    (sized : f.canvasSize lines = .ok size) :
    1 ≤ f.pixelSize.2 ∧ f.chartHeight ≤ f.pixelSize.2 ∧ f.pixelSize.2 ≤ size.2 ∧
      f.pixelSize.1 = size.1 ∧ 1 ≤ size.1 ∧
      (Divide size (f.chartRegion size) (f.summaryRegion size) ↔
        size.1.toNat < 2 ^ 31 ∧ size.2.toNat < 2 ^ 31) ∧
      ((Layout.inner f).right = (f.chartRegion size).right - Layout.margin f ∧
        (Layout.inner f).bottom = (f.chartRegion size).bottom - Layout.margin f) ∧
      ∀ (c : Chart) (page : Page), c.summary.lines.length = lines → c.page f = .ok page →
        (page.width, page.height) = size ∧ page.items.head? = some (.area (ofSize size) .white) ∧
          summaryItems f (f.summaryRegion size) c.summary <:+ page.items := by
  obtain ⟨-, width, height⟩ := canvasSize_eq_ok_iff.1 sized
  obtain ⟨wide, high⟩ := f.one_le_pixelSize
  have chart := UInt32.le_iff_toNat_le.1 f.chartHeight_le
  have page : f.pixelSize.2.toNat ≤ size.2.toNat := height ▸ le_max_left _ _
  rw [← width] at wide
  refine ⟨UInt32.le_iff_toNat_le.2 high, f.chartHeight_le, UInt32.le_iff_toNat_le.2 page, width.symm,
    UInt32.le_iff_toNat_le.2 wide, divide_iff ⟨wide, high.trans page⟩ (chart.trans page), inner_regions width, ?_⟩
  rintro c page rfl drawn
  have same := Except.ok.inj ((parts_of_page drawn).1.symm.trans sized)
  exact ⟨same, same ▸ Chart.page_regions drawn⟩

/-- A page of the default figure for three lines is shared. -/
theorem Figure.canvasSize_regions_default :
    Figure.canvasSize {} 3 = .ok (3600, 2100) ∧
      Divide (3600, 2100) (Figure.chartRegion {} (3600, 2100)) (Figure.summaryRegion {} (3600, 2100)) := by
  have sized : Figure.canvasSize {} 3 = .ok (3600, 2100) := canvasSize_default (by decide)
  obtain ⟨-, -, -, -, -, shared, -⟩ := Figure.canvasSize_regions {} sized
  exact ⟨sized, shared.2 (by decide)⟩

/-- A figure of fifty million inches at 72 dots per inch. -/
def tallFigure : Figure := { dpi := 72, height := 50000000, chartRatio := 0.1 }

/-- Not every canvas whose size fits 32 bits is shared. -/
theorem not_all_divided :
    ¬∀ (f : Figure) (lines : Nat) (size : UInt32 × UInt32), f.canvasSize lines = .ok size →
      Divide size (f.chartRegion size) (f.summaryRegion size) := by
  intro all
  have sized : tallFigure.canvasSize 3 = .ok (864, 3600000000) := by decide +kernel
  exact not_divide_of_large (by decide) (.inr (by decide)) (all tallFigure 3 _ sized)

end CycleChart
