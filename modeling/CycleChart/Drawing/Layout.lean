import CycleChart.Canvas.Area
import CycleChart.Figure

namespace CycleChart.Drawing

open Binary (Double)

/-- Four cuts in ascending order, which make three columns or rows. -/
structure Cuts where
  first : Int
  second : Int
  third : Int
  fourth : Int

def Cuts.sorted (a b c d : Int) : Cuts :=
  let lower := max (min a b) (min c d)
  let upper := min (max a b) (max c d)
  ⟨min (min a b) (min c d), min lower upper, max lower upper, max (max a b) (max c d)⟩

/-- Where the parts of the upper region go. There may be a strip for labels on each side of the bars. -/
structure Layout where
  title : Point
  plot : Area
  above : Option Area
  left : Option Area
  below : Option Area
  right : Option Area

namespace Layout

/-- The space above and below the title. Letters of a negative height have all of it. -/
def titlePadding (f : Figure) : Int := if f.titleHeight < 0 then 5 else min (f.titleHeight.tdiv 2) 5

/-- The margin around the parts. One that takes 32 bits is none. -/
def margin (f : Figure) : Int := max 0 (coordinate f.marginPixels)

/-- What is left inside the margin, below the title. -/
def inner (f : Figure) : Area :=
  ⟨margin f, margin f + 2 * titlePadding f + f.titleHeight,
    coordinate f.pixelSize.1 - margin f, coordinate f.chartHeight - margin f⟩

def strip (a : Area) : Option Area := if a.isEmpty then none else some a

/-- The layout for labels of up to so many characters. Labels below the bars whose height is negative lie over the
bars. -/
def ofFigure (f : Figure) (characters : Nat) : Except Overflow Layout := do
  let labels ← f.labelWidth characters
  let rows := coordinate f.labelHeight
  let area := inner f
  let x := Cuts.sorted area.left area.right (area.left + coordinate labels) area.right
  let y := Cuts.sorted area.top area.bottom area.top (area.bottom - max 0 rows)
  ensure .coordinates <| List.all [area.left, area.top, area.right, area.bottom, area.width, area.height,
    area.left + coordinate labels, area.bottom - max 0 rows, y.third + min 0 rows] isCoordinate
  return {
    title := ⟨area.left + area.width.tdiv 2, margin f + titlePadding f⟩
    plot := ⟨x.second, y.second, x.third, y.third⟩
    above := strip ⟨x.second, y.first, x.third, y.second⟩
    left := strip ⟨x.first, y.second, x.second, y.third⟩
    below :=
      if rows < 0 then some ⟨x.second, y.third + rows, x.third, y.third⟩
      else strip ⟨x.second, y.third, x.third, y.fourth⟩
    right := strip ⟨x.third, y.second, x.fourth, y.third⟩ }

end Layout
end CycleChart.Drawing
