import CycleChart.Chart.Basic
import CycleChart.Drawing.Labels
import CycleChart.Drawing.Layout

namespace CycleChart

open Binary (Double)

namespace Drawing

/-- The name of the count axis, at the outer rim of its strip. -/
def axisName (size : Double) (strip : Area) (e : Edge) : List Item :=
  let middle := strip.left + strip.width.tdiv 2
  let name (y : Int) (down : Down) : List Item :=
    [.text ⟨"Cycle Count", ⟨middle, y⟩, .center, down, .proportional, size⟩]
  match e with
  | .above => name strip.top .top
  | .below => name strip.bottom .bottom
  | .left | .right => []

def gridItems (p : Plot) : List Item :=
  p.countTicks.map fun t => .gridLine (.vertical t.pixel (p.area.bottom - 1) p.area.top)

/-- From the top down, then by the lower edge, the left one and the right one. -/
def before (a b : Area) : Bool :=
  decide (a.top < b.top) || a.top = b.top &&
    (decide (a.bottom < b.bottom) || a.bottom = b.bottom &&
      (decide (a.left < b.left) || a.left = b.left && a.right ≤ b.right))

def barAreas (p : Plot) : List Area := p.breakdown.bars.zipIdx.map fun (b, rank) => p.bar rank b

def barItems (p : Plot) : List Item := ((barAreas p).mergeSort before).map (.area · .skyBlue)

def annotationItems (p : Plot) (size : Double) : List Item :=
  p.breakdown.bars.zipIdx.map fun (b, rank) =>
    .text ⟨b.annotation, p.annotation rank b, .left, .center, .proportional, size⟩

/-- Where a line of the summary starts, counted from the corner of a region. -/
def summaryPlace (f : Figure) (region : Area) (index : Nat) : Point :=
  ⟨region.left + (f.pointsToPixels f.margin).round.toInt32,
    region.top + (.ofNat index * f.lineHeight : Double).round.toInt32⟩

def summaryItems (f : Figure) (region : Area) (s : Summary) : List Item :=
  s.lines.zipIdx.map fun (line, index) =>
    .text ⟨line.text, region.keep (summaryPlace f region index), .left, .top, .monospaced,
      f.pointsToPixels f.summarySize⟩

end Drawing

open Drawing

/-- The page of a chart: the title and the bars above, the summary below. -/
def Chart.page (c : Chart) (f : Figure) : Except Overflow Page := do
  let (width, height) ← f.canvasSize c.summary.lines.length
  ensure .slots c.breakdown.hasSlots
  let layout ← Layout.ofFigure f c.breakdown.longestLabel
  let plot : Plot := ⟨layout.plot, c.breakdown⟩
  let size := f.pointsToPixels f.labelSize
  let title : Lettering :=
    ⟨c.title, layout.title, .center, .top, .proportional, f.pointsToPixels f.titleSize⟩
  let whole : Area := ⟨0, 0, coordinate width, coordinate height⟩
  let lower : Area := ⟨0, coordinate f.chartHeight, whole.right, whole.bottom⟩
  ensure .coordinates ((List.range c.summary.lines.length).all fun index => (summaryPlace f lower index).isPlace)
  let on (strip : Option Area) (items : Area → List Item) : List Item := strip.toList.flatMap items
  return {
    width := width
    height := height
    items :=
      [.area whole .white, .text title] ++
      on layout.above (axisName size · .above) ++ on layout.below (axisName size · .below) ++
      gridItems plot ++
      on layout.above (Edge.items plot · size .above) ++ on layout.left (Edge.items plot · size .left) ++
      on layout.below (Edge.items plot · size .below) ++ on layout.right (Edge.items plot · size .right) ++
      barItems plot ++ annotationItems plot size ++ summaryItems f lower c.summary }

variable [Typeface]

/-- The picture of a chart, without the empty border of its page. -/
def Chart.picture (c : Chart) (f : Figure) : Except Overflow Canvas := do
  let page ← c.page f
  let canvas ← page.canvas
  canvas.crop (f.inchesToPixels f.padding)

end CycleChart
