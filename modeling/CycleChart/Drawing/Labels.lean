import CycleChart.Drawing.Item
import CycleChart.Drawing.Plot
import CycleChart.Drawing.TextWidth
import CycleChart.Drawing.Ticks
import CycleChart.Text.AxisLabel

namespace CycleChart.Drawing

open Binary (Double)

/-- A mark on an axis and what it is called. -/
structure Tick where
  pixel : Int
  label : String

def Plot.countTicks (p : Plot) : List Tick :=
  (ticks p.breakdown.axisEnd 11).map fun value => ⟨p.counts.pixel value, Text.axisLabel value⟩

/-- The marks of the slots from the lowest up, each called by the label of its bar. -/
def Plot.slotTicks (p : Plot) : List Tick :=
  (List.range (p.breakdown.lastSlot.toNat + 1)).map fun slot =>
    let bar := p.breakdown.bars[p.breakdown.lastSlot.toNat - slot]?
    ⟨p.slots.center slot, (bar.map (·.label)).getD ""⟩

/-- Width of the column of labels right of the bars: the greatest one below twice the least. -/
def columnWidth (widths : List Int) : Int :=
  let least := max 1 (widths.min?.getD 1)
  (widths.filter (· < 2 * least)).max?.getD least

inductive Edge where
  | above
  | left
  | below
  | right
deriving DecidableEq

namespace Edge

def opposite : Edge → Edge
  | above => below
  | left => right
  | below => above
  | right => left

def range (p : Plot) : Edge → Int × Int
  | above | below => (min p.area.left (p.area.right - 1), max p.area.left (p.area.right - 1))
  | left | right => (min p.area.top (p.area.bottom - 1), max p.area.top (p.area.bottom - 1))

/-- The axis, which lies at the rim of its strip, toward the bars. -/
def axis (p : Plot) (strip : Area) (e : Edge) : Stroke :=
  let (first, last) := e.range p
  match e with
  | above => .horizontal (strip.bottom - 1) first last
  | left => .vertical (strip.right - 1) first last
  | below => .horizontal strip.top first last
  | right => .vertical strip.left first last

/-- A mark of some length on the axis, pointing away from the bars. -/
def mark (strip : Area) (length pixel : Int) : Edge → Stroke
  | above => .vertical pixel (strip.bottom - 1 - length) (strip.bottom - 1)
  | left => .horizontal pixel (strip.right - 1 - length) (strip.right - 1)
  | below => .vertical pixel strip.top (strip.top + length)
  | right => .horizontal pixel strip.left (strip.left + length)

/-- A mark in a strip that lies over the bars. -/
def inwardMark (strip : Area) (length pixel : Int) (e : Edge) : Stroke :=
  let stroke := e.opposite.mark strip length pixel
  match e with
  | above | left => stroke
  | below | right => stroke.reversed

def label (strip : Area) (length : Int) (size : Double) (t : Tick) : Edge → Lettering
  | above => ⟨t.label, ⟨t.pixel, strip.bottom - 2 * length⟩, .center, .bottom, .proportional, size⟩
  | left => ⟨t.label, ⟨strip.right - 2 * length, t.pixel⟩, .right, .center, .proportional, size⟩
  | below => ⟨t.label, ⟨t.pixel, strip.top + 2 * length⟩, .center, .top, .proportional, size⟩
  | right => ⟨t.label, ⟨strip.left + 2 * length, t.pixel⟩, .left, .center, .proportional, size⟩

/-- A label in a strip outside the bars. Right of the bars, labels narrower than their column end in it. -/
def outwardLabel (strip : Area) (length column : Int) (size : Double) (t : Tick) (e : Edge) : Lettering :=
  let label := e.label strip length size t
  if e = right ∧ textWidth size t.label < column then
    { label with place := ⟨label.place.x + column, label.place.y⟩, across := .right }
  else label

def ticks (p : Plot) : Edge → List Tick
  | above | below => p.countTicks
  | left | right => p.slotTicks

/-- Only labels on the right end in a column. -/
def column (p : Plot) (size : Double) : Edge → Int
  | right => columnWidth (p.slotTicks.map fun t => textWidth size t.label)
  | above | left | below => 0

def holds (p : Plot) (e : Edge) (t : Tick) : Bool :=
  let (first, last) := e.range p
  first ≤ t.pixel && t.pixel ≤ last

/-- Marks point toward the bars in a strip that lies over them. -/
def isInward (p : Plot) (strip : Area) : Bool := strip.overlaps p.area && p.tickLength ≠ 0

def tickItems (p : Plot) (strip : Area) (column : Int) (size : Double) (e : Edge) (t : Tick) : List Item :=
  let length := p.tickLength
  let (label, mark) :=
    if isInward p strip then (e.opposite.label strip length size t, e.inwardMark strip length t.pixel)
    else (e.outwardLabel strip length column size t, e.mark strip length t.pixel)
  .text label :: if length = 0 then [] else [.axisLine (strip.keepStroke mark)]

def items (p : Plot) (strip : Area) (size : Double) (e : Edge) : List Item :=
  let side := if isInward p strip then e.opposite else e
  let column := e.column p size
  .axisLine (strip.keepStroke (side.axis p strip)) ::
    ((e.ticks p).filter (e.holds p)).flatMap (e.tickItems p strip column size)

end Edge
end CycleChart.Drawing
