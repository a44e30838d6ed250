import CycleChart.Binary.Double
import CycleChart.Canvas.Paint

namespace CycleChart.Drawing

open Binary (Double)

inductive Family where
  | proportional
  | monospaced
deriving DecidableEq

def Family.name : Family → String
  | proportional => "sans-serif"
  | monospaced => "monospace"

/-- Which point across a text lies at its place. -/
inductive Across where
  | left
  | center
  | right
deriving DecidableEq

inductive Down where
  | top
  | center
  | bottom
deriving DecidableEq

structure Lettering where
  content : String
  place : Point
  across : Across
  down : Down
  family : Family
  size : Double
deriving DecidableEq

/-- How letters look: the dots that a text leaves, and what share of each is covered. -/
class Typeface where
  dots : Lettering → List (Point × Double)

namespace Typeface

/-- Letters that leave nothing, as those of size zero do in any typeface. -/
scoped instance blank : Typeface := ⟨fun _ => []⟩

end Typeface

/-- A thing drawn on a page. -/
inductive Item where
  | area (a : Area) (color : Color)
  | gridLine (s : Stroke)
  | axisLine (s : Stroke)
  | text (t : Lettering)
deriving DecidableEq

namespace Item

def ink : Item → Ink
  | area _ color => .full color
  | gridLine _ => .half .lightGray
  | axisLine _ => .full .black
  | text _ => .full .black

variable [Typeface]

def paint (c : Canvas) (i : Item) : Canvas :=
  match i with
  | area a color => c.fill color a
  | gridLine s => c.stroke i.ink s
  | axisLine s => c.stroke i.ink s
  | text t => (Typeface.dots t).foldl (fun c (p, share) => c.dot (.ofShare i.ink.color share) p) c

end Item

structure Page where
  width : UInt32
  height : UInt32
  items : List Item

namespace Page

variable [Typeface]

/-- The page in pixels, unless it is too large to be held. -/
def canvas (p : Page) : Except Overflow Canvas :=
  if p.width.toNat * p.height.toNat * 3 < 0x8000000000000000 then
    .ok (p.items.foldl Item.paint (.blank p.width p.height))
  else .error .canvasArea

end Page
end CycleChart.Drawing
