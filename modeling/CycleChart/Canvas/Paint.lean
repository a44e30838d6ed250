import CycleChart.Canvas.Area
import CycleChart.Canvas.Basic

namespace CycleChart

namespace Canvas

/-- Changes the pixels of some rows from the place `start` on, each by its column after that one. -/
def changeRows (change : Nat → Color → Color) (stride start columns rows : Nat) (pixels : Array Color) :
    Array Color :=
  rows.fold (fun row _ pixels =>
    columns.fold (fun column _ pixels => pixels.modify (start + row * stride + column) (change column)) pixels)
    pixels

theorem size_changeRows (change : Nat → Color → Color) (stride start columns rows : Nat) (pixels : Array Color) :
    (changeRows change stride start columns rows pixels).size = pixels.size := by
  have columns_size (first : Nat) (a : Array Color) :
      (columns.fold (fun column _ pixels => pixels.modify (first + column) (change column)) a).size = a.size := by
    induction columns with
    | zero => rfl
    | succ n ih => rw [Nat.fold_succ, Array.size_modify, ih]
  unfold changeRows
  induction rows with
  | zero => rfl
  | succ n ih => rw [Nat.fold_succ, columns_size, ih]

/-- Changes the pixels of an area that lie on the canvas, each by how many columns do and which of them it is in. -/
def change (c : Canvas) (paint : (columns column : Nat) → Color → Color) (a : Area) : Canvas :=
  let left := a.ordered.left.toNat
  let right := min a.ordered.right.toNat c.width.toNat
  let top := a.ordered.top.toNat
  let bottom := min a.ordered.bottom.toNat c.height.toNat
  let rows := if right ≤ left then 0 else bottom - top
  let stride := c.width.toNat
  { c with
    pixels := changeRows (paint (right - left)) stride (top * stride + left) (right - left) rows c.pixels
    size_eq := (size_changeRows ..).trans c.size_eq }

def fill (c : Canvas) (color : Color) (a : Area) : Canvas := c.change (fun _ _ _ => color) a

def dot (c : Canvas) (ink : Ink) (p : Point) : Canvas :=
  c.change (fun _ _ => ink.dotOver) ⟨p.x, p.y, p.x + 1, p.y + 1⟩

/-- Draws a line. It ends one pixel after its last end, so one drawn to the left or upward lacks both ends; only
an opaque vertical line has them either way. -/
def stroke (c : Canvas) (ink : Ink) : Stroke → Canvas
  | .horizontal y first last => c.change ink.cover ⟨first, y, last + 1, y + 1⟩
  | .vertical x first last =>
    if ink.isFull then c.change ink.cover ⟨x, min first last, x + 1, max first last + 1⟩
    else c.change ink.cover ⟨x, first, x + 1, last + 1⟩

end Canvas
end CycleChart
