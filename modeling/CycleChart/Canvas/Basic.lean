import CycleChart.Canvas.Bounds
import CycleChart.Canvas.Color

namespace CycleChart

/-- Pixels in rows from the top, each row from the left. -/
structure Canvas where
  width : UInt32
  height : UInt32
  pixels : Array Color
  size_eq : pixels.size = height.toNat * width.toNat
deriving DecidableEq

namespace Canvas

def background : Color := .white

def blank (width height : UInt32) : Canvas where
  width := width
  height := height
  pixels := Array.replicate (height.toNat * width.toNat) background
  size_eq := Array.size_replicate

theorem place_lt {columns rows x y : Nat} (hx : x < columns) (hy : y < rows) :
    y * columns + x < rows * columns :=
  calc y * columns + x
    _ < y * columns + columns := Nat.add_lt_add_left hx _
    _ = (y + 1) * columns := (Nat.succ_mul y columns).symm
    _ ≤ rows * columns := Nat.mul_le_mul_right _ hy

def pixelAt (c : Canvas) (x y : Nat) (hx : x < c.width.toNat) (hy : y < c.height.toNat) : Color :=
  have inside : y * c.width.toNat + x < c.pixels.size := c.size_eq ▸ place_lt hx hy
  c.pixels[y * c.width.toNat + x]

def pixel? (c : Canvas) (x y : UInt32) : Option Color :=
  if h : x.toNat < c.width.toNat ∧ y.toNat < c.height.toNat then some (c.pixelAt x.toNat y.toNat h.1 h.2)
  else none

/-- The first and the last column of a row that are not background. -/
def rowEnds (c : Canvas) (y : Nat) (hy : y < c.height.toNat) : Option (UInt32 × UInt32) :=
  c.width.toNat.fold (fun x hx ends =>
    if c.pixelAt x y hx hy = background then ends
    else
      match ends with
      | none => some (.ofNat x, .ofNat x)
      | some (first, _) => some (first, .ofNat x))
    none

/-- The least rectangle that holds every pixel that is not background. -/
def contentBounds (c : Canvas) : Option Bounds :=
  if c.width = 0 then none
  else
    c.height.toNat.fold (fun y hy found =>
      match c.rowEnds y hy, found with
      | none, _ => found
      | some (first, last), none => some (.ofRow first last (.ofNat y))
      | some (first, last), some b => some (b.addRow first last (.ofNat y)))
      none

/-- The part of a canvas inside a rectangle. -/
def cut (c : Canvas) (b : Bounds) : Except Overflow Canvas := do
  let width ← b.width
  let height ← b.height
  return {
    width := width
    height := height
    pixels := Array.ofFn fun i : Fin (height.toNat * width.toNat) =>
      let x := b.left + .ofNat (i.val % width.toNat)
      let y := b.top + .ofNat (i.val / width.toNat)
      (c.pixel? x y).getD background
    size_eq := Array.size_ofFn }

/-- The canvas without its empty border, but for some padding. A blank one stays whole. -/
def crop (c : Canvas) (padding : UInt32) : Except Overflow Canvas :=
  match c.contentBounds with
  | none => .ok c
  | some b => c.cut (b.padded padding c.width c.height)

end Canvas
end CycleChart
