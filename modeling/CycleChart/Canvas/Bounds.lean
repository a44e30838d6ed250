import CycleChart.Overflow

namespace CycleChart

/-- A rectangle of pixels by its outermost columns and rows, which belong to it. -/
structure Bounds where
  left : UInt32
  top : UInt32
  right : UInt32
  bottom : UInt32
deriving DecidableEq

namespace Bounds

/-- The sum, or the greatest number of 32 bits. -/
def addUpTo (a b : UInt32) : UInt32 := .ofNat (min (a.toNat + b.toNat) 0xFFFFFFFF)

def subDownTo (a b : UInt32) : UInt32 := .ofNat (a.toNat - b.toNat)

theorem toNat_addUpTo (a b : UInt32) : (addUpTo a b).toNat = min (a.toNat + b.toNat) 0xFFFFFFFF := by
  unfold addUpTo
  rw [UInt32.toNat_ofNat_of_lt']
  have : UInt32.size = 4294967296 := rfl
  omega

theorem toNat_subDownTo (a b : UInt32) : (subDownTo a b).toNat = a.toNat - b.toNat := by
  unfold subDownTo
  rw [UInt32.toNat_ofNat_of_lt']
  have := a.toNat_lt
  have : UInt32.size = 4294967296 := rfl
  omega

/-- The rectangle with a border, as far as it lies on a canvas of the given size. -/
def padded (b : Bounds) (padding width height : UInt32) : Bounds where
  left := subDownTo b.left padding
  top := subDownTo b.top padding
  right := min (addUpTo b.right padding) (subDownTo width 1)
  bottom := min (addUpTo b.bottom padding) (subDownTo height 1)

/-- How many columns or rows lie from one to another, both of them counted. -/
def span (first last : UInt32) : Except Overflow UInt32 :=
  if first ≤ last then addSizes .contentSize (last - first) 1 else .error .contentSize

def width (b : Bounds) : Except Overflow UInt32 := span b.left b.right
def height (b : Bounds) : Except Overflow UInt32 := span b.top b.bottom

def ofRow (first last y : UInt32) : Bounds := ⟨first, y, last, y⟩

/-- The least rectangle that also holds a part of a lower row. -/
def addRow (b : Bounds) (first last y : UInt32) : Bounds := ⟨min b.left first, b.top, max b.right last, y⟩

end Bounds
end CycleChart
