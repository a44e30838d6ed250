namespace CycleChart

/-- A place on a page: columns count from the left and rows from the top. -/
structure Point where
  x : Int
  y : Int
deriving DecidableEq

/-- A size as a coordinate. One that takes all 32 bits becomes negative. -/
def coordinate (size : UInt32) : Int := size.toInt32.toInt

def isCoordinate (x : Int) : Bool := -0x80000000 ≤ x && x < 0x80000000

theorem coordinate_of_lt {size : UInt32} (h : size.toNat < 0x80000000) : coordinate size = size.toNat := by
  have twice : 2 * size.toBitVec.toNat < 0x100000000 := by
    have : size.toBitVec.toNat = size.toNat := rfl
    omega
  exact BitVec.toInt_eq_toNat_of_lt twice

def Point.isPlace (p : Point) : Bool := isCoordinate p.x && isCoordinate p.y

/-- A thin straight line, drawn from its first end to its last. -/
inductive Stroke where
  | horizontal (y first last : Int)
  | vertical (x first last : Int)
deriving DecidableEq

namespace Stroke

def start : Stroke → Point
  | horizontal y first _ => ⟨first, y⟩
  | vertical x first _ => ⟨x, first⟩

def stop : Stroke → Point
  | horizontal y _ last => ⟨last, y⟩
  | vertical x _ last => ⟨x, last⟩

def reversed : Stroke → Stroke
  | horizontal y first last => horizontal y last first
  | vertical x first last => vertical x last first

end Stroke

/-- A part of a page. Its right column and its lower row do not belong to it. -/
structure Area where
  left : Int
  top : Int
  right : Int
  bottom : Int
deriving DecidableEq

namespace Area

def width (a : Area) : Int := a.right - a.left
def height (a : Area) : Int := a.bottom - a.top
def isEmpty (a : Area) : Bool := a.width ≤ 0 || a.height ≤ 0

/-- Whether two areas have a pixel in common. -/
def overlaps (a b : Area) : Bool :=
  max a.left b.left < min a.right b.right && max a.top b.top < min a.bottom b.bottom

/-- The column of the area that is nearest to a column. -/
def keepColumn (a : Area) (x : Int) : Int := max a.left (min x a.right)

def keepRow (a : Area) (y : Int) : Int := max a.top (min y a.bottom)

def keep (a : Area) (p : Point) : Point := ⟨a.keepColumn p.x, a.keepRow p.y⟩

def keepStroke (a : Area) : Stroke → Stroke
  | .horizontal y first last => .horizontal (a.keepRow y) (a.keepColumn first) (a.keepColumn last)
  | .vertical x first last => .vertical (a.keepColumn x) (a.keepRow first) (a.keepRow last)

def keepArea (a b : Area) : Area :=
  ⟨a.keepColumn b.left, a.keepRow b.top, a.keepColumn b.right, a.keepRow b.bottom⟩

/-- The area between two corners, given in any order. -/
def ofCorners (a b : Point) : Area := ⟨min a.x b.x, min a.y b.y, max a.x b.x, max a.y b.y⟩

/-- The area between the same corners with its edges in order. -/
def ordered (a : Area) : Area := ofCorners ⟨a.left, a.top⟩ ⟨a.right, a.bottom⟩

end Area
end CycleChart
