import CycleChart.Binary.Double

namespace CycleChart

structure Color where
  red : UInt8
  green : UInt8
  blue : UInt8
deriving DecidableEq

namespace Color

def white : Color := ⟨255, 255, 255⟩
def black : Color := ⟨0, 0, 0⟩
def skyBlue : Color := ⟨135, 206, 235⟩
def lightGray : Color := ⟨176, 176, 176⟩

end Color

/-- A colour and how much of it covers what lies below, in parts of 256. -/
structure Ink where
  color : Color
  opacity : Nat
deriving DecidableEq

namespace Ink

def full (c : Color) : Ink := ⟨c, 256⟩
def half (c : Color) : Ink := ⟨c, 128⟩

def ofShare (c : Color) (share : Binary.Double) : Ink := ⟨c, (256 * share).floor.toUInt32.toNat⟩

def isFull (i : Ink) : Bool := 256 ≤ i.opacity

/-- One channel moved toward another by parts of 256. What is moved is rounded down. -/
def blendChannel (parts : Nat) (below above : UInt8) : UInt8 :=
  if below ≤ above then
    .ofNat (below.toNat + (above.toNat - below.toNat) * parts / 256)
  else
    .ofNat (below.toNat - (below.toNat - above.toNat) * parts / 256)

def blend (i : Ink) (below : Color) : Color where
  red := blendChannel i.opacity below.red i.color.red
  green := blendChannel i.opacity below.green i.color.green
  blue := blendChannel i.opacity below.blue i.color.blue

/-- A mixture in parts of 256, rounded down. Toward a darker channel it can be one less than what `blendChannel`
leaves. -/
def mixChannel (parts : Nat) (below above : UInt8) : UInt8 :=
  .ofNat ((below.toNat * (256 - parts) + above.toNat * parts) / 256)

def mix (i : Ink) (below : Color) : Color where
  red := mixChannel i.opacity below.red i.color.red
  green := mixChannel i.opacity below.green i.color.green
  blue := mixChannel i.opacity below.blue i.color.blue

/-- How many pixels of a row are covered in blocks of eight. At least one pixel is left to be covered alone. -/
def blockColumns (columns : Nat) : Nat := (columns - 1) / 8 * 8

/-- What an area or a line leaves of what lies below. Pixels in blocks are mixed, the others are blended. -/
def cover (i : Ink) (columns column : Nat) (below : Color) : Color :=
  if i.isFull then i.color
  else if column < blockColumns columns then i.mix below
  else i.blend below

/-- What a single dot leaves of what lies below. -/
def dotOver (i : Ink) (below : Color) : Color := if 255 ≤ i.opacity then i.color else i.blend below

end Ink
end CycleChart
