import CycleChart.Binary.Double

namespace CycleChart.Drawing

open Binary (Double Exact binary32)

/-- The pixel a share of the way from one to another. A thousandth makes up for shares that are rounded down. -/
def pixelAt (first last : Int) (share : Double) : Int :=
  let length := last - first
  if length = 0 then last
  else if 0 < length then first + (.ofInt length * share + 0.001 : Double).floor.toInt32
  else first + (.ofInt length * share - 0.001 : Double).ceil.toInt32

/-- An axis for counts from zero to `stop`. -/
structure CountAxis where
  stop : Double
  first : Int
  last : Int

def CountAxis.pixel (a : CountAxis) (value : Double) : Int := pixelAt a.first a.last (value / a.stop)

/-- An axis of equal slots, numbered from zero to `lastSlot`. -/
structure SlotAxis where
  lastSlot : Nat
  first : Int
  last : Int

namespace SlotAxis

/-- Pixels from one slot to the next. The quotient is taken in single precision. -/
def step (a : SlotAxis) : Int :=
  let length := binary32.nearest (.ofRat (a.last - a.first : Int))
  let slots := binary32.nearest (.ofRat (a.lastSlot + 1 : Nat))
  (binary32.nearest (length / slots)).round.clampTo (-0x80000000) 0x7FFFFFFF

/-- Where a slot starts. One that is alone has no place of its own. -/
def start (a : SlotAxis) (slot : Nat) : Int :=
  if a.lastSlot = 0 then (a.last - a.step - a.first).tdiv 2
  else pixelAt a.first (a.last - a.step) (.ofNat slot / .ofNat a.lastSlot)

def stop (a : SlotAxis) (slot : Nat) : Int := if slot < a.lastSlot then a.start (slot + 1) else a.last

def center (a : SlotAxis) (slot : Nat) : Int :=
  if slot < a.lastSlot then (a.start slot + a.start (slot + 1)).tdiv 2 else a.start slot + a.step.tdiv 2

end SlotAxis
end CycleChart.Drawing
