import CycleChart.Canvas.Area
import CycleChart.Chart.Breakdown
import CycleChart.Drawing.Axis

namespace CycleChart

open Binary (Double)

namespace Breakdown

def greatest (b : Breakdown) : Double := .ofNat b.maxCount.toNat

/-- Where the axis of the counts ends, with space for the number of the longest bar. -/
def axisEnd (b : Breakdown) : Double := if (0 : Double).lt b.greatest then b.greatest * 1.15 else 1

/-- The number of the last slot, which is that of the first bar. -/
def lastSlot (b : Breakdown) : UInt32 := .ofNat (b.bars.length - 1)

/-- Whether the slots can be counted, and no bar comes below the first of them. -/
def hasSlots (b : Breakdown) : Bool :=
  b.lastSlot.toNat + 1 < 0x100000000 && (List.range b.bars.length).all fun rank => .ofNat rank ≤ b.lastSlot

end Breakdown

namespace Drawing

structure Plot where
  area : Area
  breakdown : Breakdown

namespace Plot

def counts (p : Plot) : CountAxis := ⟨p.breakdown.axisEnd, p.area.left, p.area.right - 1⟩

def slots (p : Plot) : SlotAxis := ⟨p.breakdown.lastSlot.toNat, p.area.bottom - 1, p.area.top⟩

def slotOf (p : Plot) (rank : Nat) : Nat := (p.breakdown.lastSlot - .ofNat rank).toNat

/-- Rows left free above and below a bar: a tenth of its slot. -/
def gap (p : Plot) : Int :=
  let slot : Double := .ofInt p.area.height / .ofNat (max p.breakdown.bars.length 1)
  (slot * (1 - 0.8) / 2).round.toUInt32.toNat

def bar (p : Plot) (rank : Nat) (b : Bar) : Area :=
  let slot := p.slotOf rank
  let start := p.counts.pixel 0
  let stop := p.counts.pixel (.ofNat b.count.toNat)
  let whole := (p.area.keepArea ⟨stop, p.slots.start slot, start, p.slots.stop slot⟩).ordered
  ⟨whole.left, whole.top + p.gap, whole.right, whole.bottom - p.gap⟩

/-- Where the number beside a bar goes, a hundredth of the longest bar after it. -/
def annotation (p : Plot) (rank : Nat) (b : Bar) : Point :=
  let value := .ofNat b.count.toNat + p.breakdown.greatest * 0.01
  p.area.keep ⟨p.counts.pixel value, p.slots.center (p.slotOf rank)⟩

def tickLength (p : Plot) : Int := min 5 (0.05 * .ofInt (min p.area.width p.area.height) : Double).round.toInt32

end Plot
end Drawing
end CycleChart
