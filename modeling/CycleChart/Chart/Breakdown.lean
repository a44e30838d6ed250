import CycleChart.Report.Counts
import CycleChart.Text.Grouped

namespace CycleChart

/-- A bar: how many cycles a label took. -/
structure Bar where
  label : String
  count : UInt64
deriving DecidableEq

def Bar.annotation (b : Bar) : String := Text.grouped b.count.toNat

/-- The bars of a chart from the top down. -/
structure Breakdown where
  bars : List Bar
deriving DecidableEq

namespace Breakdown

/-- One bar for each label, greater counts first, and equal counts in the order of the labels. -/
def ofCounts (counts : LabelCounts) : Breakdown :=
  ⟨(counts.entries.map fun (label, count) => ⟨label, count⟩).mergeSort
    fun a b : Bar => decide (b.count ≤ a.count)⟩

theorem length_ofCounts (counts : LabelCounts) : (ofCounts counts).bars.length = counts.entries.length := by
  simp [ofCounts]

def maxCount (b : Breakdown) : UInt64 := (b.bars.head?.map (·.count)).getD 0

def longestLabel (b : Breakdown) : Nat := (b.bars.map (·.label.length)).foldl max 0

end Breakdown
end CycleChart
