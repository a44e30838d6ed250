import CycleChart.OrderedMap

namespace CycleChart

/-- A count for each of some labels, in the order of the labels' bytes. -/
abbrev LabelCounts := OrderedMap String UInt64

end CycleChart
