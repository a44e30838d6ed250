import CycleChart.Chart.Breakdown
import CycleChart.Chart.Summary

namespace CycleChart

structure Chart where
  title : String
  breakdown : Breakdown
  summary : Summary

namespace Chart

/-- The text without the ending, if it ends so. -/
def withoutEnding (ending text : List Char) : List Char :=
  if ending.isSuffixOf text then text.take (text.length - ending.length) else text

def titleOf (identifier : String) : String :=
  String.ofList (withoutEnding ".json".toList identifier.toList) ++ " — Cycle Tracker Breakdown"

def ofReport (identifier : String) (r : Report) : Chart :=
  ⟨titleOf identifier, .ofCounts r.counts, .ofReport r⟩

end Chart
end CycleChart
