import CycleChart.Path.Basic
import CycleChart.Text.Utf8

namespace CycleChart.Path

/-- A chart has the stem of its report. -/
def chart (report directory : Path) : Path :=
  directory.join ⟨report.fileStem.getD report.bytes ++ (ofString ".png").bytes⟩

def defaultCharts (reports : Path) : Path := reports.join (ofString "charts")

/-- What a report is called in its chart. -/
def identifier (report : Path) : String := Text.readable (report.fileName.getD report.bytes)

end CycleChart.Path
