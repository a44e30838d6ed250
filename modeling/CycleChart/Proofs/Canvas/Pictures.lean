import CycleChart.Proofs.Canvas.Extent
import CycleChart.Proofs.Canvas.Cropping
import CycleChart.Proofs.Drawing.Faithful

namespace CycleChart

open Drawing

variable [Typeface]

/-- A chart has a picture if its page is not too large to be held. -/
theorem Chart.exists_picture_of_small {c : Chart} {f : Figure} {page : Page} (drawn : c.page f = .ok page)
    (small : page.width.toNat * page.height.toNat * 3 < 0x8000000000000000) :
    ∃ picture, c.picture f = .ok picture := by
  have painted : page.canvas = .ok (page.items.foldl Item.paint (.blank page.width page.height)) := if_pos small
  obtain ⟨cropped, cut⟩ := Canvas.exists_crop (page.items.foldl Item.paint (.blank page.width page.height))
    (f.inchesToPixels f.padding)
  refine ⟨cropped, ?_⟩
  rw [picture, drawn]
  show (do (← page.canvas).crop (f.inchesToPixels f.padding)) = _
  rw [painted]
  exact cut

/-- Every report has a picture of the default figure, if there is room for its labels and a slot for each of them. -/
theorem Chart.exists_picture (identifier : String) (r : Report) {k : UInt32}
    (fits : Figure.labelWidth {} (Breakdown.ofCounts r.counts).longestLabel = .ok k)
    (few : r.counts.entries.length < 2 ^ 32) :
    ∃ picture, (Chart.ofReport identifier r).picture {} = .ok picture := by
  have short : (Chart.ofReport identifier r).summary.lines.length ≤ 8 := lines_ofReport r
  obtain ⟨page, drawn⟩ := (exists_page_ofReport_iff identifier r fits).2 few
  obtain ⟨sized, -⟩ := parts_of_page drawn
  rw [canvasSize_default short, Except.ok.injEq, Prod.mk.injEq] at sized
  have wide : page.width.toNat = 3600 := congrArg UInt32.toNat sized.1.symm
  have high := page.height.toNat_lt
  apply exists_picture_of_small drawn
  rw [wide]
  omega

end CycleChart
