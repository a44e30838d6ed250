import CycleChart.Proofs.Batch.Alone
import CycleChart.Proofs.Canvas.Bytes
import CycleChart.Proofs.Canvas.Pictures

namespace CycleChart

open Drawing Session

/-- Saving a picture that has pixels comes to what writing its file comes to. -/
theorem perform_savePicture_filled {L : Type} [Links L] (s : Session L) {picture : Canvas} (wide : picture.width ≠ 0)
    (high : picture.height ≠ 0) (file : Path) :
    s.perform ((savePicture picture file : ExceptT RenderError (StateM (Session L)) Unit).adapt ChartError.render) =
      ((s.tree.write file (.picture picture)).1.mapError fun e => .render (.saving file (.file e)),
        { s with tree := (s.tree.write file (.picture picture)).2 }) := by
  have filled : picture.lack? = none := by rw [Canvas.lack?, if_neg wide, if_neg high]
  rw [perform_savePicture, Canvas.content, filled]
  refine congrArg (·, _) ?_
  show picture.saved file (s.tree.write file (.picture picture)).1 = _
  cases (s.tree.write file (.picture picture)).1 with
  | error e => rfl
  | ok u => rw [Canvas.saved, filled, mapError_ok]

section

variable {m : Type → Type} [Monad m] [Host m]

/-- Saves what has been drawn. -/
def saveDrawn (drawn : Except Overflow Canvas) (file : Path) : ExceptT ChartError m Unit :=
  match drawn with
  | .error cause => throw (.overflow cause)
  | .ok picture => (savePicture picture file : ExceptT RenderError m Unit).adapt .render

/-- Saves the picture of a buffer, if it has one. -/
def Buffer.save (b : Buffer) (padding : UInt32) (file : Path) : ExceptT ChartError m Unit :=
  match b.crop? padding with
  | none => throw (.render (.drawing file "the pixel buffer does not match the canvas size"))
  | some drawn => saveDrawn drawn file

/-- Draws a chart into a file by way of a buffer, which is drawn on as some rule has it. -/
def renderBytes (writes : Page → List Write) (f : Figure) (chart : Chart) (file : Path) :
    ExceptT ChartError m Unit :=
  match chart.page f with
  | .error cause => throw (.overflow cause)
  | .ok page =>
    match Buffer.blank page.width page.height with
    | .error cause => throw (.overflow cause)
    | .ok blank => (blank.draw (writes page)).save (f.inchesToPixels f.padding) file

end

section

variable [Typeface]

/-- The bytes of a page, for each of its pixels. -/
def Drawing.Page.writes (p : Page) : List Write :=
  match p.canvas with
  | .ok c => c.writes
  | .error _ => []

/-- A page that can be painted has a buffer that shows it. -/
theorem Drawing.Page.exists_blank {p : Page} {c : Canvas} (h : p.canvas = .ok c) :
    ∃ blank, Buffer.blank p.width p.height = .ok blank ∧ (blank.draw p.writes).canvas? = some c := by
  obtain ⟨wide, high⟩ := extent_canvas h
  have fits : p.width.toNat * p.height.toNat * 3 < 0x8000000000000000 := by
    by_contra large
    rw [canvas, if_neg large] at h
    cases h
  obtain ⟨width, height, whole⟩ := Buffer.isWhole_blank (if_pos fits)
  refine ⟨_, if_pos fits, ?_⟩
  rw [writes, h]
  exact Canvas.canvas?_draw_writes whole (width.trans wide.symm) (height.trans high.symm)

theorem Drawing.Page.blank_of_error {p : Page} {cause : Overflow} (h : p.canvas = .error cause) :
    Buffer.blank p.width p.height = .error cause := by
  rw [canvas] at h
  split at h
  · cases h
  · rename_i large
    cases h
    exact if_neg large

/-- Charts are drawn by way of a buffer on which their page is drawn. -/
theorem renderChart_eq {m : Type → Type} [Monad m] [Host m] (f : Figure) (chart : Chart) (file : Path) :
    (renderChart f chart file : ExceptT ChartError m Unit) = renderBytes Page.writes f chart file := by
  change saveDrawn (chart.picture f) file = _
  rw [renderBytes, Chart.picture]
  cases chart.page f with
  | error cause => rfl
  | ok page =>
    change saveDrawn (page.canvas >>= (·.crop (f.inchesToPixels f.padding))) file = _
    dsimp only
    cases painted : page.canvas with
    | error cause =>
      rw [Page.blank_of_error painted]
      rfl
    | ok canvas =>
      obtain ⟨blank, made, shown⟩ := Page.exists_blank painted
      rw [made]
      dsimp only
      rw [Buffer.save, Buffer.crop?, shown]
      rfl

end

section

variable {L : Type} [Links L]

/-- A whole buffer that has columns and rows has a picture with columns and rows, and saving it is writing its file. -/
theorem Buffer.IsWhole.perform_save {b : Buffer} (h : b.IsWhole) (wide : b.width ≠ 0) (high : b.height ≠ 0)
    (padding : UInt32) :
    ∃ picture : Canvas, b.crop? padding = some (.ok picture) ∧ picture.width ≠ 0 ∧ picture.height ≠ 0 ∧
      ∀ (s : Session L) (file : Path), s.perform (b.save padding file) =
        ((s.tree.write file (.picture picture)).1.mapError fun e => .render (.saving file (.file e)),
          { s with tree := (s.tree.write file (.picture picture)).2 }) := by
  obtain ⟨picture, cropped, wide, high⟩ := h.exists_crop wide high padding
  refine ⟨picture, cropped, wide, high, fun s file => ?_⟩
  rw [save, cropped]
  exact perform_savePicture_filled s wide high file

/-- A picture has columns and rows, but a tree refuses the file for it, and becomes another by that at most as the file
is begun. -/
def Tree.Refuses (t u : Tree L) (file : Path) (cause : RenderError) : Prop :=
  ∃ picture : Canvas, 0 < picture.width ∧ 0 < picture.height ∧
    ∃ e, t.write file (.picture picture) = (.error e, u) ∧ cause = .saving file (.file e)

/-- Whatever is drawn on its page, a chart that cannot be rendered has a picture whose file is refused. -/
theorem perform_renderBytes {writes : Page → List Write} {f : Figure} {chart : Chart} {file : Path} {s s' : Session L}
    {cause : RenderError} (h : s.perform (renderBytes writes f chart file) = (.error (.render cause), s')) :
    s.tree.Refuses s'.tree file cause ∧ s'.said = s.said := by
  rw [renderBytes] at h
  split at h
  · cases h
  · rename_i page drawn
    split at h
    · cases h
    · rename_i blank made
      obtain ⟨wide, high⟩ := Figure.canvasSize_filled (parts_of_page drawn).1
      obtain ⟨width, height, whole⟩ := Buffer.isWhole_blank made
      obtain ⟨width', height', whole'⟩ := whole.draw (writes page)
      obtain ⟨picture, -, columns, rows, saved⟩ := whole'.perform_save (L := L) (by rwa [width', width])
        (by rwa [height', height]) (f.inchesToPixels f.padding)
      rw [saved] at h
      rcases written : s.tree.write file (.picture picture) with ⟨e | u, t⟩
      · rw [written] at h
        cases h
        exact ⟨⟨picture, UInt32.pos_iff_ne_zero.2 columns, UInt32.pos_iff_ne_zero.2 rows, e, written, rfl⟩, rfl⟩
      · rw [written] at h
        cases h

/-- A canvas has columns and rows, and drawing on it leaves three bytes for each of its pixels. So it always has a
picture, which has columns and rows whatever the padding, and rendering fails only if the file for it is refused. -/
theorem render_spec [Typeface] (f : Figure) {lines : Nat} {size : UInt32 × UInt32}
    (sized : f.canvasSize lines = .ok size) :
    (0 < size.1 ∧ 0 < size.2) ∧
      (∀ (blank : Buffer) (writes : List Write), Buffer.blank size.1 size.2 = .ok blank →
        (blank.draw writes).bytes.size = size.1.toNat * size.2.toNat * 3 ∧
        ∀ padding, ∃ picture, (blank.draw writes).crop? padding = some (.ok picture) ∧
          0 < picture.width ∧ 0 < picture.height ∧
          ∀ (s : Session L) (file : Path), s.perform ((blank.draw writes).save padding file) =
            ((s.tree.write file (.picture picture)).1.mapError fun e => .render (.saving file (.file e)),
              { s with tree := (s.tree.write file (.picture picture)).2 })) ∧
      ∀ (chart : Chart) (file : Path) (s s' : Session L) (cause : RenderError),
        (s.perform (renderChart f chart file) = (.error (.render cause), s') →
          s.tree.Refuses s'.tree file cause ∧ s'.said = s.said) ∧
        ∀ writes : Page → List Write, s.perform (renderBytes writes f chart file) = (.error (.render cause), s') →
          s.tree.Refuses s'.tree file cause ∧ s'.said = s.said := by
  obtain ⟨wide, high⟩ := Figure.canvasSize_filled sized
  refine ⟨⟨UInt32.pos_iff_ne_zero.2 wide, UInt32.pos_iff_ne_zero.2 high⟩, fun blank writes made => ?_,
    fun chart file s s' cause => ⟨fun failed => ?_, fun writes => perform_renderBytes⟩⟩
  case refine_2 =>
    rw [renderChart_eq] at failed
    exact perform_renderBytes failed
  obtain ⟨width, height, whole⟩ := Buffer.isWhole_blank made
  obtain ⟨width', height', whole'⟩ := whole.draw writes
  have count : (blank.draw writes).count = size.1.toNat * size.2.toNat * 3 := by
    rw [Buffer.count, width', height', width, height]
  refine ⟨whole'.trans count, fun padding => ?_⟩
  obtain ⟨picture, cropped, columns, rows, saved⟩ := whole'.perform_save (L := L) (by rwa [width', width])
    (by rwa [height', height]) padding
  exact ⟨picture, cropped, UInt32.pos_iff_ne_zero.2 columns, UInt32.pos_iff_ne_zero.2 rows, saved⟩

end

open scoped Drawing.Typeface

/-- A page of the default figure for three lines, with one byte written. -/
theorem render_spec_default :
    Figure.canvasSize {} 3 = .ok (3600, 2100) ∧
      ∃ blank, Buffer.blank 3600 2100 = .ok blank ∧ (blank.draw [⟨7, 0⟩]).bytes.size = 3600 * 2100 * 3 ∧
        ∃ picture, (blank.draw [⟨7, 0⟩]).crop? 30 = some (.ok picture) ∧ 0 < picture.width ∧ 0 < picture.height := by
  have sized : Figure.canvasSize {} 3 = .ok (3600, 2100) := canvasSize_default (by decide)
  obtain ⟨-, drawn, -⟩ := render_spec (L := Empty) {} sized
  obtain ⟨count, cropped⟩ := drawn _ [⟨7, 0⟩] (if_pos (by decide))
  obtain ⟨picture, shown, wide, high, -⟩ := cropped 30
  exact ⟨sized, _, if_pos (by decide), count, picture, shown, wide, high⟩

end CycleChart
