import CycleChart.Proofs.Canvas.Pictures
import CycleChart.Proofs.Drawing.Sizes

namespace CycleChart

open Binary (Double)
open Drawing

namespace Figure

variable {f : Figure} {lines characters : Nat}

/-- Columns for the letters of a label. -/
def letters (f : Figure) (characters : Nat) : UInt32 :=
  (.ofNat characters * f.pointsToPixels f.labelSize * 0.6 : Double).round.toUInt32

/-- How many columns the letters of a label and the margin take. -/
def columnsNeeded (f : Figure) (characters : Nat) : Nat := (f.letters characters).toNat + f.marginPixels.toNat

theorem exists_labelWidth_iff :
    (∃ width, f.labelWidth characters = .ok width) ↔ f.columnsNeeded characters < 2 ^ 32 := by
  rw [columnsNeeded, ← exists_addSizes_iff .labelWidth]
  constructor
  · rintro ⟨width, fits⟩
    obtain ⟨needed, sum, -⟩ := bind_eq_ok fits
    exact ⟨needed, sum⟩
  · rintro ⟨needed, sum⟩
    refine ⟨min needed (f.pixelSize.1 / 2), ?_⟩
    rw [letters] at sum
    rw [labelWidth, sum]
    rfl

/-- How many bytes the pixels of a page with some summary lines take. -/
def bytesNeeded (f : Figure) (lines : Nat) : Nat :=
  f.pixelSize.1.toNat * max f.pixelSize.2.toNat (f.rowsNeeded lines) * 3

end Figure

/-- Nothing but the widths and the range of coordinates keeps a figure from having a layout. -/
theorem Drawing.Layout.error_ofFigure {f : Figure} {characters : Nat} {e : Overflow}
    (fits : f.columnsNeeded characters < 2 ^ 32) (h : Layout.ofFigure f characters = .error e) : e = .coordinates := by
  obtain ⟨labels, width⟩ := Figure.exists_labelWidth_iff.2 fits
  rcases bind_eq_error h with none | ⟨labels', -, h⟩
  · cases width.symm.trans none
  · rcases bind_eq_error h with outside | ⟨_, -, h⟩
    · exact eq_of_ensure outside
    · cases h

section

variable [Typeface]

theorem Drawing.Page.exists_canvas_iff {page : Page} :
    (∃ canvas, page.canvas = .ok canvas) ↔ page.width.toNat * page.height.toNat * 3 < 2 ^ 63 := by
  rw [Page.canvas]
  split
  · rename_i fits
    exact iff_of_true ⟨_, rfl⟩ fits
  · rename_i large
    refine iff_of_false ?_ large
    rintro ⟨canvas, h⟩
    cases h

end

namespace Chart

variable {c : Chart} {f : Figure}

/-- Whether the rows and the columns of a page can be counted in 32 bits, and its bytes by a signed number of 64. -/
structure HasRoom (c : Chart) (f : Figure) : Prop where
  rows : f.rowsNeeded c.summary.lines.length < 2 ^ 32
  columns : f.columnsNeeded c.breakdown.longestLabel < 2 ^ 32
  bytes : f.bytesNeeded c.summary.lines.length < 2 ^ 63

theorem room_of_page {page : Page} (drawn : c.page f = .ok page) :
    f.rowsNeeded c.summary.lines.length < 2 ^ 32 ∧ f.columnsNeeded c.breakdown.longestLabel < 2 ^ 32 := by
  obtain ⟨sized, -, layout, laid⟩ := parts_of_page drawn
  obtain ⟨labels, width, -⟩ := bind_eq_ok laid
  exact ⟨Figure.exists_canvasSize_iff.1 ⟨_, sized⟩, Figure.exists_labelWidth_iff.1 ⟨labels, width⟩⟩

theorem bytes_page {page : Page} (drawn : c.page f = .ok page) :
    page.width.toNat * page.height.toNat * 3 = f.bytesNeeded c.summary.lines.length := by
  obtain ⟨-, width, height⟩ := Figure.canvasSize_eq_ok_iff.1 (parts_of_page drawn).1
  rw [Figure.bytesNeeded, ← height, ← width]

/-- With room for its rows and columns, only the range of coordinates and the number of slots keep a page from being
drawn. -/
theorem error_page {e : Overflow} (rows : f.rowsNeeded c.summary.lines.length < 2 ^ 32)
    (columns : f.columnsNeeded c.breakdown.longestLabel < 2 ^ 32) (h : c.page f = .error e) :
    e = .coordinates ∨ e = .slots := by
  obtain ⟨size, sized⟩ := Figure.exists_canvasSize_iff.2 rows
  rcases bind_eq_error h with none | ⟨size', -, h⟩
  · cases sized.symm.trans none
  rcases bind_eq_error h with many | ⟨_, -, h⟩
  · exact .inr (eq_of_ensure many)
  rcases bind_eq_error h with outside | ⟨layout, -, h⟩
  · exact .inl (Layout.error_ofFigure columns outside)
  rcases bind_eq_error h with outside | ⟨_, -, h⟩
  · exact .inl (eq_of_ensure outside)
  · cases h

variable [Typeface]

/-- A chart without room has no picture. -/
theorem hasRoom_of_picture {picture : Canvas} (h : c.picture f = .ok picture) : c.HasRoom f := by
  obtain ⟨page, drawn, h⟩ := bind_eq_ok h
  obtain ⟨canvas, painted, -⟩ := bind_eq_ok h
  obtain ⟨rows, columns⟩ := room_of_page drawn
  exact ⟨rows, columns, bytes_page drawn ▸ Page.exists_canvas_iff.1 ⟨canvas, painted⟩⟩

end Chart

/-! Figures of a moderate size. -/

/-- Whether the measures of a figure are moderate: not more than 65536 dots per inch, at most 16384 inches, letters and
margins of at most 64 points, lines at most twice as high as their letters. Any ratio and any padding will do. -/
structure Figure.Moderate (f : Figure) : Prop where
  dpi : f.dpi.toNat ≤ 65536
  width : f.width.UpTo 16384
  height : f.height.UpTo 16384
  margin : f.margin.UpTo 64
  title : f.titleSize.UpTo 64
  labels : f.labelSize.UpTo 64
  summary : f.summarySize.UpTo 64
  spacing : f.lineSpacing.UpTo 2

/-- Cuts that are put in order stay between the same bounds. -/
theorem Drawing.Cuts.third_mem {m n a b c d : Int} (ha : m ≤ a ∧ a ≤ n) (hb : m ≤ b ∧ b ≤ n) (hc : m ≤ c ∧ c ≤ n)
    (hd : m ≤ d ∧ d ≤ n) : m ≤ (Cuts.sorted a b c d).third ∧ (Cuts.sorted a b c d).third ≤ n := by
  simp only [Cuts.sorted]
  omega

namespace Figure.Moderate

variable {f : Figure} (moderate : f.Moderate)
include moderate

theorem pointsToPixels {points : Double} (h : points.UpTo 64) : (f.pointsToPixels points).UpTo 65536 := by
  have dots : f.resolution.UpTo 65536 := Double.upTo_ofNat moderate.dpi (by norm_num)
  exact (h.mul dots (by norm_num)).div (by norm_num) (by norm_num) (by norm_num) (by norm_num)

theorem inchesToPixels {inches : Double} (h : inches.UpTo 16384) : (f.inchesToPixels inches).toNat ≤ 2 ^ 30 := by
  have dots : f.resolution.UpTo 65536 := Double.upTo_ofNat moderate.dpi (by norm_num)
  have product := h.mul dots (by norm_num)
  have zero : (0 : Double).UpTo (16384 * 65536) := Double.upTo_ofNat (Nat.zero_le _) (by norm_num)
  exact ((product.round (by norm_num)).max zero).toUInt32 (by norm_num)

theorem pixelSize : f.pixelSize.1.toNat ≤ 2 ^ 30 ∧ f.pixelSize.2.toNat ≤ 2 ^ 30 := by
  have wide := moderate.inchesToPixels moderate.width
  have high := moderate.inchesToPixels moderate.height
  simp only [Figure.pixelSize, toNat_max]
  exact ⟨max_le wide (by decide), max_le high (by decide)⟩

theorem chartHeight : f.chartHeight.toNat ≤ 2 ^ 30 :=
  (UInt32.le_iff_toNat_le.1 f.chartHeight_le).trans moderate.pixelSize.2

theorem marginPixels : f.marginPixels.toNat ≤ 65536 :=
  ((moderate.pointsToPixels moderate.margin).round (by norm_num)).toUInt32 (by norm_num)

theorem letters {characters : Nat} (few : characters ≤ 4096) : (f.letters characters).toNat ≤ 2 ^ 28 := by
  have count : (Double.ofNat characters).UpTo 4096 := Double.upTo_ofNat few (by norm_num)
  have share : (0.6 : Double).UpTo 1 := Double.upTo_ofRat (by norm_num) (by norm_num) (by norm_num)
  have product := (count.mul (moderate.pointsToPixels moderate.labels) (by norm_num)).mul share (by norm_num)
  exact (product.round (by norm_num)).toUInt32 (by norm_num)

theorem lineHeight : f.lineHeight.UpTo (65536 * 2) := by
  have one : (1 : Double).UpTo 2 := Double.upTo_ofNat (by norm_num) (by norm_num)
  exact (moderate.pointsToPixels moderate.summary).mul (moderate.spacing.max one) (by norm_num)

theorem summaryHeight {lines : Nat} (few : lines ≤ 1024) : (f.summaryHeight lines).toNat ≤ 2 ^ 28 := by
  have count : (Double.ofNat lines).UpTo 1024 := Double.upTo_ofNat few (by norm_num)
  have height := count.mul moderate.lineHeight (by norm_num)
  have sum := height.add (moderate.pointsToPixels moderate.margin) (by norm_num)
  exact ((sum.ceil (by norm_num)).toUInt32 (by norm_num)).trans (by norm_num)

/-- There is room for every chart of a moderate figure with at most 1024 summary lines and labels of at most 4096
characters. -/
theorem hasRoom {c : Chart} (short : c.breakdown.longestLabel ≤ 4096) (few : c.summary.lines.length ≤ 1024) :
    c.HasRoom f := by
  obtain ⟨wide, high⟩ := moderate.pixelSize
  have chart := moderate.chartHeight
  have summary := moderate.summaryHeight few
  have letters := moderate.letters short
  have margin := moderate.marginPixels
  have rows : f.rowsNeeded c.summary.lines.length ≤ 2 ^ 30 + 2 ^ 28 := Nat.add_le_add chart summary
  refine ⟨by omega, ?_, ?_⟩
  · rw [columnsNeeded]
    omega
  · have tall : max f.pixelSize.2.toNat (f.rowsNeeded c.summary.lines.length) ≤ 2 ^ 30 + 2 ^ 28 :=
      max_le (high.trans (by norm_num)) rows
    calc f.bytesNeeded c.summary.lines.length
      _ ≤ 2 ^ 30 * (2 ^ 30 + 2 ^ 28) * 3 := Nat.mul_le_mul_right 3 (Nat.mul_le_mul wide tall)
      _ < 2 ^ 63 := by norm_num

/-! No coordinate of a moderate figure is out of range. -/

theorem titleHeight : 0 ≤ f.titleHeight ∧ f.titleHeight ≤ 65536 := by
  have share : (1.24 : Double).exact.Within 1 2 :=
    Double.within_ofExact ((Binary.Exact.within_ofRat _).mono (by norm_num) (by norm_num)) Double.holds_one
      (Binary.Format.holds_int (i := 2) (by decide) (by decide) (by decide))
  have letters := (moderate.pointsToPixels moderate.title).div_of_one_le share (by norm_num)
  exact letters.toInt32 (by norm_num)

theorem titlePadding : 0 ≤ Layout.titlePadding f ∧ Layout.titlePadding f ≤ 5 := by
  obtain ⟨least, -⟩ := moderate.titleHeight
  have half : 0 ≤ f.titleHeight.tdiv 2 := Int.tdiv_nonneg least (by decide)
  rw [Layout.titlePadding, if_neg (by omega)]
  omega

theorem labelHeight : f.labelHeight.toNat ≤ 2 ^ 18 := by
  have rows : (3.5 : Double).UpTo 4 := Double.upTo_ofRat (by norm_num) (by norm_num) (by norm_num)
  have product := (moderate.pointsToPixels moderate.labels).mul rows (by norm_num)
  exact (product.round (by norm_num)).toUInt32 (by norm_num)

theorem layoutMargin : 0 ≤ Layout.margin f ∧ Layout.margin f ≤ 65536 := by
  have pixels := moderate.marginPixels
  have same : coordinate f.marginPixels = f.marginPixels.toNat := coordinate_of_lt (by omega)
  rw [Layout.margin, same]
  omega

theorem labelWidth {characters : Nat} {labels : UInt32} (h : f.labelWidth characters = .ok labels) :
    labels.toNat ≤ 2 ^ 30 := by
  obtain ⟨needed, -, h⟩ := bind_eq_ok h
  cases h
  have half : (f.pixelSize.1 / 2).toNat ≤ f.pixelSize.1.toNat := by
    rw [UInt32.toNat_div]
    exact Nat.div_le_self _ _
  rw [toNat_min]
  exact (min_le_right _ _).trans (half.trans moderate.pixelSize.1)

/-- Where the area inside the margin begins and ends. -/
theorem inner :
    (0 ≤ (Layout.inner f).left ∧ (Layout.inner f).left ≤ 2 ^ 18) ∧
      (0 ≤ (Layout.inner f).top ∧ (Layout.inner f).top ≤ 2 ^ 18) ∧
      (-2 ^ 18 ≤ (Layout.inner f).right ∧ (Layout.inner f).right ≤ 2 ^ 30) ∧
      (-2 ^ 18 ≤ (Layout.inner f).bottom ∧ (Layout.inner f).bottom ≤ 2 ^ 30) := by
  have wide := moderate.pixelSize.1
  have high := moderate.chartHeight
  have columns : coordinate f.pixelSize.1 = f.pixelSize.1.toNat := coordinate_of_lt (by omega)
  have rows : coordinate f.chartHeight = f.chartHeight.toNat := coordinate_of_lt (by omega)
  have margin := moderate.layoutMargin
  have title := moderate.titleHeight
  have padding := moderate.titlePadding
  simp only [Layout.inner, columns, rows]
  omega

theorem exists_layout {characters : Nat} (few : characters ≤ 4096) :
    ∃ layout, Layout.ofFigure f characters = .ok layout := by
  have letters := moderate.letters few
  have margin := moderate.marginPixels
  have needed : f.columnsNeeded characters < 2 ^ 32 := by
    rw [columnsNeeded]
    omega
  obtain ⟨labels, width⟩ := Figure.exists_labelWidth_iff.2 needed
  have taken := moderate.labelWidth width
  have low := moderate.labelHeight
  have beside : coordinate labels = labels.toNat := coordinate_of_lt (by omega)
  have below : coordinate f.labelHeight = f.labelHeight.toNat := coordinate_of_lt (by omega)
  obtain ⟨left, top, right, bottom⟩ := moderate.inner
  have third := Cuts.third_mem (m := -2 ^ 19) (n := 2 ^ 30) (a := (Layout.inner f).top)
    (b := (Layout.inner f).bottom) (c := (Layout.inner f).top)
    (d := (Layout.inner f).bottom - max 0 (coordinate f.labelHeight)) (by omega) (by omega) (by omega) (by omega)
  rw [Layout.ofFigure, width]
  simp only [bind, Except.bind]
  rw [ensure, if_pos]
  · exact ⟨_, rfl⟩
  · simp only [List.all_cons, List.all_nil, isCoordinate, Bool.and_eq_true, decide_eq_true_eq, and_true, Area.width,
      Area.height]
    omega

/-- Where a summary line starts is in range. -/
theorem isPlace_summaryPlace {index : Nat} (few : index ≤ 1024) {right bottom : Int} :
    (summaryPlace f ⟨0, coordinate f.chartHeight, right, bottom⟩ index).isPlace = true := by
  have high := moderate.chartHeight
  have rows : coordinate f.chartHeight = f.chartHeight.toNat := coordinate_of_lt (by omega)
  have count : (Double.ofNat index).UpTo 1024 := Double.upTo_ofNat few (by norm_num)
  have column := ((moderate.pointsToPixels moderate.margin).round (by norm_num)).toInt32 (by norm_num)
  have row := ((count.mul moderate.lineHeight (by norm_num)).round (by norm_num)).toInt32 (by norm_num)
  simp only [summaryPlace, Point.isPlace, isCoordinate, Bool.and_eq_true, decide_eq_true_eq, rows]
  omega

/-- Every chart of a moderate figure with few bars, few lines and short labels has a picture. -/
theorem exists_picture [Typeface] {c : Chart} (short : c.breakdown.longestLabel ≤ 4096)
    (few : c.summary.lines.length ≤ 1024) (counted : c.breakdown.bars.length < 2 ^ 32) :
    ∃ picture, c.picture f = .ok picture := by
  have room := moderate.hasRoom short few
  obtain ⟨size, sized⟩ := Figure.exists_canvasSize_iff.2 room.rows
  obtain ⟨layout, laid⟩ := moderate.exists_layout short
  have places : ((List.range c.summary.lines.length).all fun index =>
      (summaryPlace f ⟨0, coordinate f.chartHeight, coordinate size.1, coordinate size.2⟩ index).isPlace) = true :=
    List.all_eq_true.2 fun index mem =>
      moderate.isPlace_summaryPlace ((List.mem_range.1 mem).le.trans few)
  have drawn : ∃ page, c.page f = .ok page := by
    simp only [Chart.page, sized, laid, Breakdown.hasSlots_iff.2 counted, places, ensure, if_true, bind, Except.bind,
      pure, Except.pure]
    exact ⟨_, rfl⟩
  obtain ⟨page, drawn⟩ := drawn
  exact Chart.exists_picture_of_small drawn ((Chart.bytes_page drawn).trans_lt room.bytes)

end Figure.Moderate

/-- A page, the labels beside its bars and its pixels have room just if their sums and products fit, and there is no
picture if they do not. If they do, only a coordinate out of range and too many slots keep a page from being drawn. In a
moderate figure there is room and no such coordinate. -/
theorem Chart.room_spec [Typeface] (f : Figure) :
    (∀ lines, ((∃ size, f.canvasSize lines = .ok size) ↔ f.rowsNeeded lines < 2 ^ 32) ∧
      ∀ size, f.canvasSize lines = .ok size → f.rowsNeeded lines ≤ size.2.toNat) ∧
      (∀ characters, (∃ width, f.labelWidth characters = .ok width) ↔ f.columnsNeeded characters < 2 ^ 32) ∧
      ∀ c : Chart,
        (∀ page, c.page f = .ok page →
          ((∃ canvas, page.canvas = .ok canvas) ↔ f.bytesNeeded c.summary.lines.length < 2 ^ 63)) ∧
        (∀ picture, c.picture f = .ok picture → c.HasRoom f) ∧
        (∀ e, c.HasRoom f → c.page f = .error e → e = .coordinates ∨ e = .slots) ∧
        (f.Moderate → c.breakdown.longestLabel ≤ 4096 → c.summary.lines.length ≤ 1024 →
          c.breakdown.bars.length < 2 ^ 32 → ∃ picture, c.picture f = .ok picture) := by
  refine ⟨fun lines => ⟨Figure.exists_canvasSize_iff, fun size sized => ?_⟩,
    fun characters => Figure.exists_labelWidth_iff, fun c => ⟨fun page drawn => ?_, ?_, ?_, ?_⟩⟩
  · obtain ⟨-, -, height⟩ := Figure.canvasSize_eq_ok_iff.1 sized
    exact height ▸ le_max_right _ _
  · rw [Page.exists_canvas_iff, bytes_page drawn]
  · intro picture
    exact hasRoom_of_picture
  · intro e room
    exact error_page room.rows room.columns
  · intro moderate short few counted
    exact moderate.exists_picture short few counted

theorem Figure.moderate_default : Figure.Moderate {} where
  dpi := by decide
  width := Double.upTo_ofNat (m := 12) (by norm_num) (by norm_num)
  height := Double.upTo_ofNat (m := 7) (by norm_num) (by norm_num)
  margin := Double.upTo_ofNat (m := 10) (by norm_num) (by norm_num)
  title := Double.upTo_ofNat (m := 12) (by norm_num) (by norm_num)
  labels := Double.upTo_ofNat (m := 10) (by norm_num) (by norm_num)
  summary := Double.upTo_ofNat (m := 11) (by norm_num) (by norm_num)
  spacing := Double.upTo_ofRat (by norm_num) (by norm_num) (by norm_num)

open scoped Drawing.Typeface

/-- The default figure of a pair is drawn. -/
theorem Chart.room_spec_default :
    Figure.Moderate {} ∧ ∃ picture, (Chart.ofReport "pair.json" (reportOf pair)).picture {} = .ok picture := by
  have short : (Chart.ofReport "pair.json" (reportOf pair)).breakdown.longestLabel ≤ 4096 := by
    show (Breakdown.ofCounts pair).longestLabel ≤ 4096
    rw [Breakdown.longestLabel, bars_pair]
    decide
  have few : (Chart.ofReport "pair.json" (reportOf pair)).summary.lines.length ≤ 1024 :=
    (lines_ofReport _).trans (by norm_num)
  have counted : (Chart.ofReport "pair.json" (reportOf pair)).breakdown.bars.length < 2 ^ 32 := by
    show (Breakdown.ofCounts pair).bars.length < 2 ^ 32
    rw [bars_pair]
    decide
  obtain ⟨-, -, room⟩ := Chart.room_spec {}
  obtain ⟨-, -, -, drawn⟩ := room (Chart.ofReport "pair.json" (reportOf pair))
  exact ⟨Figure.moderate_default, drawn Figure.moderate_default short few counted⟩

/-- Each of the sums, and the product, can be too large. -/
theorem not_all_roomy :
    (¬∀ (f : Figure) (lines : Nat), ∃ size, f.canvasSize lines = .ok size) ∧
      (¬∀ (f : Figure) (characters : Nat), ∃ width, f.labelWidth characters = .ok width) ∧
      ¬∀ (f : Figure) (lines : Nat) (size : UInt32 × UInt32), f.canvasSize lines = .ok size →
        size.1.toNat * size.2.toNat * 3 < 2 ^ 64 := by
  refine ⟨fun all => ?_, fun all => ?_, fun all => ?_⟩
  · obtain ⟨size, sized⟩ := all { dpi := 1, height := 4294967295, chartRatio := 1 } 1
    have large : Figure.canvasSize { dpi := 1, height := 4294967295, chartRatio := 1 } 1 = .error .canvasHeight := by
      decide +kernel
    cases sized.symm.trans large
  · obtain ⟨width, fits⟩ := all { dpi := 72, labelSize := 600000000 } 12
    have large : Figure.labelWidth { dpi := 72, labelSize := 600000000 } 12 = .error .labelWidth := by decide +kernel
    cases fits.symm.trans large
  · have sized : Figure.canvasSize { dpi := 1, width := 4294967295, height := 4294967295 } 1 =
        .ok (4294967295, 4294967295) := by decide +kernel
    exact absurd (all _ 1 _ sized) (by decide)

end CycleChart
