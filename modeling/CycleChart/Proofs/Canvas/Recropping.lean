import CycleChart.Proofs.Canvas.Cropping

namespace CycleChart

theorem toNat_ofNat_sub (n : UInt32) (k : Nat) : (UInt32.ofNat (n.toNat - k)).toNat = n.toNat - k :=
  UInt32.toNat_ofNat_of_lt' (Nat.lt_of_le_of_lt (Nat.sub_le _ _) n.toNat_lt)

/-- A rectangle as it lies on an image that leaves out some columns on the left and some rows at the top. -/
def Bounds.past (b : Bounds) (columns rows : Nat) : Bounds where
  left := .ofNat (b.left.toNat - columns)
  top := .ofNat (b.top.toNat - rows)
  right := .ofNat (b.right.toNat - columns)
  bottom := .ofNat (b.bottom.toNat - rows)

namespace Canvas

variable {image c : Canvas} {b : Bounds}

/-- Canvases of one size with the same pixels are the same. -/
theorem eq_of_pixelAt {d : Canvas} (width_eq : d.width = c.width) (height_eq : d.height = c.height)
    (pixel_eq : ∀ x y hx hy hx' hy', d.pixelAt x y hx hy = c.pixelAt x y hx' hy') : d = c := by
  obtain ⟨width, height, pixels, size⟩ := c
  obtain ⟨_, _, pixels', size'⟩ := d
  cases width_eq
  cases height_eq
  have same : pixels' = pixels := by
    apply Array.ext (size'.trans size.symm)
    intro i hi hi'
    have inside : i < height.toNat * width.toNat := size ▸ hi'
    have wide : 0 < width.toNat := Nat.pos_of_mul_pos_left (Nat.zero_lt_of_lt inside)
    have column := Nat.mod_lt i wide
    have row := (Nat.div_lt_iff_lt_mul wide).2 inside
    simpa only [pixelAt, Nat.div_add_mod'] using pixel_eq _ _ column row column row
  subst same
  rfl

/-- An image that shows a canvas from its corner and is as large as the canvas is the canvas. -/
theorem ShowsFrom.eq (shows : image.ShowsFrom c 0 0) (width_eq : image.width.toNat = c.width.toNat)
    (height_eq : image.height.toNat = c.height.toNat) : image = c := by
  apply eq_of_pixelAt (UInt32.toNat_inj.1 width_eq) (UInt32.toNat_inj.1 height_eq)
  intro x y hx hy hx' hy'
  simpa only [Nat.zero_add] using shows.pixel_eq x y hx hy

/-- The ink of an image is ink of the canvas that it shows. -/
theorem ShowsFrom.inked {left top : Nat} (shows : image.ShowsFrom c left top) {x y : UInt32} (h : image.Inked x y) :
    c.Inked (.ofNat (left + x.toNat)) (.ofNat (top + y.toNat)) := by
  obtain ⟨hx, hy, filled⟩ := inked_iff.1 h
  rw [shows.pixel_eq] at filled
  exact (inked_ofNat _ _).2 filled

variable {padding : Nat}

/-- All ink of a canvas is on what is left of it around its content. -/
theorem Trims.inked (trims : image.Trims c b padding) {x y : UInt32} (h : c.Inked x y) :
    image.Inked (.ofNat (x.toNat - (b.left.toNat - padding))) (.ofNat (y.toNat - (b.top.toNat - padding))) := by
  obtain ⟨⟨i, j⟩, ⟨⟨hi, hj⟩, column, row⟩, -⟩ := trims.kept x y h
  obtain ⟨hx, hy, filled⟩ := inked_iff.1 h
  rw [← column, ← row, Nat.add_sub_cancel_left, Nat.add_sub_cancel_left, inked_ofNat hi hj, trims.shows.pixel_eq]
  simpa only [column, row] using filled

/-- What is left of a canvas has the same content, further left and further up. -/
theorem Trims.frames (trims : image.Trims c b padding) (frames : b.Frames c.Inked) :
    (b.past (b.left.toNat - padding) (b.top.toNat - padding)).Frames image.Inked := by
  obtain ⟨holds, ⟨_, left⟩, ⟨_, top⟩, ⟨_, right⟩, ⟨_, bottom⟩⟩ := frames
  refine ⟨?_, ⟨_, trims.inked left⟩, ⟨_, trims.inked top⟩, ⟨_, trims.inked right⟩, ⟨_, trims.inked bottom⟩⟩
  intro x y inked
  have held := holds _ _ (trims.shows.inked inked)
  have column := Nat.lt_of_lt_of_le (Nat.add_lt_add_left inked.column_lt _) trims.shows.width_le
  have row := Nat.lt_of_lt_of_le (Nat.add_lt_add_left inked.row_lt _) trims.shows.height_le
  simp only [Bounds.Holds, Bounds.past, UInt32.le_iff_toNat_le, toNat_ofNat_sub, toNat_ofNat_of_lt column,
    toNat_ofNat_of_lt row] at held ⊢
  omega

/-- A stretch with its padding, as far as there is room for it, leaves room for just that padding around the stretch. -/
theorem padded_again {first last size padding length : Nat} (le : first ≤ last)
    (eq : length = min (last + padding) (size - 1) - (first - padding) + 1) :
    first - (first - padding) - padding = 0 ∧
      length = min (last - (first - padding) + padding) (length - 1) - (first - (first - padding) - padding) + 1 := by
  omega

/-- The content of what is left of a canvas has its padding already. -/
theorem Trims.crop_eq {padding : UInt32} (trims : image.Trims c b padding.toNat) (frames : b.Frames c.Inked) :
    image.crop padding = .ok image := by
  obtain ⟨columns, rows, -, -⟩ := liesOn_of_frames frames
  obtain ⟨again, cropped, width_eq, height_eq, shows, -, -⟩ := crop_of_frames padding (trims.frames frames)
  simp only [Bounds.past, toNat_ofNat_sub] at width_eq height_eq shows
  obtain ⟨left, width⟩ := padded_again columns trims.width_eq
  obtain ⟨top, height⟩ := padded_again rows trims.height_eq
  rw [left, top] at shows
  obtain rfl : again = image := shows.eq (width_eq.trans width.symm) (height_eq.trans height.symm)
  exact cropped

/-- Cropping leaves nothing to crop: what is left of a canvas stays as it is if it is cropped again. -/
theorem crop_again (c : Canvas) (padding : UInt32) :
    ∃ image, c.crop padding = .ok image ∧ image.crop padding = .ok image := by
  cases content : c.contentBounds with
  | none =>
    have same := crop_of_blank padding (contentBounds_eq_none_iff.1 content)
    exact ⟨c, same, same⟩
  | some b =>
    have frames := contentBounds_eq_some_iff.1 content
    obtain ⟨image, cropped, trims⟩ := crop_of_frames padding frames
    exact ⟨image, cropped, trims.crop_eq frames⟩

end Canvas
end CycleChart
