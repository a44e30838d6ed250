import CycleChart.Proofs.Canvas.Content

namespace CycleChart

namespace Bounds

variable {b : Bounds} {width height : UInt32}

theorem toNat_left_padded (b : Bounds) (padding width height : UInt32) :
    (b.padded padding width height).left.toNat = b.left.toNat - padding.toNat :=
  toNat_subDownTo _ _

theorem toNat_top_padded (b : Bounds) (padding width height : UInt32) :
    (b.padded padding width height).top.toNat = b.top.toNat - padding.toNat :=
  toNat_subDownTo _ _

/-- No canvas reaches as far as the greatest number of 32 bits, so that one is no limit. -/
theorem toNat_right_padded (b : Bounds) (padding width height : UInt32) :
    (b.padded padding width height).right.toNat = min (b.right.toNat + padding.toNat) (width.toNat - 1) := by
  have wide := width.toNat_lt
  simp only [padded, toNat_min, toNat_addUpTo, toNat_subDownTo, show (1 : UInt32).toNat = 1 from rfl]
  omega

theorem toNat_bottom_padded (b : Bounds) (padding width height : UInt32) :
    (b.padded padding width height).bottom.toNat = min (b.bottom.toNat + padding.toNat) (height.toNat - 1) := by
  have high := height.toNat_lt
  simp only [padded, toNat_min, toNat_addUpTo, toNat_subDownTo, show (1 : UInt32).toNat = 1 from rfl]
  omega

theorem LiesOn.padded (h : b.LiesOn width height) (padding : UInt32) :
    (b.padded padding width height).LiesOn width height := by
  obtain ⟨columns, rows, right, bottom⟩ := h
  constructor <;>
    simp only [toNat_left_padded, toNat_top_padded, toNat_right_padded, toNat_bottom_padded] <;>
    omega

/-- What lies between two columns or rows of a canvas can be counted. -/
theorem span_of_lt {first last size : UInt32} (le : first.toNat ≤ last.toNat) (lt : last.toNat < size.toNat) :
    ∃ n, span first last = .ok n ∧ n.toNat = last.toNat - first.toNat + 1 := by
  have ordered : first ≤ last := UInt32.le_iff_toNat_le.2 le
  have bound := size.toNat_lt
  have difference := UInt32.toNat_sub_of_le _ _ ordered
  have sum : (last - first + 1).toNat = last.toNat - first.toNat + 1 := by
    rw [UInt32.toNat_add, difference, show (1 : UInt32).toNat = 1 from rfl]
    omega
  refine ⟨last - first + 1, ?_, sum⟩
  rw [span, if_pos ordered, addSizes_eq_ok_iff, sum, difference]
  rfl

end Bounds

namespace Canvas

/-- An image that shows a part of a canvas, from a column and a row on. -/
structure ShowsFrom (image c : Canvas) (left top : Nat) : Prop where
  width_le : left + image.width.toNat ≤ c.width.toNat
  height_le : top + image.height.toNat ≤ c.height.toNat
  pixel_eq : ∀ x y hx hy,
    image.pixelAt x y hx hy =
      c.pixelAt (left + x) (top + y) (Nat.lt_of_lt_of_le (Nat.add_lt_add_left hx left) width_le)
        (Nat.lt_of_lt_of_le (Nat.add_lt_add_left hy top) height_le)

variable {c : Canvas} {b : Bounds}

/-- A rectangle on a canvas can be cut out of it. -/
theorem cut_of_liesOn (h : b.LiesOn c.width c.height) :
    ∃ image, c.cut b = .ok image ∧ image.width.toNat = b.right.toNat - b.left.toNat + 1 ∧
      image.height.toNat = b.bottom.toNat - b.top.toNat + 1 ∧ image.ShowsFrom c b.left.toNat b.top.toNat := by
  obtain ⟨width, columns, width_eq⟩ := Bounds.span_of_lt h.columns h.right
  obtain ⟨height, rows, height_eq⟩ := Bounds.span_of_lt h.rows h.bottom
  obtain ⟨left_le, top_le, right_lt, bottom_lt⟩ := h
  have wide := c.width.toNat_lt
  have high := c.height.toNat_lt
  rw [cut, Bounds.width, columns, Bounds.height, rows]
  refine ⟨_, rfl, width_eq, height_eq, ?_⟩
  refine ⟨by show b.left.toNat + width.toNat ≤ _; omega, by show b.top.toNat + height.toNat ≤ _; omega, ?_⟩
  intro x y hx hy
  change x < width.toNat at hx
  change y < height.toNat at hy
  have column : (b.left + .ofNat x).toNat = b.left.toNat + x := by
    rw [UInt32.toNat_add, toNat_ofNat_of_lt hx]
    omega
  have row : (b.top + .ofNat y).toNat = b.top.toNat + y := by
    rw [UInt32.toNat_add, toNat_ofNat_of_lt hy]
    omega
  have mod : (y * width.toNat + x) % width.toNat = x := by
    rw [Nat.mul_comm, Nat.mul_add_mod, Nat.mod_eq_of_lt hx]
  have div : (y * width.toNat + x) / width.toNat = y := by
    rw [Nat.mul_comm, Nat.mul_add_div (by omega), Nat.div_eq_of_lt hx, Nat.add_zero]
  simp only [pixelAt, Array.getElem_ofFn, mod, div]
  rw [pixel?_of_lt (by omega) (by omega), Option.getD_some]
  simp only [pixelAt, column, row]

/-- An image that is what is left of a canvas around its content: the bounds of the content with some padding, as far
as the canvas reaches. -/
structure Trims (image c : Canvas) (b : Bounds) (padding : Nat) : Prop where
  width_eq :
    image.width.toNat = min (b.right.toNat + padding) (c.width.toNat - 1) - (b.left.toNat - padding) + 1
  height_eq :
    image.height.toNat = min (b.bottom.toNat + padding) (c.height.toNat - 1) - (b.top.toNat - padding) + 1
  shows : image.ShowsFrom c (b.left.toNat - padding) (b.top.toNat - padding)
  kept : ∀ x y, c.Inked x y →
    ∃! place : Nat × Nat, (place.1 < image.width.toNat ∧ place.2 < image.height.toNat) ∧
      b.left.toNat - padding + place.1 = x.toNat ∧ b.top.toNat - padding + place.2 = y.toNat
  lost : ∀ x y hx hy,
    (∀ place : Nat × Nat, place.1 < image.width.toNat ∧ place.2 < image.height.toNat →
      ¬(b.left.toNat - padding + place.1 = x ∧ b.top.toNat - padding + place.2 = y)) →
    c.pixelAt x y hx hy = background

/-- Padding only adds to the content, so the content is kept. -/
theorem trims_of_shows {image : Canvas} {padding : Nat} (frames : b.Frames c.Inked)
    (width_eq : image.width.toNat = min (b.right.toNat + padding) (c.width.toNat - 1) - (b.left.toNat - padding) + 1)
    (height_eq :
      image.height.toNat = min (b.bottom.toNat + padding) (c.height.toNat - 1) - (b.top.toNat - padding) + 1)
    (shows : image.ShowsFrom c (b.left.toNat - padding) (b.top.toNat - padding)) : image.Trims c b padding := by
  obtain ⟨columns, rows, right, bottom⟩ := liesOn_of_frames frames
  have inside {x y : UInt32} (inked : c.Inked x y) :
      b.left.toNat ≤ x.toNat ∧ x.toNat ≤ b.right.toNat ∧ b.top.toNat ≤ y.toNat ∧ y.toNat ≤ b.bottom.toNat := by
    simpa only [Bounds.Holds, UInt32.le_iff_toNat_le] using frames.holds x y inked
  refine ⟨width_eq, height_eq, shows, ?_, ?_⟩
  · intro x y inked
    have held := inside inked
    refine ⟨(x.toNat - (b.left.toNat - padding), y.toNat - (b.top.toNat - padding)), ?_, ?_⟩
    · simp only
      omega
    · rintro ⟨column, row⟩ ⟨-, eqs⟩
      simp only [Prod.mk.injEq] at eqs ⊢
      omega
  · intro x y hx hy away
    have column := toNat_ofNat_of_lt hx
    have row := toNat_ofNat_of_lt hy
    by_contra filled
    have held := inside ((inked_ofNat hx hy).2 filled)
    rw [column, row] at held
    refine away (x - (b.left.toNat - padding), y - (b.top.toNat - padding)) ?_ ?_
    · simp only
      omega
    · simp only
      omega

theorem crop_of_frames (padding : UInt32) (frames : b.Frames c.Inked) :
    ∃ image, c.crop padding = .ok image ∧ image.Trims c b padding.toNat := by
  obtain ⟨image, cut, width_eq, height_eq, shows⟩ := cut_of_liesOn ((liesOn_of_frames frames).padded padding)
  simp only [Bounds.toNat_left_padded, Bounds.toNat_top_padded, Bounds.toNat_right_padded,
    Bounds.toNat_bottom_padded] at width_eq height_eq shows
  refine ⟨image, ?_, trims_of_shows frames width_eq height_eq shows⟩
  rw [crop, contentBounds_eq_some_iff.2 frames]
  exact cut

theorem crop_of_blank (padding : UInt32) (blank : ∀ x y, ¬c.Inked x y) : c.crop padding = .ok c := by
  rw [crop, contentBounds_eq_none_iff.2 blank]

/-- The border of a canvas can always be cut away. -/
theorem exists_crop (c : Canvas) (padding : UInt32) : ∃ image, c.crop padding = .ok image := by
  cases content : c.contentBounds with
  | none => exact ⟨c, crop_of_blank padding (contentBounds_eq_none_iff.1 content)⟩
  | some b =>
    obtain ⟨image, cropped, -⟩ := crop_of_frames padding (contentBounds_eq_some_iff.1 content)
    exact ⟨image, cropped⟩

/-- Cropping leaves the content with its padding and cuts off nothing but background. A canvas without content stays
as it is. -/
theorem crop_spec (c : Canvas) (padding : UInt32) :
    ∃ image, c.crop padding = .ok image ∧ ((∀ x y, ¬c.Inked x y) → image = c) ∧
      ∀ b : Bounds, b.Frames c.Inked → image.Trims c b padding.toNat := by
  obtain ⟨image, cropped⟩ := exists_crop c padding
  refine ⟨image, cropped, ?_, ?_⟩
  · intro blank
    rw [crop_of_blank padding blank] at cropped
    exact (Except.ok.inj cropped).symm
  · intro b frames
    obtain ⟨trimmed, cropped', trims⟩ := crop_of_frames padding frames
    obtain rfl : image = trimmed := Except.ok.inj (cropped.symm.trans cropped')
    exact trims

end Canvas
end CycleChart
