import CycleChart.Proofs.Canvas.Extent
import CycleChart.Proofs.Canvas.Recropping

namespace CycleChart

/-- A canvas as drawing leaves it: bytes, of which each pixel should have three. -/
structure Buffer where
  width : UInt32
  height : UInt32
  bytes : Array UInt8

/-- A byte and the place where it goes. -/
structure Write where
  place : Nat
  byte : UInt8

/-- The channels of a colour, in the order of its bytes. -/
def Color.channel (c : Color) : Fin 3 → UInt8
  | 0 => c.red
  | 1 => c.green
  | 2 => c.blue

namespace Buffer

/-- How many bytes the pixels take. -/
def count (b : Buffer) : Nat := b.width.toNat * b.height.toNat * 3

/-- A white buffer, unless its bytes are too many to be held. -/
def blank (width height : UInt32) : Except Overflow Buffer :=
  if width.toNat * height.toNat * 3 < 0x8000000000000000 then
    .ok ⟨width, height, Array.replicate (width.toNat * height.toNat * 3) 255⟩
  else .error .canvasArea

/-- Writes a byte. Drawing has no access to places outside. -/
def write (b : Buffer) (w : Write) : Buffer := { b with bytes := b.bytes.setIfInBounds w.place w.byte }

def draw (b : Buffer) (writes : List Write) : Buffer := writes.foldl write b

/-- The pixels of a buffer, if it has bytes for all of them. -/
def canvas? (b : Buffer) : Option Canvas :=
  if b.count ≤ b.bytes.size then
    some {
      width := b.width
      height := b.height
      pixels := Array.ofFn fun i : Fin (b.height.toNat * b.width.toNat) =>
        ⟨b.bytes.getD (3 * i) 0, b.bytes.getD (3 * i + 1) 0, b.bytes.getD (3 * i + 2) 0⟩
      size_eq := Array.size_ofFn }
  else none

/-- What is left of a buffer if its background is cut away, down to some padding. -/
def crop? (b : Buffer) (padding : UInt32) : Option (Except Overflow Canvas) := b.canvas?.map (·.crop padding)

/-! What drawing leaves as it is. -/

variable {b : Buffer}

/-- Whether a buffer has three bytes for each pixel. -/
def IsWhole (b : Buffer) : Prop := b.bytes.size = b.count

theorem isWhole_blank {width height : UInt32} (h : blank width height = .ok b) :
    b.width = width ∧ b.height = height ∧ b.IsWhole := by
  rw [blank] at h
  split at h
  · cases h
    exact ⟨rfl, rfl, Array.size_replicate⟩
  · cases h

theorem IsWhole.write (h : b.IsWhole) (w : Write) : (b.write w).IsWhole := Array.size_setIfInBounds.trans h

/-- Drawing leaves the size of a buffer, and its bytes as many as they are. -/
theorem IsWhole.draw (h : b.IsWhole) (writes : List Write) :
    (b.draw writes).width = b.width ∧ (b.draw writes).height = b.height ∧ (b.draw writes).IsWhole := by
  induction writes generalizing b with
  | nil => exact ⟨rfl, rfl, h⟩
  | cons w writes ih =>
    obtain ⟨width, height, whole⟩ := ih (h.write w)
    exact ⟨width, height, whole⟩

/-- A whole buffer that has columns and rows has a picture with columns and rows. -/
theorem IsWhole.exists_crop (h : b.IsWhole) (wide : b.width ≠ 0) (high : b.height ≠ 0) (padding : UInt32) :
    ∃ picture, b.crop? padding = some (.ok picture) ∧ picture.width ≠ 0 ∧ picture.height ≠ 0 := by
  have enough : b.count ≤ b.bytes.size := Nat.le_of_eq h.symm
  rw [crop?, canvas?, if_pos enough, Option.map_some]
  obtain ⟨picture, cropped⟩ := Canvas.exists_crop _ padding
  exact ⟨picture, congrArg some cropped, Canvas.crop_filled cropped wide high⟩

end Buffer

/-! A canvas as the bytes that are written for it. -/

namespace Canvas

/-- The byte at a place: that of a channel of the pixel there. -/
def byteAt (c : Canvas) (place : Nat) : UInt8 :=
  (c.pixels.getD (place / 3) background).channel (Fin.ofNat 3 place)

theorem byteAt_add (c : Canvas) (i : Nat) (k : Fin 3) :
    c.byteAt (3 * i + k) = (c.pixels.getD i background).channel k := by
  have pixel : (3 * i + k) / 3 = i := by omega
  have channel : Fin.ofNat 3 (3 * i + k) = k := Fin.ext (by simp only [Fin.val_ofNat]; omega)
  rw [byteAt, pixel, channel]

/-- The bytes up to a place, from the first on. -/
def writesBelow (c : Canvas) (n : Nat) : List Write := (List.range n).map fun i => ⟨i, c.byteAt i⟩

def writes (c : Canvas) : List Write := c.writesBelow (c.width.toNat * c.height.toNat * 3)

variable {c : Canvas} {b : Buffer}

theorem draw_writesBelow_succ (n : Nat) :
    b.draw (c.writesBelow (n + 1)) = (b.draw (c.writesBelow n)).write ⟨n, c.byteAt n⟩ := by
  rw [writesBelow, writesBelow, List.range_succ, List.map_append, Buffer.draw, List.foldl_append]
  rfl

theorem getD_draw_writesBelow (whole : b.IsWhole) {n place : Nat} (le : n ≤ b.count) (written : place < n) :
    (b.draw (c.writesBelow n)).bytes.getD place 0 = c.byteAt place := by
  -- on how many bytes are written: each step adds one and leaves those before it
  induction n with
  | zero => cases written
  | succ n ih =>
    obtain ⟨width, height, drawn⟩ := whole.draw (c.writesBelow n)
    have inside : n < (b.draw (c.writesBelow n)).bytes.size := by
      rw [Buffer.IsWhole, Buffer.count, width, height] at drawn
      exact drawn ▸ le
    rw [draw_writesBelow_succ, Buffer.write, Array.getD_eq_getD_getElem?, Array.getElem?_setIfInBounds]
    by_cases last : n = place
    · rw [if_pos last, if_pos inside, last]
      rfl
    · rw [if_neg last, ← Array.getD_eq_getD_getElem?]
      exact ih (by omega) (by omega)

/-- Written into a buffer of its size, a canvas is what the buffer shows. -/
theorem canvas?_draw_writes (whole : b.IsWhole) (width_eq : b.width = c.width) (height_eq : b.height = c.height) :
    (b.draw c.writes).canvas? = some c := by
  obtain ⟨width, height, drawn⟩ := whole.draw c.writes
  have count : c.width.toNat * c.height.toNat * 3 = b.count := by rw [Buffer.count, width_eq, height_eq]
  rw [Buffer.canvas?, if_pos (Nat.le_of_eq drawn.symm), Option.some.injEq]
  apply eq_of_pixelAt (width.trans width_eq) (height.trans height_eq)
  intro x y hx hy hx' hy'
  have inside : y * c.width.toNat + x < c.height.toNat * c.width.toNat := place_lt hx' hy'
  have channel (k : Fin 3) : (b.draw c.writes).bytes.getD (3 * (y * c.width.toNat + x) + k) 0 =
      (c.pixelAt x y hx' hy').channel k := by
    have within : 3 * (y * c.width.toNat + x) + k < b.count := by
      rw [← count, Nat.mul_comm c.width.toNat]
      omega
    rw [writes, count, getD_draw_writesBelow whole (Nat.le_refl _) within, byteAt_add, pixelAt, Array.getD,
      dif_pos (c.size_eq ▸ inside)]
    rfl
  simp only [pixelAt, Array.getElem_ofFn, width, width_eq]
  exact congr (congrArg₂ Color.mk (channel 0) (channel 1)) (channel 2)

end Canvas

end CycleChart
