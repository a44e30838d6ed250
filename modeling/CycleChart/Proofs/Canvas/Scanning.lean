import CycleChart.Proofs.Canvas.Bytes

namespace CycleChart

variable {α β : Type}

/-- Some parts of one size that a list starts with, one after the other. -/
def chunks (size : Nat) : (count : Nat) → List α → List (List α)
  | 0, _ => []
  | count + 1, l => l.take size :: chunks size count (l.drop size)

/-- All parts of one size that a list starts with. A rest that is too short for one is left out. -/
def chunksExact (size : Nat) (l : List α) : List (List α) := chunks size (l.length / size) l

/-- Each part starts as many places from the start as those before it have. -/
theorem chunks_eq (size count : Nat) (l : List α) :
    chunks size count l = (List.range count).map fun i => (l.drop (i * size)).take size := by
  induction count generalizing l with
  | zero => rfl
  | succ count ih =>
    rw [chunks, ih, List.range_succ_eq_map, List.map_cons, List.map_map, Nat.zero_mul, List.drop_zero]
    refine congrArg _ (List.map_congr_left fun i _ => ?_)
    rw [List.drop_drop, Function.comp_apply, Nat.succ_mul, Nat.add_comm]

theorem zipIdx_map_range (f : Nat → α) (n : Nat) :
    ((List.range n).map f).zipIdx = (List.range n).map fun i => (f i, i) := by
  apply List.ext_getElem
  · simp
  · intro i h h'
    simp

/-- Going through the numbers below another one is going through a list of them. -/
theorem fold_eq_foldl_range {n : Nat} {f : (i : Nat) → i < n → α → α} {g : α → Nat → α}
    (same : ∀ i hi a, f i hi a = g a i) (a : α) : n.fold f a = (List.range n).foldl g a := by
  induction n with
  | zero => rfl
  | succ n ih =>
    rw [Nat.fold_succ, List.range_succ, List.foldl_append, ih fun i hi a => same i _ a]
    exact same n _ _

/-- The first and the last of some columns. -/
def outermost : List UInt32 → Option (UInt32 × UInt32)
  | [] => none
  | first :: rest => some (first, rest.getLast?.getD first)

/-- The ends of some columns with one more after them. -/
def extendTo (ends : Option (UInt32 × UInt32)) (x : UInt32) : Option (UInt32 × UInt32) :=
  match ends with
  | none => some (x, x)
  | some (first, _) => some (first, x)

theorem outermost_concat (columns : List UInt32) (x : UInt32) :
    outermost (columns ++ [x]) = extendTo (outermost columns) x := by
  cases columns with
  | nil => rfl
  | cons first rest => simp [outermost, extendTo]

/-- The ends of the columns that are kept are found from left to right. -/
theorem outermost_filter (keep : Nat → Bool) (n : Nat) :
    outermost (((List.range n).filter keep).map .ofNat) =
      (List.range n).foldl (fun ends x => if keep x then extendTo ends (.ofNat x) else ends) none := by
  induction n with
  | zero => rfl
  | succ n ih =>
    rw [List.range_succ, List.filter_append, List.map_append, List.foldl_append, ← ih]
    cases kept : keep n with
    | true => simp [kept, outermost_concat]
    | false => simp [kept]

/-- The bytes of a colour. -/
def Color.bytes (c : Color) : List UInt8 := [c.red, c.green, c.blue]

theorem Color.bytes_inj {c d : Color} : c.bytes = d.bytes ↔ c = d := by
  rw [Color.mk.injEq]
  simp [bytes]

namespace Buffer

open Canvas (background)

/-- The columns of a row of bytes whose pixels are not background. -/
def columns (row : List UInt8) : List UInt32 :=
  ((chunksExact 3 row).zipIdx.filter fun (pixel, _) => pixel ≠ background.bytes).map fun (_, x) => .ofNat x

/-- The bounds of some rows and the ends of a lower one. A row of background adds nothing. -/
def addEnds (found : Option Bounds) (y : UInt32) : Option (UInt32 × UInt32) → Option Bounds
  | none => found
  | some (first, last) =>
    match found with
    | none => some (.ofRow first last y)
    | some b => some (b.addRow first last y)

/-- The least rectangle that holds every pixel that is not background. The bytes are gone through row by row, and each
row pixel by pixel. -/
def contentBounds (b : Buffer) : Option Bounds :=
  let rowSize := b.width.toNat * 3
  if rowSize = 0 then none
  else (chunksExact rowSize b.bytes.toList).zipIdx.foldl
    (fun found (row, y) => addEnds found (.ofNat y) (outermost (columns row))) none

variable {b : Buffer}

theorem IsWhole.offset_lt (whole : b.IsWhole) {x y : Nat} (hx : x < b.width.toNat) (hy : y < b.height.toNat) :
    (y * b.width.toNat + x) * 3 + 3 ≤ b.bytes.size := by
  have place := Canvas.place_lt hx hy
  rw [whole, count, Nat.mul_comm b.width.toNat]
  omega

/-- The pixel in a column and a row, by where its bytes are. All of them are there. -/
def pixel? (b : Buffer) (whole : b.IsWhole) (x y : UInt32) : Option Color :=
  if h : x.toNat < b.width.toNat ∧ y.toNat < b.height.toNat then
    let offset := (y.toNat * b.width.toNat + x.toNat) * 3
    have inside : offset + 3 ≤ b.bytes.size := whole.offset_lt h.1 h.2
    some ⟨b.bytes[offset], b.bytes[offset + 1], b.bytes[offset + 2]⟩
  else none

/-- A place of a whole buffer whose pixel is not background. -/
def Inked (b : Buffer) (whole : b.IsWhole) (x y : UInt32) : Prop :=
  ∃ color, b.pixel? whole x y = some color ∧ color ≠ background

/-! Both ways of reading a buffer see the same canvas. -/

section

variable (whole : b.IsWhole) {c : Canvas} (shown : b.canvas? = some c)
include whole shown

theorem size_of_shown : b.width = c.width ∧ b.height = c.height := by
  rw [canvas?, if_pos (Nat.le_of_eq whole.symm), Option.some.injEq] at shown
  subst shown
  exact ⟨rfl, rfl⟩

/-- The bytes of a pixel follow those of the pixels before it. -/
theorem pixelAt_of_shown {x y : Nat} (hx : x < c.width.toNat) (hy : y < c.height.toNat)
    (inside : (y * b.width.toNat + x) * 3 + 3 ≤ b.bytes.size) :
    c.pixelAt x y hx hy = ⟨b.bytes[(y * b.width.toNat + x) * 3], b.bytes[(y * b.width.toNat + x) * 3 + 1],
      b.bytes[(y * b.width.toNat + x) * 3 + 2]⟩ := by
  rw [canvas?, if_pos (Nat.le_of_eq whole.symm), Option.some.injEq] at shown
  subst shown
  simp only [Canvas.pixelAt, Array.getElem_ofFn, Nat.mul_comm 3, Array.getD]
  rw [dif_pos (by omega), dif_pos (by omega), dif_pos (by omega)]
  rfl

theorem pixel?_eq (x y : UInt32) : b.pixel? whole x y = c.pixel? x y := by
  obtain ⟨width, height⟩ := size_of_shown whole shown
  simp only [pixel?, Canvas.pixel?, width, height]
  split
  · rename_i place
    have inside := whole.offset_lt (width ▸ place.1) (height ▸ place.2)
    rw [pixelAt_of_shown whole shown place.1 place.2 inside]
    simp only [width]
  · rfl

/-- A part of three bytes of a row has the bytes of a pixel. -/
theorem bytes_pixelAt {x y : Nat} (hx : x < c.width.toNat) (hy : y < c.height.toNat) :
    (((b.bytes.toList.drop (y * (b.width.toNat * 3))).take (b.width.toNat * 3)).drop (x * 3)).take 3 =
      (c.pixelAt x y hx hy).bytes := by
  obtain ⟨width, height⟩ := size_of_shown whole shown
  have inside := whole.offset_lt (width ▸ hx) (height ▸ hy)
  have offset : y * (b.width.toNat * 3) + x * 3 = (y * b.width.toNat + x) * 3 := by
    rw [← Nat.mul_assoc, Nat.add_mul]
  have rest : min 3 (b.width.toNat * 3 - x * 3) = 3 := by
    rw [width]
    omega
  rw [List.drop_take, List.take_take, rest, List.drop_drop, offset, pixelAt_of_shown whole shown hx hy inside,
    List.drop_eq_getElem_cons (by simp; omega), List.drop_eq_getElem_cons (by simp; omega),
    List.drop_eq_getElem_cons (by simp; omega)]
  rfl

/-- In every row, both find the same ends. -/
theorem rowEnds_eq {y : Nat} (hy : y < c.height.toNat) :
    outermost (columns ((b.bytes.toList.drop (y * (b.width.toNat * 3))).take (b.width.toNat * 3))) =
      c.rowEnds y hy := by
  obtain ⟨width, height⟩ := size_of_shown whole shown
  have length : ((b.bytes.toList.drop (y * (b.width.toNat * 3))).take (b.width.toNat * 3)).length / 3 =
      c.width.toNat := by
    have filled : y * (b.width.toNat * 3) + b.width.toNat * 3 ≤ b.bytes.size := by
      rw [← Nat.succ_mul, ← Nat.mul_assoc, whole, count, Nat.mul_comm b.width.toNat, height]
      exact Nat.mul_le_mul_right 3 (Nat.mul_le_mul_right _ hy)
    rw [List.length_take, List.length_drop, Array.length_toList, min_eq_left (by omega), Nat.mul_div_cancel _ (by decide),
      width]
  rw [columns, chunksExact, chunks_eq, length, zipIdx_map_range, List.filter_map, List.map_map]
  change outermost (((List.range c.width.toNat).filter _).map .ofNat) = _
  rw [outermost_filter, Canvas.rowEnds, fold_eq_foldl_range]
  intro x hx ends
  simp only [Function.comp_apply, bytes_pixelAt whole shown hx hy, ne_eq, decide_eq_true_eq, Color.bytes_inj]
  split <;> rfl

theorem contentBounds_eq : b.contentBounds = c.contentBounds := by
  obtain ⟨width, height⟩ := size_of_shown whole shown
  rw [contentBounds, Canvas.contentBounds, width]
  by_cases empty : c.width = 0
  · rw [if_pos empty, if_pos (by rw [empty]; rfl)]
  · have positive : 0 < c.width.toNat * 3 := Nat.mul_pos (UInt32.pos_iff_ne_zero.2 empty) (by decide)
    have rows : b.bytes.toList.length / (c.width.toNat * 3) = c.height.toNat := by
      rw [Array.length_toList, whole, count, width, height, Nat.mul_comm c.width.toNat, Nat.mul_assoc,
        Nat.mul_div_cancel _ positive]
    rw [if_neg empty, if_neg positive.ne', chunksExact, chunks_eq, rows, zipIdx_map_range, List.foldl_map]
    symm
    apply fold_eq_foldl_range
    intro y hy found
    change _ = addEnds found (.ofNat y) (outermost (columns _))
    rw [← width, rowEnds_eq whole shown hy]
    cases c.rowEnds y hy with
    | none => rfl
    | some ends => cases found <;> rfl

theorem inked_eq : b.Inked whole = c.Inked := by
  funext x y
  rw [Inked, Canvas.Inked, pixel?_eq whole shown]

end

theorem IsWhole.exists_canvas (whole : b.IsWhole) : ∃ c, b.canvas? = some c :=
  ⟨_, if_pos (Nat.le_of_eq whole.symm)⟩

/-- What is found by going through the bytes row by row agrees with each pixel found by its place. There are no bounds
just if every pixel is background. Otherwise the bounds hold each pixel that is not, and have one on each side. They lie
on the canvas, inside every other rectangle around these pixels. The canvas that is shown has the same pixels and the
same bounds. -/
theorem contentBounds_spec (b : Buffer) (whole : b.IsWhole) :
    (b.contentBounds = none ↔ ∀ x y, x < b.width → y < b.height → b.pixel? whole x y = some background) ∧
      (∀ bounds, b.contentBounds = some bounds ↔ bounds.Frames (b.Inked whole)) ∧
      (∀ bounds : Bounds, bounds.Frames (b.Inked whole) → bounds.LiesOn b.width b.height ∧
        ∀ outer : Bounds, (∀ x y, b.Inked whole x y → outer.Holds x y) →
          ∀ x y, bounds.Holds x y → outer.Holds x y) ∧
      ∀ c, b.canvas? = some c → c.contentBounds = b.contentBounds ∧ ∀ x y, c.pixel? x y = b.pixel? whole x y := by
  refine and_assoc.1 (and_assoc.1 ⟨?_, fun c shown =>
    ⟨(contentBounds_eq whole shown).symm, fun x y => (pixel?_eq whole shown x y).symm⟩⟩)
  obtain ⟨c, shown⟩ := whole.exists_canvas
  obtain ⟨width, height⟩ := size_of_shown whole shown
  rw [and_assoc]
  simp only [contentBounds_eq whole shown, inked_eq whole shown, pixel?_eq whole shown, width, height]
  refine ⟨Canvas.contentBounds_eq_none_iff.trans Canvas.not_inked_iff, fun bounds => Canvas.contentBounds_eq_some_iff,
    fun bounds frames => ?_⟩
  exact ⟨Canvas.liesOn_of_frames frames, fun outer around x y => frames.least around⟩

/-- Two pixels in a row. In one of them a single channel is not that of the background. -/
def offWhite : Buffer := ⟨2, 1, #[255, 255, 255, 255, 254, 255]⟩

theorem contentBounds_offWhite :
    offWhite.IsWhole ∧ offWhite.contentBounds = some ⟨1, 0, 1, 0⟩ ∧
      ∀ whole, (⟨1, 0, 1, 0⟩ : Bounds).Frames (offWhite.Inked whole) := by
  have found : offWhite.contentBounds = some ⟨1, 0, 1, 0⟩ := by decide
  refine ⟨rfl, found, fun whole => ?_⟩
  obtain ⟨-, frames, -⟩ := contentBounds_spec offWhite whole
  exact (frames _).1 found

end Buffer
end CycleChart
