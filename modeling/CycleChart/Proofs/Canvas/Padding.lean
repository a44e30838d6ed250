import CycleChart.Proofs.Canvas.Cropping

namespace CycleChart

namespace Bounds

/-- Whether a pixel lies at most so many columns and rows away from a rectangle. -/
def Reaches (b : Bounds) (distance : Nat) (x y : UInt32) : Prop :=
  b.left.toNat ≤ x.toNat + distance ∧ x.toNat ≤ b.right.toNat + distance ∧
    b.top.toNat ≤ y.toNat + distance ∧ y.toNat ≤ b.bottom.toNat + distance

/-- A rectangle that is part of another one. -/
def Within (b outer : Bounds) : Prop := ∀ x y, b.Holds x y → outer.Holds x y

variable {b : Bounds} {width height x y : UInt32}

theorem reaches_zero_iff : b.Reaches 0 x y ↔ b.Holds x y := by
  simp only [Reaches, Holds, Nat.add_zero, UInt32.le_iff_toNat_le]

theorem Reaches.mono {near far : Nat} (h : b.Reaches near x y) (le : near ≤ far) : b.Reaches far x y := by
  obtain ⟨left, right, top, bottom⟩ := h
  exact ⟨by omega, by omega, by omega, by omega⟩

/-- Rectangles with the same edges are the same. -/
theorem eq_of_edges {outer : Bounds} (left : b.left.toNat = outer.left.toNat) (top : b.top.toNat = outer.top.toNat)
    (right : b.right.toNat = outer.right.toNat) (bottom : b.bottom.toNat = outer.bottom.toNat) : b = outer := by
  rw [Bounds.mk.injEq]
  exact ⟨UInt32.toNat_inj.1 left, UInt32.toNat_inj.1 top, UInt32.toNat_inj.1 right, UInt32.toNat_inj.1 bottom⟩

/-- Two borders, one around the other, make one border as wide as both. No canvas is larger than the limit, so a border
of that width covers as much as any wider one. -/
theorem padded_twice (last p q : Nat) {first size limit : Nat} (first_le : first ≤ limit) (size_le : size ≤ limit) :
    first - p - q = first - min (p + q) limit ∧
      min (min (last + p) (size - 1) + q) (size - 1) = min (last + min (p + q) limit) (size - 1) := by
  omega

theorem padded_padded (b : Bounds) (p q width height : UInt32) :
    (b.padded p width height).padded q width height = b.padded (addUpTo p q) width height := by
  have upTo (n : UInt32) : n.toNat ≤ 0xFFFFFFFF := Nat.le_of_lt_succ n.toNat_lt
  obtain ⟨left, right⟩ := padded_twice b.right.toNat p.toNat q.toNat (upTo b.left) (upTo width)
  obtain ⟨top, bottom⟩ := padded_twice b.bottom.toNat p.toNat q.toNat (upTo b.top) (upTo height)
  apply eq_of_edges <;>
    simpa only [toNat_left_padded, toNat_top_padded, toNat_right_padded, toNat_bottom_padded, toNat_addUpTo]

/-- What lies between two columns or rows of a canvas is at most the whole of it. -/
theorem exists_span {first last size : UInt32} (le : first.toNat ≤ last.toNat) (lt : last.toNat < size.toNat) :
    ∃ n, span first last = .ok n ∧ first.toNat + n.toNat = last.toNat + 1 ∧ n ≤ size := by
  obtain ⟨n, counted, count⟩ := span_of_lt le lt
  exact ⟨n, counted, by omega, UInt32.le_iff_toNat_le.2 (by omega)⟩

namespace LiesOn

variable (h : b.LiesOn width height)
include h

theorem lt_of_holds (inside : b.Holds x y) : x < width ∧ y < height := by
  obtain ⟨-, -, right, bottom⟩ := h
  obtain ⟨-, columns, -, rows⟩ := inside
  exact ⟨UInt32.lt_iff_toNat_lt.2 (Nat.lt_of_le_of_lt (UInt32.le_iff_toNat_le.1 columns) right),
    UInt32.lt_iff_toNat_lt.2 (Nat.lt_of_le_of_lt (UInt32.le_iff_toNat_le.1 rows) bottom)⟩

/-- With its border, a rectangle holds the pixels of the canvas that are near enough to it. -/
theorem holds_padded_iff (padding : UInt32) :
    (b.padded padding width height).Holds x y ↔ b.Reaches padding.toNat x y ∧ x < width ∧ y < height := by
  obtain ⟨-, -, right, bottom⟩ := h
  simp only [Holds, Reaches, UInt32.le_iff_toNat_le, UInt32.lt_iff_toNat_lt, toNat_left_padded, toNat_top_padded,
    toNat_right_padded, toNat_bottom_padded]
  omega

theorem within_padded (padding : UInt32) : b.Within (b.padded padding width height) := by
  intro x y inside
  have near : b.Reaches padding.toNat x y := (reaches_zero_iff.2 inside).mono (Nat.zero_le _)
  exact (h.holds_padded_iff padding).2 ⟨near, h.lt_of_holds inside⟩

theorem padded_within {p q : UInt32} (le : p ≤ q) :
    (b.padded p width height).Within (b.padded q width height) := by
  intro x y inside
  obtain ⟨near, onCanvas⟩ := (h.holds_padded_iff p).1 inside
  exact (h.holds_padded_iff q).2 ⟨near.mono (UInt32.le_iff_toNat_le.1 le), onCanvas⟩

end LiesOn

/-- With a border, a rectangle lies on its canvas as before and can be measured. It is the part of the canvas that is
near enough to the rectangle without the border, so it holds all of that, and more the wider the border is. A second
border around the first one makes one border as wide as both. -/
theorem padded_spec (h : b.LiesOn width height) (p q : UInt32) :
    (b.padded p width height).LiesOn width height ∧
      b.Within (b.padded p width height) ∧
      (∀ x y, (b.padded p width height).Holds x y ↔ b.Reaches p.toNat x y ∧ x < width ∧ y < height) ∧
      (∃ columns, (b.padded p width height).width = .ok columns ∧
        (b.padded p width height).left.toNat + columns.toNat = (b.padded p width height).right.toNat + 1 ∧
        columns ≤ width) ∧
      (∃ rows, (b.padded p width height).height = .ok rows ∧
        (b.padded p width height).top.toNat + rows.toNat = (b.padded p width height).bottom.toNat + 1 ∧
        rows ≤ height) ∧
      (p ≤ q → (b.padded p width height).Within (b.padded q width height)) ∧
      (b.padded p width height).padded q width height = b.padded (addUpTo p q) width height := by
  have onCanvas := h.padded p
  refine ⟨onCanvas, h.within_padded p, fun x y => h.holds_padded_iff p, ?_, ?_, h.padded_within, ?_⟩
  · exact exists_span onCanvas.columns onCanvas.right
  · exact exists_span onCanvas.rows onCanvas.bottom
  · exact padded_padded b p q width height

/-- A rectangle that leaves out the two outermost columns on each side of the widest canvas. -/
def wideBounds : Bounds := ⟨2, 0, 0xFFFFFFFC, 29⟩

/-- A border of one column and one of all columns, whose sum needs more than 32 bits. -/
theorem padded_spec_wide :
    wideBounds.LiesOn 0xFFFFFFFF 30 ∧
      (wideBounds.padded 1 0xFFFFFFFF 30).width = .ok 0xFFFFFFFD ∧
      (wideBounds.padded 1 0xFFFFFFFF 30).Within (wideBounds.padded 0xFFFFFFFF 0xFFFFFFFF 30) ∧
      (wideBounds.padded 1 0xFFFFFFFF 30).padded 0xFFFFFFFF 0xFFFFFFFF 30 = ⟨0, 0, 0xFFFFFFFE, 29⟩ := by
  have lies : wideBounds.LiesOn 0xFFFFFFFF 30 := ⟨by decide, by decide, by decide, by decide⟩
  obtain ⟨-, -, -, ⟨columns, counted, count, -⟩, -, wider, twice⟩ := padded_spec lies 1 0xFFFFFFFF
  have left : (wideBounds.padded 1 0xFFFFFFFF 30).left.toNat = 1 := by decide
  have right : (wideBounds.padded 1 0xFFFFFFFF 30).right.toNat = 0xFFFFFFFD := by decide
  have all : columns = 0xFFFFFFFD := by
    rw [left, right] at count
    exact UInt32.toNat_inj.1 (show columns.toNat = 0xFFFFFFFD by omega)
  exact ⟨lies, all ▸ counted, wider (by decide), twice.trans (by decide)⟩

example : (⟨1, 0, 38, 29⟩ : Bounds).padded 5 40 30 = ⟨0, 0, 39, 29⟩ := by decide

end Bounds

end CycleChart
