import CycleChart.Canvas.Basic
import Mathlib.Order.Basic

namespace CycleChart

/-- What each step of a count hands on to the next one holds at its end. -/
theorem fold_induction {α : Type} {P : Nat → α → Prop} {n : Nat} {f : (i : Nat) → i < n → α → α} {a : α}
    (start : P 0 a) (step : ∀ i h a, P i a → P (i + 1) (f i h a)) : P n (n.fold f a) := by
  induction n with
  | zero => exact start
  | succ n ih =>
    rw [Nat.fold_succ]
    exact step n _ _ (ih fun i h a => step i _ a)

theorem toNat_min (a b : UInt32) : (min a b).toNat = min a.toNat b.toNat := by
  show (if a ≤ b then a else b).toNat = _
  split
  · rename_i le
    exact (Nat.min_eq_left (UInt32.le_iff_toNat_le.1 le)).symm
  · rename_i more
    exact (Nat.min_eq_right (Nat.le_of_not_le fun le => more (UInt32.le_iff_toNat_le.2 le))).symm

theorem toNat_max (a b : UInt32) : (max a b).toNat = max a.toNat b.toNat := by
  show (if a ≤ b then b else a).toNat = _
  split
  · rename_i le
    exact (Nat.max_eq_right (UInt32.le_iff_toNat_le.1 le)).symm
  · rename_i more
    exact (Nat.max_eq_left (Nat.le_of_not_le fun le => more (UInt32.le_iff_toNat_le.2 le))).symm

/-- A column or a row of a canvas has a number of 32 bits. -/
theorem toNat_ofNat_of_lt {i : Nat} {size : UInt32} (h : i < size.toNat) : (UInt32.ofNat i).toNat = i :=
  UInt32.toNat_ofNat_of_lt' (Nat.lt_trans h size.toNat_lt)

namespace Bounds

/-- Whether a pixel lies in a rectangle. -/
def Holds (b : Bounds) (x y : UInt32) : Prop := b.left ≤ x ∧ x ≤ b.right ∧ b.top ≤ y ∧ y ≤ b.bottom

/-- A rectangle that lies on a canvas of some size, with its edges in order. -/
structure LiesOn (b : Bounds) (width height : UInt32) : Prop where
  columns : b.left.toNat ≤ b.right.toNat
  rows : b.top.toNat ≤ b.bottom.toNat
  right : b.right.toNat < width.toNat
  bottom : b.bottom.toNat < height.toNat

/-- A rectangle around all places with ink that has ink on each of its sides. -/
structure Frames (b : Bounds) (ink : UInt32 → UInt32 → Prop) : Prop where
  holds : ∀ x y, ink x y → b.Holds x y
  left : ∃ y, ink b.left y
  top : ∃ x, ink x b.top
  right : ∃ y, ink b.right y
  bottom : ∃ x, ink x b.bottom

variable {b outer : Bounds} {ink : UInt32 → UInt32 → Prop}

/-- No rectangle around all places with ink is smaller than one with ink on each side. -/
theorem Frames.least (h : b.Frames ink) (around : ∀ x y, ink x y → outer.Holds x y) {x y : UInt32}
    (inside : b.Holds x y) : outer.Holds x y := by
  obtain ⟨-, ⟨_, left⟩, ⟨_, top⟩, ⟨_, right⟩, ⟨_, bottom⟩⟩ := h
  obtain ⟨atLeft, atRight, atTop, atBottom⟩ := inside
  exact ⟨UInt32.le_trans (around _ _ left).1 atLeft, UInt32.le_trans atRight (around _ _ right).2.1,
    UInt32.le_trans (around _ _ top).2.2.1 atTop, UInt32.le_trans atBottom (around _ _ bottom).2.2.2⟩

/-- There is one such rectangle at most. -/
theorem Frames.unique (h : b.Frames ink) (h' : outer.Frames ink) : b = outer := by
  have sides {b b' : Bounds} (h : b.Frames ink) (h' : b'.Frames ink) :
      b.left ≤ b'.left ∧ b.top ≤ b'.top ∧ b'.right ≤ b.right ∧ b'.bottom ≤ b.bottom := by
    obtain ⟨-, ⟨_, left⟩, ⟨_, top⟩, ⟨_, right⟩, ⟨_, bottom⟩⟩ := h'
    exact ⟨(h.holds _ _ left).1, (h.holds _ _ top).2.2.1, (h.holds _ _ right).2.1, (h.holds _ _ bottom).2.2.2⟩
  obtain ⟨left, top, right, bottom⟩ := sides h h'
  obtain ⟨left', top', right', bottom'⟩ := sides h' h
  rw [Bounds.mk.injEq]
  exact ⟨UInt32.le_antisymm left left', UInt32.le_antisymm top top', UInt32.le_antisymm right' right,
    UInt32.le_antisymm bottom' bottom⟩

/-- The rectangle for all rows so far, if they have any ink. -/
def Framed (ink : UInt32 → UInt32 → Prop) : Option Bounds → Prop
  | none => ∀ x y, ¬ink x y
  | some b => b.Frames ink

end Bounds

namespace Canvas

/-- A place whose pixel is not background. -/
def Inked (c : Canvas) (x y : UInt32) : Prop := ∃ color, c.pixel? x y = some color ∧ color ≠ background

section

variable {c : Canvas} {x y : UInt32}

theorem pixel?_of_lt (hx : x.toNat < c.width.toNat) (hy : y.toNat < c.height.toNat) :
    c.pixel? x y = some (c.pixelAt x.toNat y.toNat hx hy) :=
  dif_pos ⟨hx, hy⟩

theorem inked_iff : c.Inked x y ↔ ∃ hx hy, c.pixelAt x.toNat y.toNat hx hy ≠ background := by
  unfold Inked pixel?
  split
  · rename_i inside
    simp [inside]
  · rename_i outside
    simp only [reduceCtorEq, false_and, exists_false, false_iff]
    rintro ⟨hx, hy, -⟩
    exact outside ⟨hx, hy⟩

theorem Inked.column_lt (h : c.Inked x y) : x.toNat < c.width.toNat := (inked_iff.1 h).1

theorem Inked.row_lt (h : c.Inked x y) : y.toNat < c.height.toNat := (inked_iff.1 h).2.1

theorem inked_ofNat {i j : Nat} (hi : i < c.width.toNat) (hj : j < c.height.toNat) :
    c.Inked (.ofNat i) (.ofNat j) ↔ c.pixelAt i j hi hj ≠ background := by
  have column := toNat_ofNat_of_lt hi
  have row := toNat_ofNat_of_lt hj
  rw [inked_iff]
  simp only [column, row, exists_prop_of_true hi, exists_prop_of_true hj]

end

/-- The first and the last of some places with ink, among those from zero up to a number. -/
structure Ends (ink : UInt32 → Prop) (n : Nat) (first last : UInt32) : Prop where
  first_lt : first.toNat < n
  first_inked : ink first
  last_inked : ink last
  between : ∀ x, x.toNat < n → ink x → first ≤ x ∧ x ≤ last

def EndsOf (ink : UInt32 → Prop) (n : Nat) : Option (UInt32 × UInt32) → Prop
  | none => ∀ x, x.toNat < n → ¬ink x
  | some (first, last) => Ends ink n first last

variable (c : Canvas)

theorem ends_rowEnds (y : Nat) (hy : y < c.height.toNat) :
    EndsOf (c.Inked · (.ofNat y)) c.width.toNat (c.rowEnds y hy) := by
  apply fold_induction (P := EndsOf (c.Inked · (.ofNat y)))
  · intro x lt
    omega
  · intro i hi ends before
    have column := toNat_ofNat_of_lt hi
    have ink := inked_ofNat hi hy
    -- a column up to this one is this one or an earlier one
    have last {x : UInt32} (lt : x.toNat < i + 1) : x.toNat < i ∨ x = .ofNat i := by
      rw [← UInt32.toNat_inj, column]
      omega
    split
    · rename_i blank
      have none : ¬c.Inked (.ofNat i) (.ofNat y) := fun inked => ink.1 inked blank
      cases ends with
      | none =>
        intro x lt inked
        rcases last lt with lt | rfl
        · exact before x lt inked
        · exact none inked
      | some ends =>
        obtain ⟨first_lt, first_inked, last_inked, between⟩ := before
        refine ⟨by omega, first_inked, last_inked, ?_⟩
        intro x lt inked
        rcases last lt with lt | rfl
        · exact between x lt inked
        · exact absurd inked none
    · rename_i filled
      have here : c.Inked (.ofNat i) (.ofNat y) := ink.2 filled
      cases ends with
      | none =>
        refine ⟨by omega, here, here, ?_⟩
        intro x lt inked
        rcases last lt with lt | rfl
        · exact absurd inked (before x lt)
        · exact ⟨UInt32.le_refl _, UInt32.le_refl _⟩
      | some ends =>
        obtain ⟨first_lt, first_inked, last_inked, between⟩ := before
        refine ⟨by show ends.1.toNat < _; omega, first_inked, here, ?_⟩
        intro x lt inked
        rw [UInt32.le_iff_toNat_le, UInt32.le_iff_toNat_le, column]
        rcases last lt with lt | rfl
        · have := UInt32.le_iff_toNat_le.1 (between x lt inked).1
          omega
        · rw [column]
          omega

/-- The rows above some row that hold ink. -/
def inkAbove (rows : Nat) (x y : UInt32) : Prop := y.toNat < rows ∧ c.Inked x y

variable {c} {y : Nat} (hy : y < c.height.toNat)
include hy

theorem inkAbove_succ_iff {x y' : UInt32} :
    c.inkAbove (y + 1) x y' ↔ c.inkAbove y x y' ∨ y' = .ofNat y ∧ c.Inked x y' := by
  have row := toNat_ofNat_of_lt hy
  rw [inkAbove, inkAbove, ← UInt32.toNat_inj, row, ← or_and_right, Nat.lt_succ_iff_lt_or_eq]

theorem inkAbove_succ_here {x : UInt32} (inked : c.Inked x (.ofNat y)) : c.inkAbove (y + 1) x (.ofNat y) :=
  (inkAbove_succ_iff hy).2 (.inr ⟨rfl, inked⟩)

theorem inkAbove_succ_of_blank (blank : ∀ x, ¬c.Inked x (.ofNat y)) : c.inkAbove (y + 1) = c.inkAbove y := by
  funext x y'
  rw [inkAbove_succ_iff hy]
  refine propext (or_iff_left ?_)
  rintro ⟨rfl, inked⟩
  exact blank x inked

variable {first last : UInt32} (ends : Ends (c.Inked · (.ofNat y)) c.width.toNat first last)
include ends

theorem frames_ofRow (above : ∀ x y', ¬c.inkAbove y x y') :
    (Bounds.ofRow first last (.ofNat y)).Frames (c.inkAbove (y + 1)) := by
  have atFirst := inkAbove_succ_here hy ends.first_inked
  have atLast := inkAbove_succ_here hy ends.last_inked
  refine ⟨?_, ⟨_, atFirst⟩, ⟨_, atFirst⟩, ⟨_, atLast⟩, ⟨_, atFirst⟩⟩
  intro x y' ink
  rcases (inkAbove_succ_iff hy).1 ink with ink | ⟨rfl, inked⟩
  · exact absurd ink (above x y')
  · obtain ⟨left, right⟩ := ends.between x inked.column_lt inked
    exact ⟨left, right, UInt32.le_refl _, UInt32.le_refl _⟩

theorem frames_addRow {b : Bounds} (above : b.Frames (c.inkAbove y)) :
    (b.addRow first last (.ofNat y)).Frames (c.inkAbove (y + 1)) := by
  have row := toNat_ofNat_of_lt hy
  have atFirst := inkAbove_succ_here hy ends.first_inked
  have atLast := inkAbove_succ_here hy ends.last_inked
  have higher {x y' : UInt32} (ink : c.inkAbove y x y') : c.inkAbove (y + 1) x y' :=
    (inkAbove_succ_iff hy).2 (.inl ink)
  obtain ⟨holds, ⟨_, left⟩, ⟨_, top⟩, ⟨_, right⟩, -⟩ := above
  refine ⟨?_, ?_, ⟨_, higher top⟩, ?_, ⟨_, atFirst⟩⟩
  · intro x y' ink
    simp only [Bounds.Holds, Bounds.addRow, UInt32.le_iff_toNat_le, toNat_min, toNat_max, row]
    have topRow := top.1
    rcases (inkAbove_succ_iff hy).1 ink with ink | ⟨rfl, inked⟩
    · have inside := holds x y' ink
      have lower := ink.1
      simp only [Bounds.Holds, UInt32.le_iff_toNat_le] at inside
      omega
    · have between := ends.between x inked.column_lt inked
      simp only [UInt32.le_iff_toNat_le] at between
      omega
  · show ∃ y', c.inkAbove (y + 1) (if b.left ≤ first then b.left else first) y'
    split
    · exact ⟨_, higher left⟩
    · exact ⟨_, atFirst⟩
  · show ∃ y', c.inkAbove (y + 1) (if b.right ≤ last then last else b.right) y'
    split
    · exact ⟨_, atLast⟩
    · exact ⟨_, higher right⟩

omit hy ends
variable (c)

/-- What is found on a canvas are the bounds of its ink. -/
theorem framed_contentBounds : Bounds.Framed c.Inked c.contentBounds := by
  have whole : c.inkAbove c.height.toNat = c.Inked := by
    funext x y
    exact propext ⟨And.right, fun inked => ⟨inked.row_lt, inked⟩⟩
  rw [contentBounds]
  split
  · rename_i empty
    intro x y inked
    have filled := inked.column_lt
    rw [empty] at filled
    exact absurd filled (Nat.not_lt_zero _)
  · rw [← whole]
    apply fold_induction (P := fun rows found => Bounds.Framed (c.inkAbove rows) found)
    · intro x y ink
      exact absurd ink.1 (Nat.not_lt_zero _)
    · intro y hy found above
      have ends := c.ends_rowEnds y hy
      split
      · rename_i blank
        rw [blank] at ends
        rwa [inkAbove_succ_of_blank hy fun x inked => ends x inked.column_lt inked]
      · rename_i row
        rw [row] at ends
        exact frames_ofRow hy ends above
      · rename_i row
        rw [row] at ends
        exact frames_addRow hy ends above

variable {c}

theorem liesOn_of_frames {b : Bounds} (h : b.Frames c.Inked) : b.LiesOn c.width c.height := by
  obtain ⟨holds, ⟨_, left⟩, ⟨_, top⟩, ⟨_, right⟩, ⟨_, bottom⟩⟩ := h
  exact ⟨UInt32.le_iff_toNat_le.1 (holds _ _ left).2.1, UInt32.le_iff_toNat_le.1 (holds _ _ top).2.2.2,
    right.column_lt, bottom.row_lt⟩

theorem contentBounds_eq_none_iff : c.contentBounds = none ↔ ∀ x y, ¬c.Inked x y := by
  have framed := c.framed_contentBounds
  cases found : c.contentBounds with
  | none =>
    rw [found] at framed
    exact ⟨fun _ => framed, fun _ => rfl⟩
  | some b =>
    rw [found] at framed
    refine ⟨nofun, fun blank => ?_⟩
    obtain ⟨y, ink⟩ := framed.left
    exact absurd ink (blank _ y)

theorem contentBounds_eq_some_iff {b : Bounds} : c.contentBounds = some b ↔ b.Frames c.Inked := by
  have framed := c.framed_contentBounds
  cases found : c.contentBounds with
  | none =>
    rw [found] at framed
    refine ⟨nofun, fun frames => ?_⟩
    obtain ⟨y, ink⟩ := frames.left
    exact absurd ink (framed _ y)
  | some found =>
    rw [found] at framed
    rw [Option.some_inj]
    exact ⟨fun eq => eq ▸ framed, fun frames => framed.unique frames⟩

/-- A canvas without ink is background in every column and row. -/
theorem not_inked_iff : (∀ x y, ¬c.Inked x y) ↔ ∀ x y, x < c.width → y < c.height → c.pixel? x y = some background := by
  constructor
  · intro blank x y hx hy
    rw [pixel?_of_lt (UInt32.lt_iff_toNat_lt.1 hx) (UInt32.lt_iff_toNat_lt.1 hy), Option.some_inj]
    by_contra filled
    exact blank x y (inked_iff.2 ⟨_, _, filled⟩)
  · rintro same x y ⟨color, pixel, filled⟩
    have hx := UInt32.lt_iff_toNat_lt.2 (Inked.column_lt ⟨color, pixel, filled⟩)
    have hy := UInt32.lt_iff_toNat_lt.2 (Inked.row_lt ⟨color, pixel, filled⟩)
    rw [same x y hx hy, Option.some_inj] at pixel
    exact filled pixel.symm

end Canvas
end CycleChart
