import CycleChart.Batch.Render
import CycleChart.Proofs.Drawing.Faithful

namespace CycleChart

open Drawing

section

variable [Typeface]

theorem Drawing.Item.extent_paint (c : Canvas) (i : Item) :
    (i.paint c).width = c.width ∧ (i.paint c).height = c.height := by
  cases i with
  | text t =>
    rw [paint]
    induction Typeface.dots t generalizing c with
    | nil => exact ⟨rfl, rfl⟩
    | cons dot dots ih => exact ih _
  | area a color => exact ⟨rfl, rfl⟩
  | _ s =>
    cases s with
    | horizontal y first last => exact ⟨rfl, rfl⟩
    | vertical x first last =>
      simp only [paint, Canvas.stroke]
      split <;> exact ⟨rfl, rfl⟩

theorem Drawing.Item.extent_foldl (items : List Item) (c : Canvas) :
    (items.foldl paint c).width = c.width ∧ (items.foldl paint c).height = c.height := by
  induction items generalizing c with
  | nil => exact ⟨rfl, rfl⟩
  | cons i items ih =>
    obtain ⟨wide, high⟩ := ih (paint c i)
    obtain ⟨width, height⟩ := extent_paint c i
    exact ⟨wide.trans width, high.trans height⟩

theorem Drawing.Page.extent_canvas {p : Page} {c : Canvas} (h : p.canvas = .ok c) :
    c.width = p.width ∧ c.height = p.height := by
  rw [canvas] at h
  split at h
  · cases h
    exact Item.extent_foldl p.items _
  · cases h

end

/-- There is at least one column or row between two that are in order. -/
theorem Bounds.span_ne_zero {first last n : UInt32} (h : span first last = .ok n) : n ≠ 0 := by
  rw [span] at h
  split at h
  · have sum := addSizes_eq_ok_iff.1 h
    rintro rfl
    rw [show (1 : UInt32).toNat = 1 from rfl, show (0 : UInt32).toNat = 0 from rfl] at sum
    omega
  · cases h

theorem Canvas.crop_filled {c cropped : Canvas} {padding : UInt32} (h : c.crop padding = .ok cropped)
    (wide : c.width ≠ 0) (high : c.height ≠ 0) : cropped.width ≠ 0 ∧ cropped.height ≠ 0 := by
  rw [crop] at h
  split at h
  · cases h
    exact ⟨wide, high⟩
  · obtain ⟨width, columns, h⟩ := bind_eq_ok h
    obtain ⟨height, rows, h⟩ := bind_eq_ok h
    cases h
    exact ⟨Bounds.span_ne_zero columns, Bounds.span_ne_zero rows⟩

theorem max_ne_zero {a b : UInt32} (h : a ≠ 0 ∨ b ≠ 0) : max a b ≠ 0 := by
  show (if a ≤ b then b else a) ≠ 0
  split
  · rename_i le
    rintro rfl
    have none : a = 0 := UInt32.le_zero_iff.1 le
    exact h.elim (· none) (· rfl)
  · rename_i more
    rintro rfl
    exact more (UInt32.zero_le)

theorem Figure.canvasSize_filled {f : Figure} {lines : Nat} {size : UInt32 × UInt32}
    (h : f.canvasSize lines = .ok size) : size.1 ≠ 0 ∧ size.2 ≠ 0 := by
  obtain ⟨needed, -, h⟩ := bind_eq_ok h
  cases h
  exact ⟨max_ne_zero (.inr (by decide)), max_ne_zero (.inl (max_ne_zero (.inr (by decide))))⟩

/-- Every picture has pixels. -/
theorem Chart.picture_filled [Typeface] {c : Chart} {f : Figure} {picture : Canvas} (h : c.picture f = .ok picture) :
    picture.lack? = none := by
  obtain ⟨page, drawn, h⟩ := bind_eq_ok h
  obtain ⟨canvas, painted, h⟩ := bind_eq_ok h
  have filled : page.width ≠ 0 ∧ page.height ≠ 0 := by
    obtain ⟨sized, -⟩ := parts_of_page drawn
    exact Figure.canvasSize_filled sized
  obtain ⟨width, height⟩ := Page.extent_canvas painted
  obtain ⟨wide, high⟩ := Canvas.crop_filled h (width ▸ filled.1) (height ▸ filled.2)
  simp [Canvas.lack?, wide, high]

end CycleChart
