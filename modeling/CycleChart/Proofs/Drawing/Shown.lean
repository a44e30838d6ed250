import CycleChart.Drawing.Page

namespace CycleChart.Drawing

namespace Item

/-- The text that an item is. -/
def text? : Item → Option Lettering
  | text t => some t
  | _ => none

/-- The area that an item fills, with its colour. -/
def area? : Item → Option (Area × Color)
  | area a color => some (a, color)
  | _ => none

end Item

/-- The texts of some items, in the order in which they are drawn. -/
def texts (items : List Item) : List Lettering := items.filterMap Item.text?

/-- The areas that some items fill, in the order in which they are drawn. -/
def areas (items : List Item) : List (Area × Color) := items.filterMap Item.area?

@[simp] theorem texts_text (t : Lettering) (items : List Item) : texts (.text t :: items) = t :: texts items := rfl

@[simp] theorem areas_text (t : Lettering) (items : List Item) : areas (.text t :: items) = areas items := rfl

@[simp] theorem texts_area (a : Area) (color : Color) (items : List Item) :
    texts (.area a color :: items) = texts items := rfl

@[simp] theorem areas_area (a : Area) (color : Color) (items : List Item) :
    areas (.area a color :: items) = (a, color) :: areas items := rfl

@[simp] theorem texts_axisLine (s : Stroke) (items : List Item) : texts (.axisLine s :: items) = texts items := rfl

@[simp] theorem areas_axisLine (s : Stroke) (items : List Item) : areas (.axisLine s :: items) = areas items := rfl

@[simp] theorem texts_append (items others : List Item) : texts (items ++ others) = texts items ++ texts others :=
  List.filterMap_append

@[simp] theorem areas_append (items others : List Item) : areas (items ++ others) = areas items ++ areas others :=
  List.filterMap_append

section

variable {α : Type} (l : List α)

@[simp] theorem texts_map_text (f : α → Lettering) : texts (l.map fun x => .text (f x)) = l.map f := by
  induction l with
  | nil => rfl
  | cons x l ih => simp [ih]

@[simp] theorem areas_map_text (f : α → Lettering) : areas (l.map fun x => .text (f x)) = [] := by
  induction l with
  | nil => rfl
  | cons x l ih => simp [ih]

end

/-! The parts of a page. -/

@[simp] theorem texts_gridItems (p : Plot) : texts (gridItems p) = [] := by
  unfold gridItems texts
  simp [List.filterMap_map, Function.comp_def, Item.text?]

@[simp] theorem areas_gridItems (p : Plot) : areas (gridItems p) = [] := by
  unfold gridItems areas
  simp [List.filterMap_map, Function.comp_def, Item.area?]

@[simp] theorem texts_barItems (p : Plot) : texts (barItems p) = [] := by
  unfold barItems texts
  simp [List.filterMap_map, Function.comp_def, Item.text?]

@[simp] theorem areas_barItems (p : Plot) :
    areas (barItems p) = ((barAreas p).mergeSort before).map (·, .skyBlue) := by
  unfold barItems areas
  simp [List.filterMap_map, Function.comp_def, Item.area?]

@[simp] theorem areas_annotationItems (p : Plot) (size : Binary.Double) : areas (annotationItems p size) = [] :=
  areas_map_text _ _

@[simp] theorem areas_summaryItems (f : Figure) (region : Area) (s : Summary) :
    areas (summaryItems f region s) = [] :=
  areas_map_text _ _

namespace Edge

variable (p : Plot) (strip : Area) (size : Binary.Double) (e : Edge)

theorem areas_tickItems (column : Int) (t : Tick) : areas (e.tickItems p strip column size t) = [] := by
  rw [tickItems]
  split
  split <;> rfl

theorem texts_tickItems (outside : isInward p strip = false) (column : Int) (t : Tick) :
    texts (e.tickItems p strip column size t) = [e.outwardLabel strip p.tickLength column size t] := by
  simp only [tickItems, outside, Bool.false_eq_true, if_false]
  split <;> rfl

@[simp] theorem areas_items : areas (e.items p strip size) = [] := by
  simp only [items, areas_axisLine]
  rw [areas, List.filterMap_flatMap]
  exact List.flatMap_eq_nil_iff.2 fun t _ => areas_tickItems p strip size e _ t

/-- The texts on a side outside the bars are what the marks on its axis are called. -/
theorem texts_items (outside : isInward p strip = false) :
    texts (e.items p strip size) =
      ((e.ticks p).filter (e.holds p)).map (e.outwardLabel strip p.tickLength (e.column p size) size) := by
  simp only [items, outside, Bool.false_eq_true, if_false, texts_axisLine]
  rw [texts, List.filterMap_flatMap, List.map_eq_flatMap]
  congr 1
  funext t
  exact texts_tickItems p strip size e outside _ t

end Edge

end CycleChart.Drawing
