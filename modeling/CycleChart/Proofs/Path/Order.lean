import CycleChart.Proofs.Path.Naming
import Mathlib.Data.List.Lex

namespace CycleChart

/-- The kinds of parts in their order. -/
def Component.kind : Component → Nat
  | .root => 0
  | .current => 1
  | .parent => 2
  | .normal _ => 3

/-- The order of parts: by their kinds, and names by their bytes. -/
inductive Component.Before : Component → Component → Prop
  | kind {a b : Component} (less : a.kind < b.kind) : Before a b
  | name {a b : List UInt8} (less : a < b) : Before (.normal a) (.normal b)

namespace Path

/-- The order of paths: part by part, from the front. -/
def Before (p q : Path) : Prop := List.Lex Component.Before p.components q.components

/-- One step further from a directory, a path has one more part. Nothing is kept of a lone dot. -/
theorem components_step (directory : Path) {name : List UInt8} (clear : slash ∉ name)
    (normal : component? name = some (.normal name)) :
    (directory.step name).components =
      (if directory.isCurrent then [] else directory.components) ++ [.normal name] := by
  rw [step]
  split
  · exact components_of_name clear normal
  · exact components_join directory clear normal

/-- Paths right inside one directory come in the order of their names. -/
theorem before_step (directory : Path) {a b : List UInt8} (less : a < b)
    (clear : slash ∉ a) (clear' : slash ∉ b) (normal : component? a = some (.normal a))
    (normal' : component? b = some (.normal b)) : (directory.step a).Before (directory.step b) := by
  rw [Before, components_step directory clear normal, components_step directory clear' normal']
  exact List.Lex.append_left _ (.rel (.name less)) _

end Path
end CycleChart
