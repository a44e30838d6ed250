import CycleChart.Files.Tree
import Mathlib.Data.List.Sort

namespace CycleChart

theorem lookupEntry_of_mem {ν : Type} {name : Name} {value : ν} {entries : List (Name × ν)}
    (ascending : entries.Pairwise (·.1 < ·.1)) (mem : (name, value) ∈ entries) :
    lookupEntry name entries = some value := by
  induction entries with
  | nil => cases mem
  | cons head rest ih =>
    obtain ⟨least, ascending⟩ := List.pairwise_cons.1 ascending
    rw [lookupEntry]
    rcases List.mem_cons.1 mem with rfl | later
    · rw [if_pos rfl]
    · have below : head.1 < name := least _ later
      rw [if_neg (Std.ne_of_lt below).symm, ih ascending later]

/-- Entries in ascending order are the same if the same is found under every name. -/
theorem eq_of_lookupEntry {ν : Type} {xs ys : List (Name × ν)} (hx : xs.Pairwise (·.1 < ·.1))
    (hy : ys.Pairwise (·.1 < ·.1)) (same : ∀ name, lookupEntry name xs = lookupEntry name ys) : xs = ys := by
  have irrefl : Std.Irrefl fun a b : Name × ν => a.1 < b.1 := ⟨fun a => List.lt_irrefl a.1⟩
  have antisymm : Std.Antisymm fun a b : Name × ν => a.1 < b.1 :=
    ⟨fun a b before after => absurd (Std.lt_trans before after) (List.lt_irrefl a.1)⟩
  apply List.Pairwise.eq_of_mem_iff hx hy
  rintro ⟨name, value⟩
  constructor
  · intro mem
    apply mem_of_lookupEntry
    rw [← same, lookupEntry_of_mem hx mem]
  · intro mem
    apply mem_of_lookupEntry
    rw [same, lookupEntry_of_mem hy mem]

variable {L : Type}

theorem Node.get?_directory (inside : Children L) (name : Name) (l : Location) :
    (directory inside).get? (name :: l) = (lookupEntry name inside).bind (·.get? l) := by
  rw [get?, find?]
  cases lookupEntry name inside <;> rfl

/-- Nodes whose directories are in order are the same if the same lies at every location in them. -/
theorem Node.Ordered.eq_of_get? {n m : Node L} (hn : n.Ordered) (hm : m.Ordered)
    (same : ∀ l, (n.get? l).map entry = (m.get? l).map entry) : n = m := by
  induction hn generalizing m with
  | file c =>
    have here := same []
    cases m with
    | file d =>
      cases here
      rfl
    | directory inside => cases here
    | link target => cases here
  | link target =>
    have here := same []
    cases m with
    | file c => cases here
    | directory inside => cases here
    | link other =>
      cases here
      rfl
  | @directory inside ascending each ih =>
    cases hm with
    | file c => cases same []
    | link target => cases same []
    | @directory held ascending' each' =>
      congr
      apply eq_of_lookupEntry ascending ascending'
      intro name
      have below (l : Location) : ((lookupEntry name inside).bind (·.get? l)).map entry =
          ((lookupEntry name held).bind (·.get? l)).map entry := by
        rw [← get?_directory, ← get?_directory]
        exact same (name :: l)
      cases first : lookupEntry name inside with
      | none =>
        cases second : lookupEntry name held with
        | none => rfl
        | some other =>
          have here := below []
          rw [first, second] at here
          cases here
      | some child =>
        cases second : lookupEntry name held with
        | none =>
          have here := below []
          rw [first, second] at here
          cases here
        | some other =>
          rw [first, second] at below
          exact congrArg some (ih _ (mem_of_lookupEntry first) (each' _ (mem_of_lookupEntry second)) below)

/-- Trees are the same if the same is set for them and the same lies at every location in them. -/
theorem Tree.eq_of_get? {t u : Tree L} (set : t.toSetting = u.toSetting) (same : ∀ l, t.get? l = u.get? l) : t = u := by
  obtain ⟨setting, inside, ordered⟩ := t
  obtain ⟨setting', held, ordered'⟩ := u
  obtain rfl : setting = setting' := set
  have nodes : Node.directory inside = Node.directory held := ordered.eq_of_get? ordered' same
  cases nodes
  rfl

end CycleChart
