import CycleChart.Files.Host
import CycleChart.OrderedMap

namespace CycleChart

/-- Where something lies: the names on the way to it from the root. -/
abbrev Location := List Name

/-- What the links of a file system are. Each stands for a path. -/
class Links (L : Type) where
  path : L → Path

instance : Links Path := ⟨id⟩

/-- A file system without links. -/
instance : Links Empty := ⟨Empty.elim⟩

/-- A file, a directory with what it holds under names, or a link. -/
inductive Node (L : Type) where
  | file (c : Content)
  | directory (inside : List (Name × Node L))
  | link (target : L)

abbrev Children (L : Type) := List (Name × Node L)

/-- What a node is on its own, whatever a directory holds. -/
inductive Entry (L : Type) where
  | directory
  | file (c : Content)
  | link (target : L)
deriving DecidableEq

variable {L : Type}

instance (here : Option (Entry L)) : Decidable (here = some .directory) :=
  match here with
  | some .directory => isTrue rfl
  | some (.file _) | some (.link _) | none => isFalse nofun

def Entry.node : Entry L → Node L
  | directory => .directory []
  | file c => .file c
  | link target => .link target

namespace Node

def entry : Node L → Entry L
  | file c => .file c
  | directory _ => .directory
  | link target => .link target

def find? (name : Name) : Node L → Option (Node L)
  | directory inside => lookupEntry name inside
  | _ => none

/-- What lies at a location inside a node. -/
def get? : Node L → Location → Option (Node L)
  | n, [] => some n
  | n, name :: l =>
    match n.find? name with
    | some child => child.get? l
    | none => none

theorem get?_append (n : Node L) (l rest : Location) : n.get? (l ++ rest) = (n.get? l).bind (·.get? rest) := by
  induction l generalizing n with
  | nil => rfl
  | cons name l ih =>
    simp only [List.cons_append, get?]
    cases n.find? name with
    | none => rfl
    | some child => exact ih child

theorem entry_of_get? {n : Node L} {l : Location} (filled : l ≠ []) (there : n.get? l ≠ none) :
    n.entry = .directory := by
  cases l with
  | nil => exact absurd rfl filled
  | cons name l =>
    cases n with
    | directory inside => rfl
    | file c => exact absurd rfl there
    | link target => exact absurd rfl there

theorem get?_node (e : Entry L) {l : Location} (h : l ≠ []) : e.node.get? l = none := by
  cases l with
  | nil => exact absurd rfl h
  | cons name l => cases e <;> rfl

theorem entry_node (e : Entry L) : e.node.entry = e := by cases e <;> rfl

/-- Every directory holds its nodes by ascending names, so it holds a name once. -/
inductive Ordered : Node L → Prop where
  | file (c : Content) : Ordered (file c)
  | link (target : L) : Ordered (link target)
  | directory {inside : Children L} (ascending : inside.Pairwise (·.1 < ·.1))
      (each : ∀ child ∈ inside, Ordered child.2) : Ordered (directory inside)

theorem ordered_node (e : Entry L) : e.node.Ordered := by
  cases e with
  | directory => exact .directory .nil nofun
  | file c => exact .file c
  | link target => exact .link target

/-- Puts a node under a name into the directory at a location, if there is one. -/
def put (name : Name) (n : Node L) : Location → Children L → Children L
  | [], inside => insertEntry name n inside
  | first :: l, inside =>
    match lookupEntry first inside with
    | some (directory deeper) => insertEntry first (directory (put name n l deeper)) inside
    | _ => inside

theorem ordered_insertEntry {inside : Children L} {name : Name} {n : Node L} (h : (directory inside).Ordered)
    (new : n.Ordered) : (directory (insertEntry name n inside)).Ordered := by
  cases h with
  | directory ascending each =>
    refine .directory (pairwise_insertEntry ascending) fun child mem => ?_
    rcases mem_insertEntry mem with rfl | mem
    · exact new
    · exact each child mem

theorem ordered_put {name : Name} {n : Node L} (new : n.Ordered) (l : Location) {inside : Children L}
    (h : (directory inside).Ordered) : (directory (put name n l inside)).Ordered := by
  induction l generalizing inside with
  | nil => exact ordered_insertEntry h new
  | cons first l ih =>
    simp only [put]
    split
    · rename_i deeper found
      refine ordered_insertEntry h (ih ?_)
      cases h with
      | directory _ each => exact each _ (mem_of_lookupEntry found)
    · exact h

/-- The directory into which a node was put holds it. -/
theorem get?_put {name : Name} {n : Node L} {l : Location} {inside held : Children L}
    (h : (directory inside).get? l = some (directory held)) (rest : Location) :
    (directory (put name n l inside)).get? (l ++ rest) = (directory (insertEntry name n held)).get? rest := by
  induction l generalizing inside with
  | nil =>
    cases h
    rfl
  | cons first l ih =>
    simp only [get?, find?] at h
    cases found : lookupEntry first inside with
    | none => simp [found] at h
    | some child =>
      simp only [found] at h
      have directed : child.entry = .directory := by
        cases l with
        | nil =>
          cases h
          rfl
        | cons next l => exact entry_of_get? (List.cons_ne_nil next l) (by simp [h])
      cases child with
      | directory deeper =>
        simp only [put, found, List.cons_append, get?, find?, lookupEntry_insertEntry, if_true]
        exact ih h
      | file c => cases directed
      | link target => cases directed

/-- What lies neither in the directory into which a node was put, nor below it, is what it was. -/
theorem entry_get?_put (name : Name) (n : Node L) {l other : Location} (inside : Children L) (h : ¬l <+: other) :
    ((directory (put name n l inside)).get? other).map entry = ((directory inside).get? other).map entry := by
  induction l generalizing other inside with
  | nil => exact absurd (List.nil_prefix) h
  | cons first l ih =>
    cases other with
    | nil => rfl
    | cons next other =>
      simp only [put]
      split
      · rename_i deeper found
        simp only [get?, find?, lookupEntry_insertEntry]
        by_cases same : next = first
        · subst same
          simp only [if_true, found]
          exact ih deeper fun below => h (List.cons_prefix_cons.2 ⟨rfl, below⟩)
        · simp [same]
      · rfl

/-- A new entry changes no other, unless it takes the place of a directory. -/
theorem get?_put_node {inside : Children L} {l : Location} {name : Name}
    (h : ((directory inside).get? l).map entry = some .directory)
    (free : ((directory inside).get? (l ++ [name])).map entry ≠ some .directory) (e : Entry L) (other : Location) :
    ((directory (put name e.node l inside)).get? other).map entry =
      if other = l ++ [name] then some e else ((directory inside).get? other).map entry := by
  obtain ⟨n, found, directed⟩ := Option.map_eq_some_iff.1 h
  cases n with
  | file c => cases directed
  | link target => cases directed
  | directory held =>
    by_cases below : l <+: other
    · obtain ⟨rest, rfl⟩ := below
      have before (rest : Location) : ((directory inside).get? (l ++ rest)).map entry =
          ((directory held).get? rest).map entry := by
        rw [get?_append, found, Option.bind_some]
      rw [get?_put found, before]
      rw [before] at free
      cases rest with
      | nil => simp [get?, entry]
      | cons first rest =>
        simp only [List.append_cancel_left_eq, List.cons.injEq, get?, find?, lookupEntry_insertEntry] at free ⊢
        by_cases same : first = name
        · subst same
          cases rest with
          | nil => simp [get?, entry_node]
          | cons next rest =>
            simp only [if_true, get?_node e (List.cons_ne_nil next rest)]
            cases old : lookupEntry first held with
            | none => simp
            | some n =>
              rw [old] at free
              have nothing : n.get? (next :: rest) = none := by
                apply Classical.byContradiction
                intro there
                exact free (congrArg some (entry_of_get? (List.cons_ne_nil next rest) there))
              simp [nothing]
        · simp [same]
    · have apart : other ≠ l ++ [name] := fun eq => below ⟨[name], eq.symm⟩
      rw [if_neg apart]
      exact entry_get?_put name e.node inside below

end Node
end CycleChart
