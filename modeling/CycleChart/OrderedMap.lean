namespace CycleChart

section Entries

variable {κ ν : Type} [DecidableEq κ]

def lookupEntry (key : κ) : List (κ × ν) → Option ν
  | [] => none
  | (other, value) :: rest => if key = other then some value else lookupEntry key rest

theorem mem_of_lookupEntry {key : κ} {value : ν} {entries : List (κ × ν)}
    (h : lookupEntry key entries = some value) : (key, value) ∈ entries := by
  induction entries with
  | nil => simp [lookupEntry] at h
  | cons head rest ih =>
    obtain ⟨other, old⟩ := head
    simp only [lookupEntry] at h
    split at h
    · rename_i same
      simp_all
    · exact List.mem_cons_of_mem _ (ih h)

theorem lookupEntry_isSome_iff {key : κ} {entries : List (κ × ν)} :
    (lookupEntry key entries).isSome ↔ key ∈ entries.map (·.1) := by
  induction entries with
  | nil => simp [lookupEntry]
  | cons head rest ih =>
    rw [lookupEntry, List.map_cons, List.mem_cons]
    split
    · rename_i same
      simp [same]
    · rename_i other
      rw [ih]
      exact ⟨.inr, fun mem => mem.resolve_left other⟩

theorem lookupEntry_append (key : κ) (xs ys : List (κ × ν)) :
    lookupEntry key (xs ++ ys) = (lookupEntry key xs).or (lookupEntry key ys) := by
  induction xs with
  | nil => rfl
  | cons head rest ih =>
    rw [List.cons_append, lookupEntry, lookupEntry]
    split
    · rfl
    · exact ih

variable [LT κ] [DecidableLT κ]

/-- Inserts a key before the first greater one, in place of the same key. -/
def insertEntry (key : κ) (value : ν) : List (κ × ν) → List (κ × ν)
  | [] => [(key, value)]
  | (other, old) :: rest =>
    if key = other then (key, value) :: rest
    else if key < other then (key, value) :: (other, old) :: rest
    else (other, old) :: insertEntry key value rest

theorem mem_insertEntry {key : κ} {value : ν} {entries : List (κ × ν)} {entry : κ × ν}
    (h : entry ∈ insertEntry key value entries) : entry = (key, value) ∨ entry ∈ entries := by
  induction entries with
  | nil => simpa [insertEntry] using h
  | cons head rest ih =>
    obtain ⟨other, old⟩ := head
    simp only [insertEntry] at h
    split at h
    · rcases List.mem_cons.1 h with h | h
      · exact .inl h
      · exact .inr (List.mem_cons_of_mem _ h)
    · split at h
      · rcases List.mem_cons.1 h with h | h
        · exact .inl h
        · exact .inr h
      · rcases List.mem_cons.1 h with h | h
        · exact .inr (by simp [h])
        · rcases ih h with h | h
          · exact .inl h
          · exact .inr (List.mem_cons_of_mem _ h)

theorem lookupEntry_insertEntry (key other : κ) (value : ν) (entries : List (κ × ν)) :
    lookupEntry other (insertEntry key value entries) =
      if other = key then some value else lookupEntry other entries := by
  induction entries with
  | nil => rfl
  | cons head rest ih =>
    obtain ⟨first, old⟩ := head
    by_cases same : key = first
    · subst same
      by_cases h : other = key <;> simp [insertEntry, lookupEntry, h]
    · by_cases before : key < first
      · simp [insertEntry, lookupEntry, same, before]
      · by_cases h : other = first
        · subst h
          simp [insertEntry, lookupEntry, same, before, Ne.symm same]
        · simp [insertEntry, lookupEntry, same, before, h, ih]

theorem pairwise_insertEntry [LE κ] [Std.LawfulOrderLT κ] [Std.IsLinearOrder κ] {key : κ} {value : ν}
    {entries : List (κ × ν)} (h : entries.Pairwise (·.1 < ·.1)) :
    (insertEntry key value entries).Pairwise (·.1 < ·.1) := by
  induction entries with
  | nil => simp [insertEntry]
  | cons head rest ih =>
    obtain ⟨other, old⟩ := head
    obtain ⟨least, sorted⟩ := List.pairwise_cons.1 h
    simp only [insertEntry]
    split
    · subst_vars
      exact List.pairwise_cons.2 ⟨least, sorted⟩
    · split
      · rename_i below
        refine List.pairwise_cons.2 ⟨fun entry mem => ?_, h⟩
        rcases List.mem_cons.1 mem with rfl | mem
        · exact below
        · exact Std.lt_trans below (least entry mem)
      · rename_i different notBelow
        refine List.pairwise_cons.2 ⟨fun entry mem => ?_, ih sorted⟩
        rcases mem_insertEntry mem with rfl | mem
        · rcases (Std.le_total : key ≤ other ∨ other ≤ key) with le | le
          · exact absurd (Std.le_antisymm le (Std.not_lt.1 notBelow)) different
          · exact Std.not_le.1 fun ge => different (Std.le_antisymm ge le)
        · exact least entry mem

end Entries

/-- A value for each of some keys. The keys stand in ascending order, so each stands once. -/
structure OrderedMap (κ ν : Type) [LT κ] where
  entries : List (κ × ν)
  ascending : entries.Pairwise (·.1 < ·.1)

namespace OrderedMap

variable {κ ν : Type} [LT κ]

def empty : OrderedMap κ ν := ⟨[], .nil⟩

variable [DecidableEq κ]

def get? (m : OrderedMap κ ν) (key : κ) : Option ν := lookupEntry key m.entries

variable [DecidableLT κ] [LE κ] [Std.LawfulOrderLT κ] [Std.IsLinearOrder κ]

/-- Binds a key to a value, in place of what it was bound to. -/
def insert (m : OrderedMap κ ν) (key : κ) (value : ν) : OrderedMap κ ν :=
  ⟨insertEntry key value m.entries, pairwise_insertEntry m.ascending⟩

theorem get?_insert (m : OrderedMap κ ν) (key other : κ) (value : ν) :
    (m.insert key value).get? other = if other = key then some value else m.get? other :=
  lookupEntry_insertEntry key other value m.entries

end OrderedMap
end CycleChart
