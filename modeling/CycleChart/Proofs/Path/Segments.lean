import CycleChart.Path.Chart
import CycleChart.Path.Spelled

namespace CycleChart.Path

theorem segments_ne_nil (s : List UInt8) : segments s ≠ [] := by
  cases s with
  | nil => nofun
  | cons b s =>
    rw [segments]
    split
    · nofun
    · split <;> nofun

theorem segments_append (s t : List UInt8) : segments (s ++ slash :: t) = segments s ++ segments t := by
  induction s with
  | nil => simp [segments]
  | cons b s ih =>
    simp only [List.cons_append, segments, ih]
    split
    · rfl
    · cases rest : segments s with
      | nil => exact absurd rest (segments_ne_nil s)
      | cons x xs => rfl

theorem segments_of_not_mem {s : List UInt8} (h : slash ∉ s) : segments s = [s] := by
  induction s with
  | nil => rfl
  | cons b s ih =>
    simp only [List.mem_cons, not_or] at h
    rw [segments, if_neg (Ne.symm h.1), ih h.2]

/-- What ends a path without a slash in it ends the last segment. -/
theorem exists_last_segment {s ending : List UInt8} (ends : ending <:+ s) (clear : slash ∉ ending) :
    ∃ parts last, segments s = parts ++ [last] ∧ slash ∉ last ∧ ending <:+ last := by
  induction s with
  | nil => exact ⟨[], [], rfl, nofun, ends⟩
  | cons b s ih =>
    rcases List.suffix_cons_iff.1 ends with rfl | ends
    · exact ⟨[], b :: s, segments_of_not_mem clear, clear, List.suffix_refl _⟩
    · obtain ⟨parts, last, eq, apart, ends⟩ := ih ends
      rw [segments, eq]
      split
      · exact ⟨[] :: parts, last, rfl, apart, ends⟩
      · rename_i other
        cases parts with
        | nil => exact ⟨[], b :: last, rfl, by simp [Ne.symm other, apart], ends.trans (List.suffix_cons b last)⟩
        | cons x xs => exact ⟨(b :: x) :: xs, last, rfl, apart, ends⟩

theorem component?_of_ending {name ending : List UInt8} (ends : ending <:+ name) (long : 2 < ending.length) :
    component? name = some (.normal name) := by
  have longer : 2 < name.length := Nat.lt_of_lt_of_le long ends.length_le
  have filled : name ≠ [] := by
    rintro rfl
    exact absurd longer (by decide)
  have one : name ≠ [dot] := by
    rintro rfl
    exact absurd longer (by decide)
  have two : name ≠ [dot, dot] := by
    rintro rfl
    exact absurd longer (by decide)
  simp [component?, filled, one, two]

theorem fileName_of_segments {p : Path} {parts : List (List UInt8)} {name : List UInt8}
    (eq : segments p.bytes = parts ++ [name]) (normal : component? name = some (.normal name)) :
    p.fileName = some name := by
  have last : p.components.getLast? = some (.normal name) := by
    simp [components, eq, List.filterMap_append, normal]
  rw [fileName, last]

theorem prefix_stemOf (name : List UInt8) : stemOf name <+: name := by
  rw [stemOf]
  split
  · exact List.prefix_refl _
  · have later : (name.reverse.dropWhile (· ≠ dot)).drop 1 <:+ name.reverse :=
      (List.drop_suffix _ _).trans (List.dropWhile_suffix _)
    simpa using List.reverse_prefix.2 later

/-- The last dot and what follows it are taken off, unless nothing is left. -/
theorem stemOf_append (s : List UInt8) {extension : List UInt8} (plain : dot ∉ extension) :
    stemOf (s ++ dot :: extension) = if s = [] then dot :: extension else s := by
  have before : ((s ++ dot :: extension).reverse.dropWhile (· ≠ dot)).drop 1 = s.reverse := by
    have other : ∀ b ∈ extension.reverse, decide (b ≠ dot) = true := by
      intro b mem
      refine decide_eq_true ?_
      rintro rfl
      exact plain (List.mem_reverse.1 mem)
    rw [List.reverse_append, List.reverse_cons, List.append_assoc, List.dropWhile_append_of_pos other]
    simp
  simp only [stemOf, before, List.reverse_reverse]
  split
  · rename_i empty
    rw [empty, List.nil_append]
  · rfl

theorem stemOf_json (s : List UInt8) :
    stemOf (s ++ (ofString ".json").bytes) = if s = [] then (ofString ".json").bytes else s := by
  have ending : (ofString ".json").bytes = dot :: [0x6A, 0x73, 0x6F, 0x6E] := by decide
  rw [ending]
  exact stemOf_append s (by decide)

/-- A name that does not start at the root. -/
theorem not_isRooted_of_not_mem {name : List UInt8} (clear : slash ∉ name) : isRooted ⟨name⟩ = false := by
  cases name with
  | nil => rfl
  | cons b s =>
    simp only [List.mem_cons, not_or] at clear
    simpa [isRooted] using Ne.symm clear.1

theorem isRooted_join {p : Path} {name : List UInt8} (filled : p.bytes ≠ []) (clear : slash ∉ name) :
    (p.join ⟨name⟩).isRooted = p.isRooted := by
  obtain ⟨bytes⟩ := p
  cases bytes with
  | nil => exact absurd rfl filled
  | cons b s =>
    rw [join, not_isRooted_of_not_mem clear, if_neg Bool.noConfusion]
    split <;> rfl

theorem isRooted_join_of_empty {p : Path} {name : List UInt8} (empty : p.bytes = []) (clear : slash ∉ name) :
    (p.join ⟨name⟩).isRooted = false := by
  have relative := not_isRooted_of_not_mem clear
  simp [join, relative, empty]

/-- Different names inside a directory make different paths. -/
theorem eq_of_join {p : Path} {a b : List UInt8} (h : p.join ⟨a⟩ = p.join ⟨b⟩) (plain : isRooted ⟨a⟩ = false)
    (plain' : isRooted ⟨b⟩ = false) : a = b := by
  simp only [join, plain, plain', Bool.false_eq_true, if_false] at h
  split at h <;> simpa using h

/-- A name inside a directory is one more segment, after those that lead to the directory. -/
theorem segments_join {p : Path} {name : List UInt8} (clear : slash ∉ name) :
    ∃ parts, segments (p.join ⟨name⟩).bytes = parts ++ [name] ∧
      (p.bytes = [] ∧ parts = [] ∨ p.bytes ≠ [] ∧ (segments p.bytes = parts ∨ segments p.bytes = parts ++ [[]])) := by
  have rooted := not_isRooted_of_not_mem clear
  by_cases empty : p.bytes = []
  · exact ⟨[], by simp [join, rooted, empty, segments_of_not_mem clear], .inl ⟨empty, rfl⟩⟩
  · by_cases closed : p.bytes.getLast? = some slash
    · obtain ⟨front, eq⟩ := List.getLast?_eq_some_iff.1 closed
      have before : segments p.bytes = segments front ++ [[]] := by
        rw [eq, segments_append]
        rfl
      refine ⟨segments front, ?_, .inr ⟨empty, .inr before⟩⟩
      have joined : (p.join ⟨name⟩).bytes = front ++ slash :: name := by simp [join, rooted, eq]
      rw [joined, segments_append, segments_of_not_mem clear]
    · refine ⟨segments p.bytes, ?_, .inr ⟨empty, .inl rfl⟩⟩
      have joined : (p.join ⟨name⟩).bytes = p.bytes ++ slash :: name := by simp [join, rooted, empty, closed]
      rw [joined, segments_append, segments_of_not_mem clear]

end CycleChart.Path
