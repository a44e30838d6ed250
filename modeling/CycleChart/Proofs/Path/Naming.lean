import CycleChart.Proofs.Path.Spelling

namespace CycleChart.Path

/-! Parts of paths that are put together. -/

theorem components_of_name {name : List UInt8} (clear : slash ∉ name)
    (normal : component? name = some (.normal name)) : components ⟨name⟩ = [.normal name] := by
  have other : name ≠ [dot] := by
    rintro rfl
    cases normal
  rw [components_eq (not_isRooted_of_not_mem clear), leading, segments_of_not_mem clear]
  simp [other, normal]

/-- The parts of a name inside a directory are those of the directory, and the name. -/
theorem components_join (directory : Path) {name : List UInt8} (clear : slash ∉ name)
    (normal : component? name = some (.normal name)) :
    (directory.join ⟨name⟩).components = directory.components ++ [.normal name] := by
  have relative := not_isRooted_of_not_mem clear
  obtain ⟨parts, eq, ⟨none, -⟩ | ⟨filled, before⟩⟩ := segments_join (p := directory) clear
  · have alone : directory.join ⟨name⟩ = ⟨name⟩ := by simp [join, relative, none]
    have silent : directory.components = [] := by simp [components, isRooted, none, segments, component?]
    rw [alone, silent, List.nil_append]
    exact components_of_name clear normal
  · have rooted : (directory.join ⟨name⟩).isRooted = directory.isRooted := by
      obtain ⟨b, s, bytes⟩ := List.exists_cons_of_ne_nil filled
      rw [join, relative]
      simp only [Bool.false_eq_true, if_false]
      split <;> simp [isRooted, bytes]
    -- a directory that ends in a slash has an empty segment more, which says nothing
    have said : (segments directory.bytes).filterMap component? = parts.filterMap component? := by
      rcases before with same | same
      · rw [same]
      · rw [same, List.filterMap_append]
        exact List.append_nil _
    have front : (parts ++ [name]).head? = (segments directory.bytes).head? := by
      cases parts with
      | nil =>
        rcases before with none | alone
        · exact absurd none (segments_ne_nil _)
        · exact absurd (eq_append_flatMap alone) filled
      | cons first parts => rcases before with same | same <;> rw [same] <;> rfl
    rw [components, components, rooted, eq, front, List.filterMap_append, said, List.append_assoc]
    simp [normal]

/-- Parts that are spelled say what they said. -/
theorem filterMap_spelling (parts : List (List UInt8)) :
    ((parts.filterMap component?).map spelling).filterMap component? = parts.filterMap component? := by
  rw [map_spelling, List.filterMap_filter]
  congr 1
  funext segment
  cases known : component? segment <;> rfl

/-- A path that is spelled by its parts has these parts. -/
theorem components_ofComponents (p : Path) : (ofComponents p.components).components = p.components := by
  have kept := filterMap_spelling (segments p.bytes)
  have spelled := map_spelling (segments p.bytes)
  cases rooted : p.isRooted with
  | true =>
    have whole : p.components = .root :: (segments p.bytes).filterMap component? := by simp [components, rooted]
    have clear : ∀ segment ∈ ((segments p.bytes).filterMap component?).map spelling, slash ∉ segment := by
      intro segment mem
      rw [spelled] at mem
      exact not_mem_of_mem_segments (List.mem_filter.1 mem).1
    rw [whole]
    cases parts : (segments p.bytes).filterMap component? with
    | nil => rfl
    | cons c said =>
      rw [parts] at kept clear
      have segs := segments_intercalate (List.cons_ne_nil _ _) clear
      have silent : component? [] = none := rfl
      rw [List.map_cons] at kept
      simp [ofComponents, components, isRooted, segments, segs, List.filterMap_cons_none silent, kept]
  | false =>
    have whole := components_eq rooted
    have each : ∀ c ∈ p.components, c = .current ∨ ∃ segment, slash ∉ segment ∧ component? segment = some c := by
      intro c mem
      rw [whole] at mem
      refine (List.mem_append.1 mem).imp mem_leading fun mem => ?_
      obtain ⟨segment, listed, known⟩ := List.mem_filterMap.1 mem
      exact ⟨segment, not_mem_of_mem_segments listed, known⟩
    by_cases empty : p.components = []
    · rw [empty]
      rfl
    · obtain ⟨segs, plain⟩ := segments_ofComponents empty each
      rw [components_eq plain, leading, segs, whole, List.map_append, List.filterMap_append, kept, leading]
      split
      · rfl
      · -- no part that is spelled is a dot
        have other : (((segments p.bytes).filterMap component?).map spelling).head? ≠ some [dot] := by
          intro first
          have listed := List.mem_of_head? first
          rw [spelled] at listed
          exact absurd (List.mem_filter.1 listed).2 (by decide)
        rw [List.map_nil, List.nil_append, if_neg other]
        rfl

/-! What is kept of a name. -/

theorem fileName_join (directory : Path) {name : List UInt8} (clear : slash ∉ name)
    (normal : component? name = some (.normal name)) : (directory.join ⟨name⟩).fileName = some name := by
  rw [fileName, components_join directory clear normal, List.getLast?_concat]

/-- A name inside a directory is taken off again. -/
theorem parent?_join (directory : Path) {name : List UInt8} (clear : slash ∉ name)
    (normal : component? name = some (.normal name)) :
    ∃ parent, (directory.join ⟨name⟩).parent? = some parent ∧ parent.components = directory.components := by
  refine ⟨ofComponents directory.components, ?_, components_ofComponents directory⟩
  rw [parent?, components_join directory clear normal, List.getLast?_concat, List.dropLast_concat]

theorem mem_segments_of_normal {p : Path} {name : List UInt8} (h : .normal name ∈ p.components) :
    name ∈ segments p.bytes ∧ component? name = some (.normal name) := by
  rcases List.mem_append.1 h with front | said
  · split at front
    · cases List.mem_singleton.1 front
    · split at front
      · cases List.mem_singleton.1 front
      · cases front
  · obtain ⟨segment, mem, known⟩ := List.mem_filterMap.1 said
    obtain ⟨rfl, -⟩ := spelling_of_component? known
    exact ⟨mem, known⟩

/-- The name of a file is a segment of its path. -/
theorem clear_of_fileName {p : Path} {name : List UInt8} (h : p.fileName = some name) : slash ∉ name ∧ name ≠ [] := by
  rw [fileName] at h
  split at h
  · rename_i last
    cases h
    obtain ⟨mem, known⟩ := mem_segments_of_normal (List.mem_of_getLast? last)
    exact ⟨not_mem_of_mem_segments mem, (spelling_of_component? known).2⟩
  · cases h

theorem stemOf_ne_nil {name : List UInt8} (filled : name ≠ []) : stemOf name ≠ [] := by
  rw [stemOf]
  split
  · exact filled
  · assumption

/-- The chart of a report lies in its directory, is named by what is kept of the report's name, and keeps that. So the
chart of a chart is named as the chart itself. -/
theorem chart_spec {report : Path} {name : List UInt8} (h : report.fileName = some name) (directory : Path) :
    (∃ parent, (report.chart directory).parent? = some parent ∧ parent.components = directory.components) ∧
      (∃ stem, report.fileStem = some stem ∧
        (report.chart directory).fileName = some (stem ++ (ofString ".png").bytes) ∧
        (report.chart directory).fileStem = some stem) ∧
      ∀ other, (report.chart directory).chart other = report.chart other := by
  have ending : (ofString ".png").bytes = dot :: [0x70, 0x6E, 0x67] := by decide
  have stem : report.fileStem = some (stemOf name) := by
    rw [fileStem, h]
    rfl
  obtain ⟨clear, filled⟩ := clear_of_fileName h
  have apart : slash ∉ stemOf name ++ (ofString ".png").bytes := by
    rw [List.mem_append, not_or]
    exact ⟨fun mem => clear ((prefix_stemOf name).subset mem), by decide⟩
  have normal := component?_of_ending (List.suffix_append (stemOf name) (ofString ".png").bytes) (by decide)
  have chart (directory : Path) : report.chart directory = directory.join ⟨stemOf name ++ (ofString ".png").bytes⟩ := by
    rw [Path.chart, stem]
    rfl
  have named : (report.chart directory).fileName = some (stemOf name ++ (ofString ".png").bytes) := by
    rw [chart]
    exact fileName_join directory apart normal
  have kept : (report.chart directory).fileStem = some (stemOf name) := by
    rw [fileStem, named, Option.map_some, ending, stemOf_append _ (by decide), if_neg (stemOf_ne_nil filled)]
  refine ⟨?_, ⟨stemOf name, stem, named, kept⟩, fun other => ?_⟩
  · rw [chart]
    exact parent?_join directory apart normal
  · rw [chart other, Path.chart, kept]
    rfl

/-- A name of two dots and an ending keeps one dot, inside a directory that is spelled with a slash and a dot. -/
theorem chart_spec_dots :
    (ofString "in/./..json").fileName = some (ofString "..json").bytes ∧
      (∃ parent, ((ofString "in/./..json").chart (ofString "./out/.//")).parent? = some parent ∧
        parent.components = (ofString "./out/.//").components) ∧
      (∃ stem, (ofString "in/./..json").fileStem = some stem ∧
        ((ofString "in/./..json").chart (ofString "./out/.//")).fileName = some (stem ++ (ofString ".png").bytes) ∧
        ((ofString "in/./..json").chart (ofString "./out/.//")).fileStem = some stem) ∧
      ∀ other, ((ofString "in/./..json").chart (ofString "./out/.//")).chart other =
        (ofString "in/./..json").chart other :=
  have named : (ofString "in/./..json").fileName = some (ofString "..json").bytes := by decide
  ⟨named, chart_spec named (ofString "./out/.//")⟩

end CycleChart.Path
