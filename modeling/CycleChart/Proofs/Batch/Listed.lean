import CycleChart.Proofs.Batch.Isolation
import CycleChart.Proofs.Text.Utf8

namespace CycleChart

variable {L : Type} [Links L]

/-- How some reports account for what lies right inside a directory. -/
structure Tree.Covers (t : Tree L) (directory : Path) (l : Location) (reports : List Path) : Prop where
  /-- Each is a file there, or a link to one, and has the name of a report. -/
  inside : ∀ report ∈ reports, ∃ name, Batch.isReportName name ∧ report = directory.step name ∧ t.isFile report ∧
    ((∃ c, t.get? (l ++ [name]) = some (.file c) ∧ t.placeOf report = .ok (l ++ [name])) ∨
      ∃ target, t.get? (l ++ [name]) = some (.link target))
  /-- Each file there is one of them if it has the name of a report, unless its path is too long or the directory may not
  be searched. -/
  files : ∀ name c, Batch.isReportName name → t.get? (l ++ [name]) = some (.file c) →
    (directory.step name ∈ reports ↔ (t.rights l).search ∧ (directory.step name).bytes.length ≤ Tree.longestPath)
  /-- Each link there is one of them if it has the name of a report and leads to a file. -/
  links : ∀ name target, Batch.isReportName name → t.get? (l ++ [name]) = some (.link target) →
    (directory.step name ∈ reports ↔ t.isFile (directory.step name))

theorem Tree.Covers.of_perm {t : Tree L} {directory : Path} {l : Location} {reports others : List Path}
    (h : t.Covers directory l reports) (perm : others.Perm reports) : t.Covers directory l others where
  inside report mem := h.inside report (perm.mem_iff.1 mem)
  files name c ends held := perm.mem_iff.trans (h.files name c ends held)
  links name target ends held := perm.mem_iff.trans (h.links name target ends held)

namespace Batch

theorem normal_of_isReportName {name : Name} (ends : isReportName name) :
    Path.component? name = some (.normal name) :=
  Path.component?_of_ending (suffix_of_isReportName ends) (by decide)

variable {t : Tree L} {directory : Path} {l : Location} {names : List Name} {name : Name}

/-- What is listed is a file or a link under the name of a report. -/
theorem held_of_listed (named : t.Named) (inside : t.names directory = .ok names) (place : t.placeOf directory = .ok l)
    (mem : name ∈ listed t directory names) :
    (∃ c, t.get? (l ++ [name]) = some (.file c) ∧ t.placeOf (directory.step name) = .ok (l ++ [name])) ∨
      ∃ target, t.get? (l ++ [name]) = some (.link target) := by
  obtain ⟨there, ends, file⟩ := mem_listed.1 mem
  rw [Tree.mem_names_iff inside place] at there
  have clear := named l name there
  have normal := normal_of_isReportName ends
  obtain ⟨e, held⟩ := Option.ne_none_iff_exists'.1 there
  cases e with
  | directory => exact absurd file (Tree.not_isFile_step clear normal place held)
  | link target => exact .inr ⟨target, held⟩
  | file c =>
    obtain ⟨known, searched, short⟩ := (Tree.isFile_step_iff clear normal place held).1 file
    refine .inl ⟨c, held, ?_⟩
    exact (Tree.placeOf_step_eq_ok_iff clear normal place held nofun).2 ⟨known, searched, short, rfl⟩

/-- In a tree with names as they may be, only the length of its path and the rights of its directory keep a file from
being found. -/
theorem mem_listed_of_file (legal : t.Legal) (inside : t.names directory = .ok names)
    (place : t.placeOf directory = .ok l) (ends : isReportName name) {c : Content}
    (held : t.get? (l ++ [name]) = some (.file c)) :
    name ∈ listed t directory names ↔
      (t.rights l).search ∧ (directory.step name).bytes.length ≤ Tree.longestPath := by
  have there : t.get? (l ++ [name]) ≠ none := Option.ne_none_iff_exists'.2 ⟨_, held⟩
  obtain ⟨clear, whole, short⟩ := legal l name there
  have filled := (Path.spelling_of_component? (normal_of_isReportName ends)).2
  rw [mem_listed, Tree.mem_names_iff inside place,
    Tree.isFile_step_iff clear (normal_of_isReportName ends) place held, Tree.segmentsOf_step_iff place whole filled]
  constructor
  · rintro ⟨-, -, known, searched, -⟩
    exact ⟨searched, known⟩
  · rintro ⟨searched, known⟩
    exact ⟨there, ends, known, searched, short⟩

theorem mem_listed_of_link (inside : t.names directory = .ok names) (place : t.placeOf directory = .ok l)
    (ends : isReportName name) {target : L} (held : t.get? (l ++ [name]) = some (.link target)) :
    name ∈ listed t directory names ↔ t.isFile (directory.step name) := by
  have there : t.get? (l ++ [name]) ≠ none := Option.ne_none_iff_exists'.2 ⟨_, held⟩
  rw [mem_listed, Tree.mem_names_iff inside place]
  exact ⟨fun h => h.2.2, fun file => ⟨there, ends, file⟩⟩

/-- A directory that is looked through is accounted for. -/
theorem covers_listed (legal : t.Legal) (inside : t.names directory = .ok names)
    (place : t.placeOf directory = .ok l) : t.Covers directory l ((listed t directory names).map directory.step) := by
  -- different names in one directory make different paths
  have mem_iff {name : Name} (there : t.get? (l ++ [name]) ≠ none) :
      directory.step name ∈ (listed t directory names).map directory.step ↔ name ∈ listed t directory names := by
    refine ⟨fun mem => ?_, fun mem => List.mem_map.2 ⟨name, mem, rfl⟩⟩
    obtain ⟨other, listed, same⟩ := List.mem_map.1 mem
    have there' := (Tree.mem_names_iff inside place).1 (mem_listed.1 listed).1
    rwa [← Path.eq_of_step same (legal l other there').1 (legal l name there).1]
  constructor
  case inside =>
    intro report mem
    obtain ⟨name, found, rfl⟩ := List.mem_map.1 mem
    obtain ⟨-, ends, file⟩ := mem_listed.1 found
    exact ⟨name, ends, rfl, file, held_of_listed legal.named inside place found⟩
  case files =>
    intro name c ends held
    rw [mem_iff (Option.ne_none_iff_exists'.2 ⟨_, held⟩), mem_listed_of_file legal inside place ends held]
  case links =>
    intro name target ends held
    rw [mem_iff (Option.ne_none_iff_exists'.2 ⟨_, held⟩), mem_listed_of_link inside place ends held]

/-! Directories whose path is text. -/

variable {b : Batch}

theorem sought_eq (text : (Text.decode? b.reports.bytes).isSome) : b.sought = b.reports :=
  Text.ofString_readable text

/-- A path that is followed by a slash, and starts with nothing but dots and an empty segment. -/
def Misspelled (p : Path) : Prop :=
  p.isRooted = false ∧ ∃ count rest, Path.segments p.bytes = List.replicate count [Path.dot] ++ [] :: rest

/-- The directory of the reports can be listed, and so can those on the way that are listed for a special segment. -/
def IsListable (b : Batch) (t : Tree L) (l : Location) : Prop :=
  (t.rights l).read ∧ ∀ p ∈ b.reports.listedOn, ∃ others, t.names p = .ok others

/-- A directory whose path is text is looked through itself. -/
theorem Looks.place (text : (Text.decode? b.reports.bytes).isSome) (there : t.isDirectory b.reports)
    (looks : b.Looks t directory names) : t.placeOf directory = t.placeOf b.reports :=
  Tree.placeOf_spelled there (sought_eq text ▸ looks.spelled)

/-- A directory whose path is text is looked through if it is not misspelled and can be listed. -/
theorem exists_looks_iff (text : (Text.decode? b.reports.bytes).isSome) (there : t.isDirectory b.reports)
    (place : t.placeOf b.reports = .ok l) :
    (∃ directory names, b.Looks t directory names) ↔ ¬Misspelled b.reports ∧ b.IsListable t l := by
  obtain ⟨filled, -⟩ := (Tree.segmentsOf_eq_ok (Tree.segmentsOf_of_placeOf place)).symm
  rw [Misspelled, ← Path.spelled?_eq_none_iff filled, ← sought_eq text]
  obtain ⟨m, same, here⟩ := Tree.isDirectory_iff.1 there
  obtain rfl := Except.ok.inj (same.symm.trans place)
  constructor
  · rintro ⟨directory, names, looks⟩
    obtain ⟨k, -, place', -, readable, -⟩ := Tree.names_eq_ok looks.names
    rw [looks.place text there, place, Except.ok.injEq] at place'
    refine ⟨by simp [looks.spelled], place' ▸ readable, ?_⟩
    rw [← sought_eq text]
    exact looks.passed
  · rintro ⟨spelled, readable, passed⟩
    obtain ⟨directory, spelled⟩ := Option.ne_none_iff_exists'.1 spelled
    have place' : t.placeOf directory = .ok m := (Tree.placeOf_spelled there (sought_eq text ▸ spelled)).trans place
    obtain ⟨inside, -, names⟩ := Tree.names_of_placeOf place' here
    rw [if_pos readable] at names
    exact ⟨directory, _, spelled, sought_eq text ▸ passed, names⟩

end Batch
end CycleChart
