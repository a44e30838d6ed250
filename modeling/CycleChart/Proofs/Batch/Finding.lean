import CycleChart.Proofs.Batch.Listed
import CycleChart.Proofs.Path.Order

namespace CycleChart.Batch

section

variable {L : Type} [Links L]

/-- The reports that are found in a directory, by the location of the directory. -/
structure Lists (b : Batch) (t : Tree L) (l : Location) (reports : List Path) : Prop where
  /-- They come in the order of their parts. -/
  ascending : reports.Pairwise Path.Before
  /-- None comes twice. -/
  once : reports.Nodup
  /-- If the directory is not misspelled and can be listed, they are the files there that have the names of reports. -/
  covers : ¬Misspelled b.reports → b.IsListable t l →
    ∃ directory, b.reports.spelled? = some directory ∧ t.placeOf directory = .ok l ∧ t.Covers directory l reports
  /-- Otherwise there are none. -/
  blind : Misspelled b.reports ∨ ¬b.IsListable t l → reports = []

variable {b : Batch} {t : Tree L}

/-- What is found in one directory comes in the order of its parts. -/
theorem ascending_of_found (named : t.Named) {reports : List Path} (found : b.found t = .ok reports) :
    reports.Pairwise Path.Before := by
  obtain ⟨directory, names, rfl, ascending, each⟩ := names_of_found named found
  refine List.pairwise_map.2 (ascending.imp_of_mem fun {a b} mem mem' less => ?_)
  obtain ⟨clear, ends⟩ := each a mem
  obtain ⟨clear', ends'⟩ := each b mem'
  exact Path.before_step directory less clear clear' (Path.component?_of_ending ends (by decide))
    (Path.component?_of_ending ends' (by decide))

theorem lists_of_isDirectory (legal : t.Legal) (text : (Text.decode? b.reports.bytes).isSome)
    (there : t.isDirectory b.reports) :
    ∃ l reports, t.placeOf b.reports = .ok l ∧ b.found t = .ok reports ∧ b.Lists t l reports := by
  obtain ⟨l, place, -⟩ := Tree.isDirectory_iff.1 there
  have seen := exists_looks_iff text there place
  by_cases looks : ∃ directory names, b.Looks t directory names
  · obtain ⟨directory, names, look⟩ := looks
    have found := found_of_looks there look
    have place' := (look.place text there).trans place
    refine ⟨l, _, place, found, ascending_of_found legal.named found, nodup_of_found legal.named found, fun _ _ => ?_, ?_⟩
    · exact ⟨directory, sought_eq text ▸ look.spelled, place', covers_listed legal look.names place'⟩
    · intro blind
      obtain ⟨spelled, listable⟩ := seen.1 ⟨directory, names, look⟩
      exact (blind.elim spelled fun other => other listable).elim
  · have found := found_of_not_looks there fun directory names look => looks ⟨directory, names, look⟩
    refine ⟨l, _, place, found, .nil, .nil, fun spelled listable => ?_, fun _ => rfl⟩
    exact absurd (seen.2 ⟨spelled, listable⟩) looks

/-- Looking for reports fails just if there is no directory to look through. Otherwise the files in the directory are
listed that have the names of reports. -/
theorem discover_spec (b : Batch) (s : Session L) (legal : s.tree.Legal) (text : (Text.decode? b.reports.bytes).isSome) :
    (s.tree.isDirectory b.reports = false → s.perform b.discover = (.error (.notDirectory b.reports), s)) ∧
      (s.tree.isDirectory b.reports → ∃ l reports, s.tree.placeOf b.reports = .ok l ∧
        s.perform b.discover = (.ok reports, s) ∧ b.Lists s.tree l reports) := by
  rw [perform_discover]
  constructor
  · intro none
    rw [found, none]
    rfl
  · intro there
    obtain ⟨l, reports, place, found, lists⟩ := lists_of_isDirectory legal text there
    exact ⟨l, reports, place, by rw [found], lists⟩

end

/-- A report and two links, of which one leads to the report and the other one nowhere. -/
def linkedFiles : Tree Path :=
  (((Tree.empty.insert [] (Path.ofString "in").bytes .directory).insert [(Path.ofString "in").bytes]
    (Path.ofString "a.json").bytes (.file (.bytes plainReport))).insert [(Path.ofString "in").bytes]
    (Path.ofString "b.json").bytes (.link (.ofString "/in/a.json"))).insert [(Path.ofString "in").bytes]
    (Path.ofString "c.json").bytes (.link (.ofString "c.json"))

def linked : Session Path := .start (linkedFiles.standing [(Path.ofString "in").bytes] (by decide +kernel))

theorem legal_linked : linked.tree.Legal := by
  have legal : linkedFiles.Legal := by
    simp only [linkedFiles]
    refine (((Tree.legal_empty.insert ?_ ?_ ?_ _).insert ?_ ?_ ?_ _).insert ?_ ?_ ?_ _).insert ?_ ?_ ?_ _
    all_goals decide +kernel
  exact legal

/-- The directory of the links, by way of the one above it. -/
def roundabout : Batch := .ofDirectories (.ofString "./..//in/") none small.figure true

theorem discover_linked :
    linked.tree.Legal ∧ (Text.decode? roundabout.reports.bytes).isSome ∧ linked.tree.isDirectory roundabout.reports ∧
      linked.perform roundabout.discover = (.ok [.ofString "../in/a.json", .ofString "../in/b.json"], linked) ∧
      roundabout.Lists linked.tree [(Path.ofString "in").bytes] [.ofString "../in/a.json", .ofString "../in/b.json"] := by
  have text : (Text.decode? roundabout.reports.bytes).isSome := by decide +kernel
  have there : linked.tree.isDirectory roundabout.reports := by decide +kernel
  obtain ⟨l, reports, place, found, lists⟩ := (discover_spec roundabout linked legal_linked text).2 there
  have place' : linked.tree.placeOf roundabout.reports = .ok [(Path.ofString "in").bytes] :=
    eq_ok_of_toOption (by decide +kernel)
  have found' : roundabout.found linked.tree = .ok [.ofString "../in/a.json", .ofString "../in/b.json"] :=
    eq_ok_of_toOption (by decide +kernel)
  obtain rfl := Except.ok.inj (place.symm.trans place')
  rw [perform_discover, found'] at found
  cases found
  exact ⟨legal_linked, text, there, by rw [perform_discover, found'], lists⟩

/-- The charts of a directory that is spelled with a slash too many. -/
def doubled : Batch := .ofDirectories (.ofString ".//in") none small.figure true

/-- Not every file right inside a directory whose path and name are text is found, if it has the name of a report. -/
theorem not_all_found :
    ¬∀ (b : Batch) (s : Session Empty) (reports : List Path), s.tree.Legal → (Text.decode? b.reports.bytes).isSome →
      s.perform b.discover = (.ok reports, s) →
      ∀ l name c, s.tree.placeOf b.reports = .ok l → isReportName name → s.tree.get? (l ++ [name]) = some (.file c) →
        .ok (l ++ [name]) ∈ reports.map s.tree.placeOf := by
  intro all
  have found : doubled.found mixedFiles = .ok [] := by
    apply eq_ok_of_toOption
    decide +kernel
  have missed := all doubled (.start mixedFiles) [] legal_mixedFiles (by decide +kernel)
    (by rw [perform_discover]; exact congrArg (·, _) found) [(Path.ofString "in").bytes] (Path.ofString "a.json").bytes
    (.bytes []) (eq_ok_of_toOption (by decide +kernel)) (by decide +kernel) (by decide +kernel)
  cases missed

end CycleChart.Batch
