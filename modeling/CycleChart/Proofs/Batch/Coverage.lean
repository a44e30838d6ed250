import CycleChart.Proofs.Batch.Listed
import CycleChart.Proofs.Batch.Sorting

namespace CycleChart

namespace Batch

section

variable {L : Type} [Links L]

/-- How an outcome accounts for what lies right inside the directory of the reports. -/
structure Coverage (b : Batch) (t : Tree L) (o : Outcome) : Prop where
  /-- No report comes out twice. -/
  once : o.reports.Nodup
  /-- If a directory is looked through, the files there come out. -/
  covers : ∀ directory names l, b.Looks t directory names → t.placeOf directory = .ok l → t.Covers directory l o.reports
  /-- If none is looked through, nothing comes out. -/
  blind : (∀ directory names, ¬b.Looks t directory names) → o.reports = []
  /-- A directory whose path is text is looked through itself, unless it is misspelled or cannot be listed. -/
  looked : (Text.decode? b.reports.bytes).isSome → ∃ l, t.placeOf b.reports = .ok l ∧
    ((∃ directory names, b.Looks t directory names) ↔ ¬Misspelled b.reports ∧ b.IsListable t l) ∧
    ∀ directory names, b.Looks t directory names → t.placeOf directory = .ok l
  /-- If none failed, all of them are charted. -/
  charted : o.isSuccess → ∀ report ∈ o.reports, ⟨report, report.chart b.charts⟩ ∈ o.written

variable [Drawing.Typeface]

/-- The reports of a run that ends well are those that were found. -/
theorem reports_perm_of_run {b : Batch} {s s' : Session L} {o : Outcome} (h : s.perform b.run = (.ok o, s')) :
    ∃ reports, b.found s.tree = .ok reports ∧ o.reports.Perm reports ∧
      ∀ w ∈ o.written, w.chart = w.report.chart b.charts := by
  obtain ⟨reports, t, discovered, sorted, charts⟩ := run_sorts h
  rw [run_discover finds_session, Prod.mk.injEq] at discovered
  exact ⟨reports, discovered.1, sorted.all, charts⟩

/-- A run that ends well accounts for what lies right inside the directory of the reports: what comes out is told by
names and paths, and by what may be listed and searched. -/
theorem run_covers {b : Batch} {s s' : Session L} {o : Outcome} (legal : s.tree.Legal)
    (h : s.perform b.run = (.ok o, s')) : Coverage b s.tree o := by
  obtain ⟨reports, found, perm, charts⟩ := reports_perm_of_run h
  have there := isDirectory_of_found found
  constructor
  case once => exact perm.nodup_iff.2 (nodup_of_found legal.named found)
  case covers =>
    intro directory names l looks place
    rw [found_of_looks there looks, Except.ok.injEq] at found
    exact (covers_listed legal looks.names place).of_perm (found ▸ perm)
  case blind =>
    intro blind
    rw [found_of_not_looks there blind, Except.ok.injEq] at found
    exact (found ▸ perm).eq_nil
  case looked =>
    intro text
    obtain ⟨l, place, -⟩ := Tree.isDirectory_iff.1 there
    exact ⟨l, place, exists_looks_iff text there place, fun directory names looks => (looks.place text there).trans place⟩
  case charted =>
    intro success report mem
    have none : o.failed = [] := List.isEmpty_iff.1 success
    rw [Outcome.reports, none, List.map_nil, List.append_nil] at mem
    obtain ⟨w, listed, rfl⟩ := List.mem_map.1 mem
    rw [← charts w listed]
    exact listed

end

open scoped Drawing.Typeface

theorem run_covers_mixed :
    mixed.perform small.run = (.ok mixedOutcome, (mixed.perform small.run).2) ∧ Coverage small mixed.tree mixedOutcome :=
  ⟨perform_run_mixed, run_covers legal_mixed perform_run_mixed⟩

/-- The charts of the current directory, which is spelled with a slash. -/
def trailing : Batch := .ofDirectories (.ofString "./") none small.figure true

def oneReport : Session Empty :=
  .start (Tree.empty.insert [] (Path.ofString "a.json").bytes (.file (.bytes plainReport)))

theorem legal_oneReport : oneReport.tree.Legal := Tree.legal_empty.insert (by decide) (by decide) (by decide) _

/-- Not every file right inside the directory whose name ends as those of reports do comes out. -/
theorem not_all_reported :
    ¬∀ (b : Batch) (s s' : Session Empty) (o : Outcome), s.tree.Legal → s.perform b.run = (.ok o, s') →
      ∀ l name c, s.tree.placeOf b.reports = .ok l → (Path.ofString ".json").bytes <:+ name →
        s.tree.get? (l ++ [name]) = some (.file c) →
        ∃ report ∈ o.reports, s.tree.placeOf report = .ok (l ++ [name]) := by
  intro all
  have nothing : (oneReport.perform trailing.run).1 = .ok .empty := by
    apply eq_ok_of_toOption
    rw [perform_run]
    decide +kernel
  have place : oneReport.tree.placeOf trailing.reports = .ok [] := eq_ok_of_toOption (by decide +kernel)
  obtain ⟨report, listed, -⟩ := all trailing oneReport _ .empty legal_oneReport (Prod.ext nothing rfl) []
    (Path.ofString "a.json").bytes (.bytes plainReport) place (by decide) (by decide)
  cases listed

end Batch
end CycleChart
