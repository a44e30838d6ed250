import CycleChart.Batch.Run
import CycleChart.Proofs.Results

namespace CycleChart

/-- The reports of an outcome, those that were written first. -/
def Outcome.reports (o : Outcome) : List Path := o.written.map (·.report) ++ o.failed.map (·.report)

/-- Reports are gone through in their order. Each of them is written or has failed. -/
structure Outcome.Sorts (o : Outcome) (reports : List Path) : Prop where
  written : (o.written.map (·.report)).Sublist reports
  failed : (o.failed.map (·.report)).Sublist reports
  all : o.reports.Perm reports

namespace Outcome

variable {o : Outcome} {reports : List Path}

theorem sorts_nil : empty.Sorts [] := ⟨.refl _, .refl _, .refl _⟩

theorem Sorts.cons_written (h : o.Sorts reports) (w : Written) :
    Sorts { o with written := w :: o.written } (w.report :: reports) :=
  ⟨h.written.cons_cons _, h.failed.cons _, h.all.cons _⟩

theorem Sorts.cons_failed (h : o.Sorts reports) (f : Failure) :
    Sorts { o with failed := f :: o.failed } (f.report :: reports) :=
  ⟨h.written.cons _, h.failed.cons_cons _, List.perm_middle.trans (h.all.cons _)⟩

end Outcome

namespace Batch

variable [Drawing.Typeface] {S : Type} [Host (StateM S)]

/-- What is charted is added to what was charted before. -/
theorem chartAll_sorts {b : Batch} {reports : List Path} {o o' : Outcome} {s s' : S}
    (h : (b.chartAll reports o : StateM S (Except Overflow Outcome)).run s = (.ok o', s')) :
    ∃ p : Outcome, o' = ⟨o.written ++ p.written, o.failed ++ p.failed⟩ ∧ p.Sorts reports ∧
      ∀ w ∈ p.written, w.chart = w.report.chart b.charts := by
  induction reports generalizing o s with
  | nil =>
    cases h
    exact ⟨.empty, by simp [Outcome.empty], Outcome.sorts_nil, nofun⟩
  | cons report reports ih =>
    obtain ⟨-, t, -, h⟩ := exists_of_run_bind h
    obtain ⟨r, u, -, h⟩ := exists_of_run_bind h
    have failing {e : ChartError} {t : S}
        (h : (b.chartAll reports (o.addFailed ⟨report, e⟩) : StateM S (Except Overflow Outcome)).run t = (.ok o', s')) :
        ∃ p : Outcome, o' = ⟨o.written ++ p.written, o.failed ++ p.failed⟩ ∧ p.Sorts (report :: reports) ∧
          ∀ w ∈ p.written, w.chart = w.report.chart b.charts := by
      obtain ⟨p, rfl, sorted, charts⟩ := ih h
      exact ⟨_, by simp [Outcome.addFailed], sorted.cons_failed ⟨report, e⟩, charts⟩
    rcases r with e | a
    · cases e with
      | overflow cause => cases h
      | load cause =>
        obtain ⟨-, v, -, h⟩ := exists_of_run_bind h
        exact failing h
      | render cause =>
        obtain ⟨-, v, -, h⟩ := exists_of_run_bind h
        exact failing h
    · obtain ⟨p, rfl, sorted, charts⟩ := ih h
      refine ⟨_, by simp [Outcome.addWritten], sorted.cons_written ⟨report, report.chart b.charts⟩, ?_⟩
      exact List.forall_mem_cons.2 ⟨rfl, charts⟩

/-- A run that ends well sorts the reports that are found, and names the charts after their reports. -/
theorem run_sorts {b : Batch} {o : Outcome} {s s' : S}
    (h : (b.run : ExceptT BatchError (StateM S) Outcome).run.run s = (.ok o, s')) :
    ∃ reports t, (b.discover : ExceptT BatchError (StateM S) (List Path)).run.run s = (.ok reports, t) ∧
      o.Sorts reports ∧ ∀ w ∈ o.written, w.chart = w.report.chart b.charts := by
  obtain ⟨reports, t, found, h⟩ := exists_of_run_then h
  refine ⟨reports, t, found, ?_⟩
  cases reports with
  | nil =>
    obtain ⟨-, u, -, h⟩ := exists_of_run_then h
    cases h
    exact ⟨Outcome.sorts_nil, nofun⟩
  | cons report reports =>
    obtain ⟨-, u, -, h⟩ := exists_of_run_then h
    obtain ⟨r, v, charted, h⟩ := exists_of_run_then h
    cases r with
    | error cause => cases h
    | ok o' =>
      cases h
      obtain ⟨p, rfl, sorted, charts⟩ := chartAll_sorts (exists_of_run_lift charted)
      exact ⟨sorted, charts⟩

end Batch
end CycleChart
