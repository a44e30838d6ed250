import CycleChart.Proofs.Batch.Readiness
import CycleChart.Proofs.Command.Ending

namespace CycleChart.Command

open Session

theorem saying_session {L : Type} [Links L] (messages : List Message) (s : Session L) :
    saying messages s = { s with said := s.said ++ messages } := by
  apply saying_eq fun (s : Session L) messages => { s with said := s.said ++ messages }
  · intro s
    rw [List.append_nil]
  · intro message messages s
    simp [Host.say, StateT.run]

section

variable [Drawing.Typeface] {arguments : List (List UInt8)} {quiet : Bool} {reports charts : Option Path}

theorem run_program_of_error (accepted : Request.ofArguments arguments = .ok (.charts quiet reports charts))
    {s t : Session Empty} {e : BatchError} (run : s.perform (batchOf quiet reports charts).run = (.error e, t))
    (small : ∀ cause, e ≠ .overflow cause) :
    ∃ u, (program arguments : StateM (Session Empty) Status).run s = (.failure, u) := by
  rw [perform] at run
  rw [run_program accepted, run]
  cases e with
  | overflow cause => exact absurd rfl (small cause)
  | _ => exact ⟨_, rfl⟩

/-- A program that comes to charting succeeds if no report fails. Else it says how many of them failed. -/
theorem run_program_of_outcome (accepted : Request.ofArguments arguments = .ok (.charts quiet reports charts))
    {s t : Session Empty} {o : Outcome} (run : s.perform (batchOf quiet reports charts).run = (.ok o, t)) :
    ∃ status u, (program arguments : StateM (Session Empty) Status).run s = (status, u) ∧
      (o.failed = [] ∧ status = .success ∨
        o.failed ≠ [] ∧ status = .failure ∧ u.said.getLast? = some (failureLine o.failed.length o.total)) := by
  rw [perform] at run
  rw [run_program accepted, run]
  refine ⟨_, _, rfl, ?_⟩
  dsimp only [statusOf, closing]
  rw [saying_session]
  split
  · rename_i success
    exact .inl ⟨List.isEmpty_iff.1 success, rfl⟩
  · rename_i failed
    refine .inr ⟨fun none => failed (List.isEmpty_iff.2 none), rfl, ?_⟩
    rw [← List.append_assoc, ← List.append_assoc]
    exact List.getLast?_concat

/-- The program succeeds just if the directory of the reports is there, that of the charts is there or can be made
unless there are no reports, and every report that is found is one and can have its chart written. Else it fails. If
reports failed, it says in the end how many of all did. Where any number of bytes fits into a file, a chart can be
written just if it can be opened. -/
theorem program_status (accepted : Request.ofArguments arguments = .ok (.charts quiet reports charts)) (t : Tree Empty)
    (named : t.Named) :
    let b := batchOf quiet reports charts
    ((∀ report ∈ b.discovered t, ∀ r, t.report? report = some r → r.Fits) →
      ∃ status s, (program arguments : StateM (Session Empty) Status).run (.start t) = (status, s) ∧
        (status = .success ↔ b.Ready t) ∧ (status = .success ∨ status = .failure) ∧
        ∀ failing : List Path, (b.prepared t).1 = .ok () → failing ≠ [] → failing.Nodup →
          (∀ report, report ∈ failing ↔ report ∈ b.discovered t ∧ ¬b.Charts t report) →
          s.said.getLast? = some (failureLine failing.length (b.discovered t).length)) ∧
      ((∀ l, t.capacity l = none) → ∀ report, b.Charts t report ↔
        (t.report? report).isSome ∧ ∃ l name, (b.prepared t).2.tree.Opens (report.chart b.charts) l name) := by
  intro b
  refine ⟨fun room => ?_, fun unlimited report => Batch.charts_iff_of_unlimited unlimited⟩
  by_cases comes : t.isDirectory b.reports ∧ (b.discovered t ≠ [] → (b.prepared t).1 = .ok ())
  · obtain ⟨there, made⟩ := comes
    obtain ⟨o, s, run, total, distinct, failed⟩ := Batch.exists_outcome_of_run named rfl room there made
    obtain ⟨status, u, ended, cases⟩ := run_program_of_outcome accepted run
    refine ⟨status, u, ended, ?_, ?_, ?_⟩
    · rw [Batch.ready_iff_of_lacking there made failed, List.map_eq_nil_iff]
      rcases cases with ⟨none, rfl⟩ | ⟨some, rfl, -⟩
      · exact iff_of_true rfl none
      · exact iff_of_false nofun some
    · exact cases.imp And.right fun h => h.2.1
    · intro failing _ some apart same
      have length : failing.length = o.failed.length := by
        have perm := (List.perm_ext_iff_of_nodup apart distinct).2 fun report =>
          (same report).trans (failed report).symm
        rw [perm.length_eq, List.length_map]
      rcases cases with ⟨none, -⟩ | ⟨-, -, last⟩
      · rw [none] at length
        exact absurd (List.length_eq_zero_iff.1 length) some
      · rw [last, length, total]
  · obtain ⟨e, s, run, small⟩ := Batch.exists_error_of_run comes
    obtain ⟨u, ended⟩ := run_program_of_error accepted run small
    refine ⟨.failure, u, ended, ?_, .inr rfl, ?_⟩
    · refine iff_of_false nofun fun ready => comes ⟨ready.reports, ready.charts⟩
    · intro failing made some _ same
      obtain ⟨report, mem⟩ := List.exists_mem_of_ne_nil failing some
      have there := Batch.isDirectory_of_discovered ((same report).1 mem).1
      exact absurd ⟨there, fun _ => made⟩ comes

end

theorem fits_of_single {r : Report} (h : r.counts.entries = [("a", 5)]) : r.Fits := by
  have same : r.counts = Drawing.single := by
    rcases eq : r.counts with ⟨entries, ascending⟩
    rw [eq] at h
    subst h
    rfl
  refine ⟨⟨67, ?_⟩, ?_⟩
  · rw [same]
    exact Drawing.labelWidth_single
  · rw [h]
    decide

/-- An empty report beside one that can be charted and one that may not be read, on a figure of the usual size. -/
def mixedBatch : Batch := batchOf false (some (.ofString "../in")) none

theorem discovered_mixed : mixedBatch.discovered Batch.mixed.tree =
    [.ofString "../in/a.json", .ofString "../in/b.json", .ofString "../in/c.json"] := by
  rw [Batch.discovered_eq]
  decide +kernel

theorem report?_mixed_empty : Batch.mixed.tree.report? (.ofString "../in/a.json") = none := by
  rw [← Option.isNone_iff_eq_none]
  decide +kernel

theorem report?_mixed_barred : Batch.mixed.tree.report? (.ofString "../in/c.json") = none := by
  rw [← Option.isNone_iff_eq_none]
  decide +kernel

theorem report?_mixed_plain :
    (Batch.mixed.tree.report? (.ofString "../in/b.json")).map (·.counts.entries) = some [("a", 5)] := by
  decide +kernel

theorem fits_mixed {report : Path} (mem : report ∈ mixedBatch.discovered Batch.mixed.tree) {r : Report}
    (held : Batch.mixed.tree.report? report = some r) : r.Fits := by
  rw [discovered_mixed] at mem
  simp only [List.mem_cons, List.not_mem_nil, or_false] at mem
  rcases mem with rfl | rfl | rfl
  · rw [report?_mixed_empty] at held
    cases held
  · have counts := report?_mixed_plain
    rw [held] at counts
    exact fits_of_single (Option.some.inj counts)
  · rw [report?_mixed_barred] at held
    cases held

open scoped Drawing.Typeface

theorem charts_mixed : mixedBatch.Charts Batch.mixed.tree (.ofString "../in/b.json") := by
  constructor
  · rw [← Option.isSome_map (f := (·.counts.entries)), report?_mixed_plain]
    rfl
  · have opened : ((mixedBatch.prepared Batch.mixed.tree).2.tree.opened (.ofString "../in/charts/b.png")).toOption =
        some ([(Path.ofString "in").bytes, (Path.ofString "charts").bytes], (Path.ofString "b.png").bytes) := by
      decide +kernel
    exact ⟨_, _, Tree.opened_eq_ok_iff.1 (eq_ok_of_toOption opened)⟩
  · intro l name picture _ _ size limited
    cases limited

/-- The empty report and the one that may not be read are all that lacks something. -/
theorem mem_failing_mixed (report : Path) :
    report ∈ [Path.ofString "../in/a.json", .ofString "../in/c.json"] ↔
      report ∈ mixedBatch.discovered Batch.mixed.tree ∧ ¬mixedBatch.Charts Batch.mixed.tree report := by
  rw [discovered_mixed]
  simp only [List.mem_cons, List.not_mem_nil, or_false]
  constructor
  · rintro (rfl | rfl)
    · refine ⟨.inl rfl, fun ready => ?_⟩
      have held := ready.holds
      rw [report?_mixed_empty] at held
      cases held
    · refine ⟨.inr (.inr rfl), fun ready => ?_⟩
      have held := ready.holds
      rw [report?_mixed_barred] at held
      cases held
  · rintro ⟨rfl | rfl | rfl, lacking⟩
    · exact .inl rfl
    · exact absurd charts_mixed lacking
    · exact .inr rfl

theorem program_status_mixed :
    ∃ s, (program (namingReports "../in") : StateM (Session Empty) Status).run Batch.mixed = (.failure, s) ∧
      s.said.getLast? = some (failureLine 2 3) := by
  have accepted : Request.ofArguments (namingReports "../in") = .ok (.charts false (some (.ofString "../in")) none) :=
    eq_ok_of_toOption (by decide +kernel)
  have made : (mixedBatch.prepared Batch.mixed.tree).1 = .ok () := by decide +kernel
  obtain ⟨status, s, run, success, ends, count⟩ :=
    (program_status accepted Batch.mixed.tree Batch.legal_mixed.named).1 fun report mem r held => fits_mixed mem held
  refine ⟨s, ?_, ?_⟩
  · have unready : status ≠ .success := by
      intro well
      obtain ⟨listed, lacking⟩ := (mem_failing_mixed (.ofString "../in/a.json")).1 List.mem_cons_self
      exact lacking ((success.1 well).each _ listed)
    rw [← ends.resolve_left unready]
    exact run
  · have listed : (batchOf false (some (.ofString "../in")) none).discovered Batch.mixed.tree = _ := discovered_mixed
    rw [count [.ofString "../in/a.json", .ofString "../in/c.json"] made (List.cons_ne_nil _ _) (by decide)
      mem_failing_mixed, listed]
    rfl

end CycleChart.Command
