import CycleChart.Proofs.Batch.Outputs
import CycleChart.Proofs.Files.Making

namespace CycleChart

open Session

/-- Where the path of a chart leads to, in a tree that is kept until the directory of the charts is there. -/
theorem Tree.Keeps.place_of_join {t u : Tree Empty} (h : Keeps t u) {p : Path} {l m : Location} {name : Name}
    (lies : u.LiesAt p l) (chart : IsChartName name) (place : t.placeOf (p.join ⟨name⟩) = .ok m) : m = l ++ [name] := by
  obtain ⟨parts, eq, walked⟩ := lies.segments_join chart.clear
  have whole := (placeOf_eq_ok place).2
  rw [eq] at whole
  obtain ⟨k, before, step⟩ := foldlM_enterAt_concat whole
  obtain ⟨here, -, -, -, same⟩ := (enterAt_normal_eq_ok (Path.component?_of_ending chart.ends (by decide))).1 step
  have later := h.foldlM before here (.inl rfl)
  rw [← start_of_setting h.setting, walked, Except.ok.injEq] at later
  rw [same, later]

/-- A report is kept with its bytes. -/
theorem Tree.Keeps.holds_report {t u : Tree Empty} (h : Keeps t u) {report : Path} (there : t.IsReport report) :
    ∃ c, t.Holds report c ∧ u.Holds report c := by
  obtain ⟨l, c, place, here⟩ := isFile_iff.1 there.file
  have solid := not_isPicture there.ends place
  exact ⟨c, ⟨l, place, here⟩, l, h.placeOf place here (.inr solid), h.solid l _ here (.inr solid)⟩

namespace Batch

/-- What a result tells of the charts that were begun, and of what they hold: those that were written hold pictures, and
those that do not fit into their files a part of one. If a picture is too large, it may be the chart of any report. -/
inductive Begun (b : Batch) (s : Session Empty) : Except BatchError Outcome → Path → Content → Prop
  | written {o : Outcome} {w : Written} (mem : w ∈ o.written) (picture : Canvas) :
      Begun b s (.ok o) w.chart (.picture picture)
  | partly {o : Outcome} {f : Failure} (mem : f ∈ o.failed) (part : f.IsPartial) (bytes : List UInt8) :
      Begun b s (.ok o) (f.report.chart b.charts) (.bytes bytes)
  | aborted {cause : Overflow} {reports : List Path} {report : Path} (found : (s.perform b.discover).1 = .ok reports)
      (mem : report ∈ reports) (c : Content) : Begun b s (.error (.overflow cause)) (report.chart b.charts) c

/-- What a run leaves of the tree from which it starts. -/
structure Frame (b : Batch) (s : Session Empty) (run : Except BatchError Outcome × Session Empty) : Prop where
  /-- Where the trees differ, there is a new directory on the way to that of the charts, or a chart that was begun. -/
  differences : ∀ l, run.2.tree.get? l ≠ s.tree.get? l →
    s.tree.IsNew run.2.tree b.charts l ∨
      ∃ chart c, b.Begun s run.1 chart c ∧ run.2.tree.placeOf chart = .ok l ∧ run.2.tree.get? l = some (.file c)
  /-- The reports that are found keep their bytes. -/
  reports : ∀ reports, (s.perform b.discover).1 = .ok reports → ∀ report ∈ reports,
    ∃ c, s.tree.Holds report c ∧ run.2.tree.Holds report c
  /-- Where the path of the chart of a failed report leads to, before or after, there is the same file or none as before,
  unless this chart was begun. -/
  failures : ∀ o, run.1 = .ok o → ∀ f ∈ o.failed, (∀ c, ¬b.Begun s run.1 (f.report.chart b.charts) c) →
    ∀ l, s.tree.placeOf (f.report.chart b.charts) = .ok l ∨ run.2.tree.placeOf (f.report.chart b.charts) = .ok l →
      ∀ c, run.2.tree.get? l = some (.file c) ↔ s.tree.get? l = some (.file c)
  /-- Without a report, nothing is made. -/
  nothing : (∀ report reports, (s.perform b.discover).1 ≠ .ok (report :: reports)) → run.2.tree = s.tree

/-- A run that changes nothing. -/
theorem frame_of_unchanged {b : Batch} {s : Session Empty} {run : Except BatchError Outcome × Session Empty}
    (same : run.2.tree = s.tree) : b.Frame s run where
  differences l other := absurd (congrArg (Tree.get? · l) same) other
  reports := by
    intro reports found report mem
    rw [perform_discover] at found
    rw [same]
    exact (Tree.Extended.refl s.tree).keeps.holds_report (isReport_of_found found report mem)
  failures := by
    intro o _ f _ _ l _ c
    rw [same]
  nothing _ := same

theorem nothing_of_found {b : Batch} {s : Session Empty} {reports : List Path} (found : b.found s.tree = .ok reports)
    (some : reports ≠ []) : ¬∀ report reports, (s.perform b.discover).1 ≠ .ok (report :: reports) := by
  intro none
  rw [perform_discover] at none
  cases reports with
  | nil => exact some rfl
  | cons report reports => exact none report reports found

/-- The frame of a run that cannot make the directory of the charts. -/
theorem frame_of_failed {b : Batch} {s made : Session Empty} {reports : List Path} {e : FileError} (some : reports ≠ [])
    (found : b.found s.tree = .ok reports) (here : s.perform (Host.makeDirectories b.charts) = (.error e, made)) :
    b.Frame s (.error (.outputDirectory b.charts e), made) := by
  have opened := opened_makeDirectories s b.charts
  rw [here] at opened
  constructor
  · intro l other
    exact .inl (opened.new l other)
  · intro reports' found' report mem
    rw [perform_discover] at found'
    exact opened.extended.keeps.holds_report (isReport_of_found found' report mem)
  · nofun
  · intro none
    exact absurd none (nothing_of_found found some)

end Batch

section

variable [Drawing.Typeface]

/-- A report that fails leaves everything as it was, unless its picture does not fit into its file. -/
theorem perform_chartReport_error {L : Type} [Links L] {s s' : Session L} {f : Figure} {report file : Path}
    {e : ChartError} (h : s.perform (chartReport f report file) = (.error e, s')) :
    s' = s ∨ e = .render (.saving file (.file .fileTooLarge)) ∧
      ∃ directory name bytes, s.tree.opened file = .ok (directory, name) ∧
        s' = { s with tree := s.tree.insert directory name (.file (.bytes bytes)) } := by
  rw [perform_chartReport] at h
  cases drawn : s.tree.pictureOf f report with
  | error cause =>
    rw [drawn] at h
    cases h
    exact .inl rfl
  | ok picture =>
    have filled := Tree.pictureOf_filled drawn
    rw [drawn] at h
    dsimp only at h
    rw [Tree.write] at h
    cases opened : s.tree.opened file with
    | error cause =>
      rw [opened] at h
      cases h
      exact .inl rfl
    | ok r =>
      rw [opened] at h
      dsimp only at h
      cases full : (s.tree.fill (r.1 ++ [r.2]) picture.content).1 with
      | ok u =>
        rw [full, Canvas.saved, filled] at h
        cases h
      | error cause =>
        obtain ⟨rfl, bytes, cut⟩ := Tree.fill_error full
        rw [full, cut] at h
        cases h
        exact .inr ⟨rfl, r.1, r.2, bytes, rfl, rfl⟩

namespace Batch

/-- A place holds after some reports what it held before, or what one of them left there, whatever it held before. -/
theorem after_cases (b : Batch) (made : Session Empty) (l m : Location) (reports : List Path) :
    (∀ here, b.after made l m reports here = here) ∨
      ∃ report ∈ reports, m = l ++ [report.chartName] ∧
        ∃ c, b.stored? made report = some c ∧ ∀ here, b.after made l m reports here = some (.file c) := by
  induction reports with
  | nil => exact .inl fun here => rfl
  | cons report reports ih =>
    rcases ih with same | ⟨x, mem, place, c, stored, last⟩
    · by_cases there : m = l ++ [report.chartName]
      · cases stored : b.stored? made report with
        | none =>
          refine .inl fun here => ?_
          have step := same here
          rw [after] at step ⊢
          rw [List.foldl_cons, if_pos there, stored]
          exact step
        | some c =>
          refine .inr ⟨report, by simp, there, c, stored, fun here => ?_⟩
          have step := same (some (.file c))
          rw [after] at step ⊢
          rw [List.foldl_cons, if_pos there, stored]
          exact step
      · refine .inl fun here => ?_
        have step := same here
        rw [after] at step ⊢
        rw [List.foldl_cons, if_neg there]
        exact step
    · exact .inr ⟨x, by simp [mem], place, c, stored, fun here => last _⟩

theorem reached_subset (b : Batch) (made : Session Empty) (reports : List Path) : b.reached made reports ⊆ reports := by
  induction reports with
  | nil => exact List.Subset.refl _
  | cons report reports ih =>
    rw [reached]
    split
    · exact List.nil_subset _
    · exact List.cons_subset_cons _ ih

/-- The differences that the loop over the reports makes. -/
theorem differences_of_loop {b : Batch} {s made s' : Session Empty} {reports : List Path} {l : Location}
    (opened : Tree.Opened b.charts s.tree made.tree) (there : ∀ report ∈ reports, s.tree.IsReport report)
    (lies : made.tree.LiesAt b.charts l) (repainted : Tree.Repainted made.tree s'.tree)
    (places : ∀ m, s'.tree.get? m = b.after made l m (b.reached made reports) (made.tree.get? m)) (m : Location)
    (other : s'.tree.get? m ≠ s.tree.get? m) :
    s.tree.IsNew s'.tree b.charts m ∨
      ∃ report ∈ b.reached made reports, ∃ c, b.stored? made report = some c ∧
        s'.tree.placeOf (report.chart b.charts) = .ok m ∧ s'.tree.get? m = some (.file c) := by
  by_cases same : made.tree.get? m = s.tree.get? m
  · rcases b.after_cases made l m (b.reached made reports) with unchanged | ⟨report, mem, place, c, stored, here⟩
    · rw [places, unchanged] at other
      exact absurd same other
    · have final : s'.tree.get? m = some (.file c) := by rw [places, here]
      have taken : s'.tree.get? m ≠ none := by
        rw [final]
        nofun
      have chart := Path.isChartName (there report (b.reached_subset made reports mem)).ends
      refine .inr ⟨report, mem, c, stored, ?_, final⟩
      rw [place] at taken ⊢
      obtain ⟨r, opened⟩ := exists_opened_of_stored stored
      exact Tree.placeOf_join lies chart opened repainted.setting (repainted.keeps.liesAt lies) taken
  · obtain ⟨free, here, q, around, place⟩ := opened.new m same
    refine .inl ⟨free, (repainted.directories m).2 here, q, around, ?_⟩
    exact repainted.keeps.placeOf place here (.inl rfl)

/-- What was begun on the way is told of in the end. -/
theorem begun_of_tally {b : Batch} {s made : Session Empty} {reports : List Path} (found : b.found s.tree = .ok reports)
    {report : Path} (mem : report ∈ b.reached made reports) {c : Content} (stored : b.stored? made report = some c) :
    b.Begun s ((b.tally made reports .empty).mapError .overflow) (report.chart b.charts) c := by
  cases result : b.tally made reports .empty with
  | error cause =>
    refine .aborted ?_ (b.reached_subset made reports mem) c
    rw [perform_discover]
    exact found
  | ok o =>
    obtain ⟨written, failed, all⟩ := tally_eq_ok result
    rw [all] at mem
    cases b.fate made report with
    | written _ _ alone kept =>
      cases stored.symm.trans kept
      refine .written (w := ⟨report, report.chart b.charts⟩) ?_ _
      rw [written]
      exact List.mem_append_right _ (mem_written_iff.2 ⟨mem, rfl, alone⟩)
    | partly _ alone kept =>
      cases stored.symm.trans kept
      refine .partly (f := ⟨report, .render (.saving (report.chart b.charts) (.file .fileTooLarge))⟩) ?_ ⟨_, rfl⟩ _
      rw [failed]
      exact List.mem_append_right _ (mem_failed_iff.2 ⟨mem, alone⟩)
    | unopened _ none _ => cases stored.symm.trans none

theorem mem_of_tally_failed {b : Batch} {made : Session Empty} {reports : List Path} {o : Outcome}
    (h : (b.tally made reports .empty).mapError BatchError.overflow = .ok o) {f : Failure} (mem : f ∈ o.failed) :
    f.report ∈ reports := by
  cases result : b.tally made reports .empty with
  | error cause =>
    rw [result] at h
    cases h
  | ok o' =>
    rw [result] at h
    cases h
    obtain ⟨-, failed, -⟩ := tally_eq_ok result
    rw [failed] at mem
    exact (mem_failed_iff.1 mem).1

/-- The frame of a run that comes to charting its reports. -/
theorem frame_of_loop {b : Batch} {s made s' : Session Empty} {reports : List Path} (some : reports ≠ [])
    (found : b.found s.tree = .ok reports) (here : s.perform (Host.makeDirectories b.charts) = (.ok (), made))
    (run : (b.chartAll reports .empty : StateM (Session Empty) (Except Overflow Outcome)).run made =
      (b.tally made reports .empty, s')) :
    b.Frame s ((b.tally made reports .empty).mapError .overflow, s') := by
  have opened := opened_makeDirectories s b.charts
  rw [here] at opened
  have there := isReport_of_found found
  obtain ⟨l, u, lies, same, repainted, places⟩ := run_chartAll_of_found found here
  rw [run, Prod.mk.injEq] at same
  obtain ⟨-, rfl⟩ := same
  have keeps : Tree.Keeps s.tree s'.tree := opened.extended.keeps.trans repainted.keeps
  have differences := differences_of_loop opened there lies repainted places
  constructor
  · intro m other
    rcases differences m other with new | ⟨report, mem, c, stored, place, final⟩
    · exact .inl new
    · exact .inr ⟨_, c, begun_of_tally found mem stored, place, final⟩
  · intro reports' found' report mem
    rw [perform_discover, found] at found'
    cases found'
    exact keeps.holds_report (there report mem)
  · intro o result f mem apart m place c
    rcases Classical.em (s'.tree.get? m = s.tree.get? m) with same | other
    · rw [same]
    · rcases differences m other with ⟨free, new, -⟩ | ⟨x, listed, d, stored, place', -⟩
      · simp [free, new]
      · exfalso
        have lies' := repainted.keeps.liesAt lies
        have chart := Path.isChartName (there _ (mem_of_tally_failed result mem)).ends
        have chart' := Path.isChartName (there x (b.reached_subset made reports listed)).ends
        have one : m = l ++ [f.report.chartName] := by
          rcases place with place | place
          · exact keeps.place_of_join lies' chart place
          · exact (Tree.Extended.refl s'.tree).keeps.place_of_join lies' chart place
        have two : m = l ++ [x.chartName] := (Tree.Extended.refl s'.tree).keeps.place_of_join lies' chart' place'
        have names : f.report.chartName = x.chartName := by
          rw [one] at two
          simpa using two
        refine apart d ?_
        rw [Path.chart_eq_join, names, ← Path.chart_eq_join]
        exact begun_of_tally found listed stored
  · intro none
    exact absurd none (nothing_of_found found some)

/-- A run changes the charts alone that it begins, and makes directories on the way to them. A report that fails changes
nothing, unless its picture does not fit into its file: then this file is all that it changes. -/
theorem run_frame (b : Batch) (s : Session Empty) :
    b.Frame s (s.perform b.run) ∧
      ∀ (t u : Session Empty) (report : Path) (e : ChartError),
        t.perform (chartReport b.figure report (report.chart b.charts)) = (.error e, u) →
        u = t ∨ e = .render (.saving (report.chart b.charts) (.file .fileTooLarge)) ∧
          ∃ directory name bytes, t.tree.opened (report.chart b.charts) = .ok (directory, name) ∧
            u = { t with tree := t.tree.insert directory name (.file (.bytes bytes)) } := by
  refine ⟨?_, fun t u report e => perform_chartReport_error⟩
  rw [perform_run]
  split
  · exact frame_of_unchanged rfl
  · exact frame_of_unchanged (tree_told b _ s)
  · rename_i reports some found
    split
    · rename_i e made here
      exact frame_of_failed some found here
    · rename_i made here
      obtain ⟨l, s', -, run, -⟩ := run_chartAll_of_found found here
      have framed := frame_of_loop some found here run
      rw [run]
      cases result : b.tally made reports .empty with
      | ok o =>
        rw [result] at framed
        exact framed
      | error cause =>
        rw [result] at framed
        exact framed

end Batch
end

/-! Charts of failed reports that do change. -/

namespace Batch

open scoped Drawing.Typeface

def besideFiles : Tree Empty :=
  ((directoryOf "in" [(".json", plainReport), (".json.json", [])]).insert [] (Path.ofString "charts").bytes
    .directory).insert [(Path.ofString "charts").bytes] (Path.ofString ".json.png").bytes (.file (.bytes []))

/-- Two reports that have one chart, of which the second one is empty, and an older file in place of the chart. -/
def besideChart : Session Empty :=
  .start (besideFiles.standing [(Path.ofString "work").bytes] (by decide +kernel))

def emptyReport : Failure := ⟨.ofString "../in/.json.json", .load (.empty (.ofString "../in/.json.json"))⟩

theorem legal_besideFiles : besideFiles.Legal := by
  simp only [besideFiles, directoryOf, List.foldl]
  refine (((((Tree.legal_empty.insert ?_ ?_ ?_ _).insert ?_ ?_ ?_ _).insert ?_ ?_ ?_ _).insert ?_ ?_ ?_ _).insert
    ?_ ?_ ?_ _).insert ?_ ?_ ?_ _
  all_goals decide +kernel

def crowdedFiles : Tree Empty := directoryOf "in" [("a.json", plainReport)]

/-- A report whose chart does not fit into its file. -/
def crowded : Session Empty :=
  .start ((crowdedFiles.standing [(Path.ofString "work").bytes] (by decide +kernel)).limit
    [(Path.ofString "charts").bytes, (Path.ofString "a.png").bytes] 3)

def partlyWritten : Failure :=
  ⟨.ofString "../in/a.json", .render (.saving (.ofString "/charts/a.png") (.file .fileTooLarge))⟩

theorem legal_crowdedFiles : crowdedFiles.Legal := by
  simp only [crowdedFiles, directoryOf, List.foldl]
  refine ((Tree.legal_empty.insert ?_ ?_ ?_ _).insert ?_ ?_ ?_ _).insert ?_ ?_ ?_ _
  all_goals decide +kernel

/-- Not every failed report leaves its chart as it was: another report may have written it, and it may have been begun. -/
theorem not_all_untouched :
    (¬∀ (b : Batch) (s s' : Session Empty) (o : Outcome), s.tree.Named → s.perform b.run = (.ok o, s') →
      ∀ f ∈ o.failed, ∀ l c, s.tree.placeOf (f.report.chart b.charts) = .ok l → s.tree.get? l = some (.file c) →
        s'.tree.get? l = some (.file c)) ∧
    ¬∀ (b : Batch) (s s' : Session Empty) (o : Outcome), s.tree.Named → s.perform b.run = (.ok o, s') →
      (∀ w ∈ o.written, ∀ f ∈ o.failed, w.chart ≠ f.report.chart b.charts) →
      ∀ f ∈ o.failed, (∀ l, s.tree.placeOf (f.report.chart b.charts) ≠ .ok l) →
        s'.tree.isFile (f.report.chart b.charts) = false := by
  constructor
  · intro untouched
    have run : (besideChart.perform small.run).1 =
        .ok ⟨[⟨.ofString "../in/.json", .ofString "/charts/.json.png"⟩], [emptyReport]⟩ := by
      apply eq_ok_of_toOption
      rw [perform_run]
      decide +kernel
    have same := untouched small besideChart _ _ legal_besideFiles.named (Prod.ext run rfl) emptyReport
      (List.mem_singleton_self _) [(Path.ofString "charts").bytes, (Path.ofString ".json.png").bytes] (.bytes [])
      (eq_ok_of_toOption (by decide +kernel)) (by decide +kernel)
    rw [perform_run] at same
    exact absurd same (by decide +kernel)
  · intro untouched
    have run : (crowded.perform small.run).1 = .ok ⟨[], [partlyWritten]⟩ := by
      apply eq_ok_of_toOption
      rw [perform_run]
      decide +kernel
    have before : (crowded.tree.placeOf (partlyWritten.report.chart small.charts)).toOption = none := by decide +kernel
    have none := untouched small crowded _ _ legal_crowdedFiles.named (Prod.ext run rfl) nofun partlyWritten
      (List.mem_singleton_self _) fun l place => by simp [place, Except.toOption] at before
    rw [perform_run] at none
    exact absurd none (by decide +kernel)

end Batch
end CycleChart
