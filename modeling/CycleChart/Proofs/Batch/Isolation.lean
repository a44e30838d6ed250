import CycleChart.Proofs.Batch.Discovery

namespace CycleChart

open Session

/-- A file in a tree under a name that may be that of a report. -/
structure Tree.IsReport {L : Type} [Links L] (t : Tree L) (report : Path) : Prop where
  ends : (Path.ofString ".json").bytes <:+ report.bytes
  file : t.isFile report

theorem Tree.Extended.isReport {t u : Tree Empty} (h : Extended t u) {report : Path} (there : t.IsReport report) :
    u.IsReport report := by
  obtain ⟨l, c, place, here⟩ := isFile_iff.1 there.file
  have solid := not_isPicture there.ends place
  exact ⟨there.ends, isFile_iff.2 ⟨l, c, h.keeps.placeOf place here (.inr solid), h.all l _ here⟩⟩

theorem isReport_of_found {L : Type} [Links L] {b : Batch} {t : Tree L} {reports : List Path}
    (h : b.found t = .ok reports) : ∀ report ∈ reports, t.IsReport report := by
  intro report mem
  rcases Batch.found_eq_ok h with ⟨directory, names, -, rfl⟩ | ⟨-, rfl⟩
  · obtain ⟨name, listed, rfl⟩ := List.mem_map.1 mem
    obtain ⟨-, named, file⟩ := Batch.mem_listed.1 listed
    exact ⟨Path.ends_step (Batch.suffix_of_isReportName named) directory, file⟩
  · cases mem

/-- The reports that are found in a directory, by their names. The names ascend, hold no slash and end as they should. -/
theorem names_of_found {L : Type} [Links L] {b : Batch} {t : Tree L} (named : t.Named) {reports : List Path}
    (h : b.found t = .ok reports) :
    ∃ (directory : Path) (names : List Name), reports = names.map directory.step ∧ names.Pairwise (· < ·) ∧
      ∀ name ∈ names, Path.slash ∉ name ∧ (Path.ofString ".json").bytes <:+ name := by
  rcases Batch.found_eq_ok h with ⟨directory, names, looks, rfl⟩ | ⟨-, rfl⟩
  · obtain ⟨l, inside, place, -⟩ := Tree.names_eq_ok looks.names
    refine ⟨directory, Batch.listed t directory names, rfl, looks.ascending, fun name mem => ?_⟩
    obtain ⟨held, ends, -⟩ := Batch.mem_listed.1 mem
    exact ⟨named l name ((Tree.mem_names_iff looks.names place).1 held), Batch.suffix_of_isReportName ends⟩
  · exact ⟨⟨[]⟩, [], rfl, .nil, nofun⟩

/-- No report is found twice, since different names make different paths. -/
theorem nodup_of_found {L : Type} [Links L] {b : Batch} {t : Tree L} (named : t.Named) {reports : List Path}
    (h : b.found t = .ok reports) : reports.Nodup := by
  obtain ⟨directory, names, rfl, ascending, each⟩ := names_of_found named h
  have apart := ascending.imp fun less => Std.ne_of_lt less
  refine List.pairwise_map.2 (apart.imp_of_mem fun {a b} left right other same => other ?_)
  exact Path.eq_of_step same (each a left).1 (each b right).1

namespace Batch

section

variable {L : Type} [Links L]

/-- A session after something was said. -/
def told (b : Batch) (message : Message) (s : Session L) : Session L := ((b.tell message : StateM (Session L) Unit).run s).2

theorem tree_told (b : Batch) (message : Message) (s : Session L) : (b.told message s).tree = s.tree := by
  rw [told, tell]
  split <;> rfl

variable [Drawing.Typeface]

theorem run_chartAll_cons (b : Batch) (report : Path) (reports : List Path) (o : Outcome) (s : Session L) :
    (b.chartAll (report :: reports) o : StateM (Session L) (Except Overflow Outcome)).run s =
      let chart := report.chart b.charts
      let line := "Processing: " ++ Text.readable report.bytes ++ " → " ++ Text.readable chart.bytes
      match (b.told (.output line) s).perform (chartReport b.figure report chart) with
      | (.ok (), t) => (b.chartAll reports (o.addWritten ⟨report, chart⟩) : StateM (Session L) _).run t
      | (.error (.overflow cause), t) => (.error cause, t)
      | (.error e, t) =>
        (b.chartAll reports (o.addFailed ⟨report, e⟩) : StateM (Session L) _).run
          (b.told (.error ("Error: " ++ e.message)) t) := by
  rw [chartAll, StateT.run_bind]
  apply (StateT.run_bind _ _ _).trans
  simp only [told, perform]
  generalize StateT.run (m := Id)
    (ExceptT.run (chartReport b.figure report (report.chart b.charts) : ExceptT ChartError (StateM (Session L)) Unit)) _ = r
  rcases r with ⟨e | a, t⟩
  · cases e <;> rfl
  · rfl

theorem perform_run (b : Batch) (s : Session L) :
    s.perform b.run =
      match b.found s.tree with
      | .error e => (.error e, s)
      | .ok [] =>
        (.ok .empty, b.told (.error ("Warning: No JSON files found in " ++ b.reports.quoted ++ ".")) s)
      | .ok reports =>
        match s.perform (Host.makeDirectories b.charts) with
        | (.error e, t) => (.error (.outputDirectory b.charts e), t)
        | (.ok (), t) =>
          match (b.chartAll reports .empty : StateM (Session L) (Except Overflow Outcome)).run t with
          | (.ok o, u) => (.ok o, u)
          | (.error cause, u) => (.error (.overflow cause), u) := by
  rw [run, perform_bind, perform_discover]
  cases b.found s.tree with
  | error e => rfl
  | ok reports =>
    cases reports with
    | nil => rfl
    | cons report reports =>
      dsimp only
      rw [perform_bind, perform_adapt]
      rcases s.perform (Host.makeDirectories b.charts) with ⟨e | a, t⟩
      · rfl
      · dsimp only [mapError_ok]
        rw [perform_bind, perform_lift]
        dsimp only
        rcases (b.chartAll (report :: reports) .empty : StateM (Session L) (Except Overflow Outcome)).run t with
          ⟨e | o, u⟩ <;> rfl

/-- A run that ends well is a loop over the reports that were found. -/
theorem run_eq_ok {b : Batch} {s s' : Session L} {o : Outcome} (h : s.perform b.run = (.ok o, s')) :
    ∃ reports, b.found s.tree = .ok reports ∧
      (reports = [] ∧ o = .empty ∧ s'.tree = s.tree ∨
        reports ≠ [] ∧ ∃ made, s.perform (Host.makeDirectories b.charts) = (.ok (), made) ∧
          (b.chartAll reports .empty : StateM (Session L) (Except Overflow Outcome)).run made = (.ok o, s')) := by
  rw [perform_run] at h
  split at h
  · cases h
  · rename_i found
    cases h
    exact ⟨[], found, .inl ⟨rfl, rfl, tree_told b _ s⟩⟩
  · rename_i reports some found
    refine ⟨reports, found, .inr ⟨some, ?_⟩⟩
    split at h
    · cases h
    · rename_i made eq
      split at h
      · rename_i charted
        cases h
        exact ⟨made, eq, charted⟩
      · cases h

end

/-- The state in which the reports are charted: the directory of the charts is there. -/
theorem liesAt_of_made {s made : Session Empty} {p : Path} (h : s.perform (Host.makeDirectories p) = (.ok (), made)) :
    ∃ l, made.tree.LiesAt p l := by
  have there := (made_makeDirectories s p).there
  rw [h] at there
  rcases there rfl with empty | directory
  · exact ⟨made.tree.here, made.tree.get?_here, .inl ⟨empty, rfl⟩⟩
  · obtain ⟨l, place, here⟩ := Tree.isDirectory_iff.1 directory
    exact ⟨l, here, .inr place⟩

/-- The reports that were found are still there when the directory of the charts is made. -/
theorem isReport_of_made {b : Batch} {s made : Session Empty} {reports : List Path} (found : b.found s.tree = .ok reports)
    (here : s.perform (Host.makeDirectories b.charts) = (.ok (), made)) :
    ∀ report ∈ reports, made.tree.IsReport report := by
  have extended := (made_makeDirectories s b.charts).extended
  rw [here] at extended
  intro report mem
  exact extended.isReport (isReport_of_found found report mem)

end Batch

section

variable [Drawing.Typeface]

/-- A report has one picture, whatever other pictures there are. -/
theorem Tree.Keeps.pictureOf {t u : Tree Empty} (h : Keeps t u) {report : Path} (there : t.IsReport report)
    (f : Figure) : u.pictureOf f report = t.pictureOf f report := by
  obtain ⟨l, c, place, here⟩ := isFile_iff.1 there.file
  rw [Tree.pictureOf, h.read place here (not_isPicture there.ends place), Tree.pictureOf]

namespace Batch

/-- What is written for a report, if anything is. -/
def stored? (b : Batch) (s : Session Empty) (report : Path) : Option Content :=
  match s.tree.pictureOf b.figure report with
  | .error _ => none
  | .ok picture => s.tree.stored? (report.chart b.charts) picture.content

/-- A report comes out as it would alone, and changes nothing but its own picture. -/
theorem perform_chartReport_repainted {b : Batch} {made s : Session Empty} (same : Tree.Repainted made.tree s.tree)
    {l : Location} (lies : made.tree.LiesAt b.charts l) {report : Path} (there : made.tree.IsReport report) :
    ∃ next, s.perform (chartReport b.figure report (report.chart b.charts)) = (b.alone made report, next) ∧
      Tree.Repainted made.tree next.tree ∧
      ∀ m, next.tree.get? m =
        if m = l ++ [report.chartName] then ((b.stored? made report).map .file).or (s.tree.get? m)
        else s.tree.get? m := by
  have chart := Path.isChartName there.ends
  rw [alone, stored?, perform_chartReport, perform_chartReport, same.keeps.pictureOf there]
  cases made.tree.pictureOf b.figure report with
  | error e => exact ⟨s, rfl, same, fun m => by simp⟩
  | ok picture =>
    obtain ⟨result, repainted, places⟩ := same.write_join lies chart picture.content
    simp only [Path.chart_eq_join, result]
    exact ⟨_, rfl, repainted, places⟩

/-- What is noted of a report that is charted, from what becomes of it alone. -/
def written? (b : Batch) (made : Session Empty) (report : Path) : Option Written :=
  match b.alone made report with
  | .ok () => some ⟨report, report.chart b.charts⟩
  | .error _ => none

/-- What is noted of a report that fails, from what becomes of it alone. -/
def failure? (b : Batch) (made : Session Empty) (report : Path) : Option Failure :=
  match b.alone made report with
  | .ok () => none
  | .error e => some ⟨report, e⟩

/-- A place after some reports are charted: the last of them that goes there is there. -/
def after (b : Batch) (made : Session Empty) (l m : Location) (reports : List Path) (before : Option (Entry Empty)) :
    Option (Entry Empty) :=
  reports.foldl (fun here report =>
    if m = l ++ [report.chartName] then ((b.stored? made report).map .file).or here else here) before

/-- What becomes of some reports that each come out as they would alone. A picture that is too large ends it all. -/
def tally (b : Batch) (made : Session Empty) : List Path → Outcome → Except Overflow Outcome
  | [], o => .ok o
  | report :: reports, o =>
    match b.alone made report with
    | .ok () => b.tally made reports (o.addWritten ⟨report, report.chart b.charts⟩)
    | .error (.overflow cause) => .error cause
    | .error e => b.tally made reports (o.addFailed ⟨report, e⟩)

/-- The reports before the first one whose picture is too large. -/
def reached (b : Batch) (made : Session Empty) : List Path → List Path
  | [] => []
  | report :: reports =>
    match b.alone made report with
    | .error (.overflow _) => []
    | _ => report :: b.reached made reports

theorem reached_cons {b : Batch} {made : Session Empty} {report : Path}
    (h : ∀ cause, b.alone made report ≠ .error (.overflow cause)) (reports : List Path) :
    b.reached made (report :: reports) = report :: b.reached made reports := by
  rw [reached]
  split
  · exact absurd ‹_› (h _)
  · rfl

theorem stored?_of_overflow {b : Batch} {made : Session Empty} {report : Path} {cause : Overflow}
    (h : b.alone made report = .error (.overflow cause)) : b.stored? made report = none := by
  rw [alone, perform_chartReport] at h
  rw [stored?]
  cases drawn : made.tree.pictureOf b.figure report with
  | error e => rfl
  | ok picture =>
    exfalso
    rw [drawn] at h
    exact picture.saved_ne_overflow h

/-- Reports charted one after another each come out as they would alone. -/
theorem run_chartAll {b : Batch} {made : Session Empty} {l : Location} (lies : made.tree.LiesAt b.charts l)
    {reports : List Path} (there : ∀ report ∈ reports, made.tree.IsReport report) {s : Session Empty}
    (same : Tree.Repainted made.tree s.tree) (o : Outcome) :
    ∃ s', (b.chartAll reports o : StateM (Session Empty) (Except Overflow Outcome)).run s = (b.tally made reports o, s') ∧
      Tree.Repainted made.tree s'.tree ∧
      ∀ m, s'.tree.get? m = b.after made l m (b.reached made reports) (s.tree.get? m) := by
  induction reports generalizing s o with
  | nil => exact ⟨s, rfl, same, fun m => rfl⟩
  | cons report reports ih =>
    obtain ⟨first, rest⟩ := List.forall_mem_cons.1 there
    rw [run_chartAll_cons]
    dsimp only
    generalize line : b.told (.output _) s = begun
    have before : begun.tree = s.tree := line ▸ tree_told b _ s
    have start : Tree.Repainted made.tree begun.tree := before ▸ same
    obtain ⟨next, charted, repainted, places⟩ := perform_chartReport_repainted start lies first
    rw [charted]
    rw [before] at places
    have step (m : Location) : b.after made l m (report :: b.reached made reports) (s.tree.get? m) =
        b.after made l m (b.reached made reports) (next.tree.get? m) := by
      rw [places]
      rfl
    cases alone : b.alone made report with
    | ok a =>
      obtain ⟨s', run, final, held⟩ := ih rest repainted (o.addWritten ⟨report, report.chart b.charts⟩)
      refine ⟨s', ?_, final, fun m => ?_⟩
      · rw [tally, alone]
        exact run
      · rw [reached_cons (by rw [alone]; nofun), step]
        exact held m
    | error e =>
      by_cases large : ∃ cause, e = .overflow cause
      · obtain ⟨cause, rfl⟩ := large
        refine ⟨next, by rw [tally, alone], repainted, fun m => ?_⟩
        rw [reached, alone, places, stored?_of_overflow alone]
        simp [after]
      · have after : (b.told (.error ("Error: " ++ e.message)) next).tree = next.tree := tree_told b _ next
        obtain ⟨s', run, final, held⟩ := ih rest (after.symm ▸ repainted) (o.addFailed ⟨report, e⟩)
        rw [after] at held
        refine ⟨s', ?_, final, fun m => ?_⟩
        · rw [tally, alone]
          cases e with
          | overflow cause => exact absurd ⟨cause, rfl⟩ large
          | _ => exact run
        · have small : ∀ cause, b.alone made report ≠ .error (.overflow cause) := by
            intro cause eq
            rw [alone] at eq
            exact large ⟨cause, Except.error.inj eq⟩
          rw [reached_cons small, step]
          exact held m

theorem tally_eq_ok {b : Batch} {made : Session Empty} {reports : List Path} {o o' : Outcome}
    (h : b.tally made reports o = .ok o') :
    o'.written = o.written ++ reports.filterMap (b.written? made) ∧
      o'.failed = o.failed ++ reports.filterMap (b.failure? made) ∧ b.reached made reports = reports := by
  fun_induction tally b made reports o with
  | case1 =>
    cases h
    exact ⟨by simp, by simp, rfl⟩
  | case2 report reports o alone ih =>
    obtain ⟨written, failed, all⟩ := ih h
    refine ⟨?_, ?_, ?_⟩
    · simp [written, written?, alone, Outcome.addWritten]
    · simp [failed, failure?, alone, Outcome.addWritten]
    · rw [reached_cons (by simp [alone]), all]
  | case3 => cases h
  | case4 report reports o e small alone ih =>
    obtain ⟨written, failed, all⟩ := ih h
    refine ⟨?_, ?_, ?_⟩
    · simp [written, written?, alone, Outcome.addFailed]
    · simp [failed, failure?, alone, Outcome.addFailed]
    · rw [reached_cons (by rw [alone]; simpa using small), all]

theorem written?_report (b : Batch) (made : Session Empty) (reports : List Path) :
    (reports.filterMap (b.written? made)).map (·.report) = reports.filter fun r => (b.alone made r).isOk := by
  rw [List.map_filterMap, ← List.filterMap_eq_filter]
  congr
  funext r
  cases alone : b.alone made r <;> simp [written?, alone, Option.guard, Except.isOk, Except.toBool]

theorem failure?_report (b : Batch) (made : Session Empty) (reports : List Path) :
    (reports.filterMap (b.failure? made)).map (·.report) = reports.filter fun r => !(b.alone made r).isOk := by
  rw [List.map_filterMap, ← List.filterMap_eq_filter]
  congr
  funext r
  cases alone : b.alone made r <;> simp [failure?, alone, Option.guard, Except.isOk, Except.toBool]

/-- The loop over some reports that lie in the tree from which the run starts, however it ends. -/
theorem run_chartAll_of_found {b : Batch} {s made : Session Empty} {reports : List Path}
    (found : b.found s.tree = .ok reports) (here : s.perform (Host.makeDirectories b.charts) = (.ok (), made)) :
    ∃ l s', made.tree.LiesAt b.charts l ∧
      (b.chartAll reports .empty : StateM (Session Empty) (Except Overflow Outcome)).run made =
        (b.tally made reports .empty, s') ∧
      Tree.Repainted made.tree s'.tree ∧
      ∀ m, s'.tree.get? m = b.after made l m (b.reached made reports) (made.tree.get? m) := by
  obtain ⟨l, lies⟩ := liesAt_of_made here
  obtain ⟨s', run, repainted, places⟩ := run_chartAll lies (isReport_of_made found here) (.refl _) .empty
  exact ⟨l, s', lies, run, repainted, places⟩

/-- The loop over some reports that lie in the tree from which the run starts, if it comes to its end. -/
theorem chartAll_of_found {b : Batch} {s made s' : Session Empty} {reports : List Path} {o : Outcome}
    (found : b.found s.tree = .ok reports) (here : s.perform (Host.makeDirectories b.charts) = (.ok (), made))
    (charted : (b.chartAll reports .empty : StateM (Session Empty) (Except Overflow Outcome)).run made = (.ok o, s')) :
    ∃ l, made.tree.LiesAt b.charts l ∧ o.written = reports.filterMap (b.written? made) ∧
      o.failed = reports.filterMap (b.failure? made) ∧ Tree.Repainted made.tree s'.tree ∧
      ∀ m, s'.tree.get? m = b.after made l m reports (made.tree.get? m) := by
  obtain ⟨l, u, lies, run, final, places⟩ := run_chartAll_of_found found here
  rw [charted, Prod.mk.injEq] at run
  obtain ⟨result, rfl⟩ := run
  obtain ⟨written, failed, all⟩ := tally_eq_ok result.symm
  rw [all] at places
  exact ⟨l, lies, by simpa [Outcome.empty] using written, by simpa [Outcome.empty] using failed, final, places⟩

/-- The reports that are found come out in their order, each among those written or among those that failed, as it
comes out alone right after the directory of the charts was made. -/
theorem run_accounts {b : Batch} {s s' : Session Empty} {o : Outcome} (named : s.tree.Named)
    (h : s.perform b.run = (.ok o, s')) :
    ∃ reports made, s.perform b.discover = (.ok reports, s) ∧ reports.Nodup ∧
      (reports = [] ∧ made = s ∨ reports ≠ [] ∧ s.perform (Host.makeDirectories b.charts) = (.ok (), made)) ∧
      (o.written.map (·.report) = reports.filter fun r => (b.alone made r).isOk) ∧
      (o.failed.map (·.report) = reports.filter fun r => !(b.alone made r).isOk) ∧
      (∀ w ∈ o.written, w.chart = w.report.chart b.charts) ∧
      ∀ f ∈ o.failed, b.alone made f.report = .error f.error := by
  obtain ⟨reports, found, ⟨rfl, rfl, -⟩ | ⟨some, made, here, charted⟩⟩ := run_eq_ok h
  · exact ⟨[], s, by rw [perform_discover, found], .nil, .inl ⟨rfl, rfl⟩, rfl, rfl, nofun, nofun⟩
  · obtain ⟨l, -, written, failed, -, -⟩ := chartAll_of_found found here charted
    refine ⟨reports, made, by rw [perform_discover, found], nodup_of_found named found, .inr ⟨some, here⟩, ?_, ?_, ?_, ?_⟩
    · rw [written, written?_report]
    · rw [failed, failure?_report]
    · intro w mem
      rw [written] at mem
      obtain ⟨report, -, noted⟩ := List.mem_filterMap.1 mem
      cases alone : b.alone made report <;> simp only [written?, alone] at noted
      · cases noted
      · cases noted
        rfl
    · intro f mem
      rw [failed] at mem
      obtain ⟨report, -, noted⟩ := List.mem_filterMap.1 mem
      cases alone : b.alone made report <;> simp only [failure?, alone] at noted
      · cases noted
        exact alone
      · cases noted

end Batch
end

/-! Some trees. -/

namespace Tree

variable {L : Type}

/-- A tree whose working directory is another one. -/
def standing (t : Tree L) (l : Location) (there : t.get? l = some .directory) : Tree L :=
  { t with
    here := l
    placed := there }

/-- A tree in which less may be done with something. -/
def restrict (t : Tree L) (l : Location) (rights : Rights) (there : t.get? l ≠ none) : Tree L :=
  { t with
    rights := fun m => if m = l then rights else t.rights m
    fresh := by
      intro m none
      rw [if_neg]
      · exact t.fresh m none
      · rintro rfl
        exact there none }

/-- A tree in which the file at a place takes so many bytes. -/
def limit (t : Tree L) (l : Location) (size : Nat) : Tree L :=
  { t with capacity := fun m => if m = l then some size else t.capacity m }

end Tree

namespace Batch

open scoped Drawing.Typeface

/-- The bytes of a report with one label. -/
def plainReport : List UInt8 :=
  (Path.ofString ("\x7b\"total_gas\":7,\"total_syscall_count\":0,\"total_instruction_count\":1," ++
    "\"cycle_tracker_results\":\x7b\"a\":5\x7d\x7d")).bytes

/-- A directory with files under some names, beside an empty one from which the program starts. -/
def directoryOf (name : String) (files : List (String × List UInt8)) : Tree Empty :=
  let directory := (Path.ofString name).bytes
  files.foldl (fun t file => t.insert [directory] (Path.ofString file.1).bytes (.file (.bytes file.2)))
    ((Tree.empty.insert [] directory .directory).insert [] (Path.ofString "work").bytes .directory)

/-- Charts of one inch to a pixel, whose letters have no size. -/
def tiny : Figure := { dpi := 1, width := 5, height := 4, titleSize := 0, labelSize := 0, summarySize := 0 }

def small : Batch := .ofDirectories (.ofString "../in") (some (.ofString "/charts")) tiny true

def mixedFiles : Tree Empty := directoryOf "in" [("a.json", []), ("b.json", plainReport), ("c.json", plainReport)]

/-- An empty report, one that can be charted and one that may not be read. -/
def mixed : Session Empty :=
  .start ((mixedFiles.standing [(Path.ofString "work").bytes] (by decide)).restrict
    [(Path.ofString "in").bytes, (Path.ofString "c.json").bytes] ⟨false, true, true⟩ (by decide +kernel))

theorem legal_mixedFiles : mixedFiles.Legal := by
  simp only [mixedFiles, directoryOf, List.foldl]
  refine ((((Tree.legal_empty.insert ?_ ?_ ?_ _).insert ?_ ?_ ?_ _).insert ?_ ?_ ?_ _).insert ?_ ?_ ?_ _).insert
    ?_ ?_ ?_ _
  all_goals decide +kernel

theorem legal_mixed : mixed.tree.Legal := legal_mixedFiles

def mixedOutcome : Outcome where
  written := [⟨.ofString "../in/b.json", .ofString "/charts/b.png"⟩]
  failed :=
    [⟨.ofString "../in/a.json", .load (.empty (.ofString "../in/a.json"))⟩,
      ⟨.ofString "../in/c.json", .load (.reading (.ofString "../in/c.json") .accessDenied)⟩]

theorem perform_run_mixed : mixed.perform small.run = (.ok mixedOutcome, (mixed.perform small.run).2) := by
  have result : (mixed.perform small.run).1.toOption = some mixedOutcome := by
    rw [perform_run]
    decide +kernel
  exact Prod.ext (eq_ok_of_toOption result) rfl

theorem run_accounts_mixed :
    ∃ reports made, mixed.perform small.discover = (.ok reports, mixed) ∧ reports.Nodup ∧
      (reports = [] ∧ made = mixed ∨
        reports ≠ [] ∧ mixed.perform (Host.makeDirectories small.charts) = (.ok (), made)) ∧
      ([.ofString "../in/b.json"] = reports.filter fun r => (small.alone made r).isOk) ∧
      ([.ofString "../in/a.json", .ofString "../in/c.json"] = reports.filter fun r => !(small.alone made r).isOk) := by
  obtain ⟨reports, made, found, apart, first, written, failed, -⟩ := run_accounts legal_mixed.named perform_run_mixed
  exact ⟨reports, made, found, apart, first, written, failed⟩

end Batch
end CycleChart
