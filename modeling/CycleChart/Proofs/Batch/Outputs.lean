import CycleChart.Proofs.Batch.Finding
import CycleChart.Proofs.Batch.Overwriting
import CycleChart.Proofs.Batch.Sorting
import CycleChart.Proofs.Files.Writing

namespace CycleChart

open Session

namespace Path

/-- A report named by the ending alone, and one named by the ending twice. -/
def Clash (a b : Path) : Prop :=
  a.fileName = some (ofString ".json").bytes ∧ b.fileName = some (ofString ".json.json").bytes

instance (a b : Path) : Decidable (Clash a b) := inferInstanceAs (Decidable (_ ∧ _))

theorem Clash.ne {a b : Path} (h : Clash a b) : a ≠ b := by
  rintro rfl
  exact absurd (h.1.symm.trans h.2) (by decide)

theorem Clash.not_left {a b c : Path} (h : Clash a b) : ¬Clash b c :=
  fun other => absurd (h.2.symm.trans other.1) (by decide)

/-- Names of reports differ in what is kept of them, but for the ending alone and twice. -/
theorem stemOf_eq_iff {a b : List UInt8} (ha : (ofString ".json").bytes <:+ a) (hb : (ofString ".json").bytes <:+ b) :
    stemOf a = stemOf b ↔ a = b ∨ a = (ofString ".json").bytes ∧ b = (ofString ".json.json").bytes ∨
      b = (ofString ".json").bytes ∧ a = (ofString ".json.json").bytes := by
  have twice : (ofString ".json.json").bytes = (ofString ".json").bytes ++ (ofString ".json").bytes := by decide
  have some : (ofString ".json").bytes ≠ [] := by decide
  obtain ⟨s, rfl⟩ := ha
  obtain ⟨u, rfl⟩ := hb
  rw [stemOf_json, stemOf_json, twice]
  by_cases first : s = [] <;> by_cases second : u = [] <;> simp [first, second, some, eq_comm]

/-- Reports in one directory have different charts, but for the ending alone and twice. -/
theorem chart_eq_iff {directory : Path} {a b : List UInt8} (clear : slash ∉ a) (clear' : slash ∉ b)
    (ends : (ofString ".json").bytes <:+ a) (ends' : (ofString ".json").bytes <:+ b) (charts : Path) :
    (directory.step a).chart charts = (directory.step b).chart charts ↔
      a = b ∨ Clash (directory.step a) (directory.step b) ∨ Clash (directory.step b) (directory.step a) := by
  have named : (directory.step a).fileName = some a := fileName_step clear (component?_of_ending ends (by decide))
  have named' : (directory.step b).fileName = some b := fileName_step clear' (component?_of_ending ends' (by decide))
  have plain := not_isRooted_of_not_mem (isChartName (ends_step ends directory)).clear
  have plain' := not_isRooted_of_not_mem (isChartName (ends_step ends' directory)).clear
  rw [chart_eq_join, chart_eq_join, Clash, Clash, named, named', Option.some.injEq, Option.some.injEq, Option.some.injEq,
    Option.some.injEq, ← stemOf_eq_iff ends ends']
  constructor
  · intro same
    have names := eq_of_join same plain plain'
    simpa [chartName, fileStem, named, named'] using names
  · intro same
    have names : (directory.step a).chartName = (directory.step b).chartName := by
      simp [chartName, fileStem, named, named', same]
    rw [names]

end Path

section

variable [Drawing.Typeface]

theorem Tree.pictureOf_ne_render {L : Type} [Links L] {t : Tree L} {f : Figure} {report : Path} {cause : RenderError} :
    t.pictureOf f report ≠ .error (.render cause) := by
  intro failed
  rw [pictureOf] at failed
  split at failed
  · cases failed
  · split at failed
    · cases failed
    · rename_i r _
      cases drawn : (Chart.ofReport report.identifier r).picture f <;> rw [drawn] at failed <;> cases failed

namespace Batch

/-- What becomes of a report: its picture is written, or does not fit into its file, or its file is not opened. -/
inductive Fate (b : Batch) (made : Session Empty) (report : Path) : Prop
  | written {picture : Canvas} {r : Location × Name} (drawn : made.tree.pictureOf b.figure report = .ok picture)
      (opened : made.tree.opened (report.chart b.charts) = .ok r) (alone : b.alone made report = .ok ())
      (stored : b.stored? made report = some (.picture picture))
  | partly {bytes : List UInt8} {r : Location × Name} (opened : made.tree.opened (report.chart b.charts) = .ok r)
      (alone : b.alone made report = .error (.render (.saving (report.chart b.charts) (.file .fileTooLarge))))
      (stored : b.stored? made report = some (.bytes bytes))
  | unopened {e : ChartError} (alone : b.alone made report = .error e) (stored : b.stored? made report = none)
      (other : ∀ file, e ≠ .render (.saving file (.file .fileTooLarge)))

theorem fate (b : Batch) (made : Session Empty) (report : Path) : b.Fate made report := by
  have alone : b.alone made report = _ :=
    congrArg Prod.fst (perform_chartReport made b.figure report (report.chart b.charts))
  cases drawn : made.tree.pictureOf b.figure report with
  | error e =>
    rw [drawn] at alone
    refine .unopened alone (by rw [stored?, drawn]) ?_
    rintro file rfl
    exact Tree.pictureOf_ne_render drawn
  | ok picture =>
    have filled := Tree.pictureOf_filled drawn
    have content : picture.content = .picture picture := by simp [Canvas.content, filled]
    rw [drawn] at alone
    dsimp only at alone
    rw [content, Tree.write] at alone
    have stored : b.stored? made report = made.tree.stored? (report.chart b.charts) (.picture picture) := by
      rw [stored?, drawn, ← content]
    rw [Tree.stored?] at stored
    cases opened : made.tree.opened (report.chart b.charts) with
    | error e =>
      rw [opened] at alone stored
      refine .unopened alone stored ?_
      rintro file same
      cases same
      exact Tree.opened_ne_tooLarge opened
    | ok r =>
      rw [opened] at alone stored
      dsimp only at alone stored
      cases full : (made.tree.fill (r.1 ++ [r.2]) (.picture picture)).1 with
      | ok u =>
        rw [Tree.fill_of_takes (Tree.fill_eq_ok_iff.1 full)] at alone stored
        rw [Canvas.saved, filled] at alone
        exact .written drawn opened alone stored
      | error e =>
        obtain ⟨rfl, bytes, cut⟩ := Tree.fill_error full
        rw [full] at alone
        rw [cut] at stored
        exact .partly opened alone stored

theorem exists_opened_of_stored {b : Batch} {made : Session Empty} {report : Path} {c : Content}
    (stored : b.stored? made report = some c) : ∃ r, made.tree.opened (report.chart b.charts) = .ok r := by
  cases b.fate made report with
  | written _ opened _ _ => exact ⟨_, opened⟩
  | partly opened _ _ => exact ⟨_, opened⟩
  | unopened _ none _ => cases stored.symm.trans none

theorem after_of_none {b : Batch} {made : Session Empty} {l m : Location} {reports : List Path}
    (h : ∀ x ∈ reports, m = l ++ [x.chartName] → b.stored? made x = none) (here : Option (Entry Empty)) :
    b.after made l m reports here = here := by
  induction reports with
  | nil => rfl
  | cons x reports ih =>
    obtain ⟨first, rest⟩ := List.forall_mem_cons.1 h
    rw [after, List.foldl_cons]
    split
    · rename_i there
      rw [first there]
      exact ih rest
    · exact ih rest

/-- The last report that is written to a place is there in the end. -/
theorem after_of_last {b : Batch} {made : Session Empty} {l : Location} {pre post : List Path} {report : Path}
    {c : Content} (stored : b.stored? made report = some c)
    (later : ∀ x ∈ post, x.chartName = report.chartName → b.stored? made x = none) (here : Option (Entry Empty)) :
    b.after made l (l ++ [report.chartName]) (pre ++ report :: post) here = some (.file c) := by
  have rest : ∀ x ∈ post, l ++ [report.chartName] = l ++ [x.chartName] → b.stored? made x = none := by
    intro x mem same
    exact later x mem (by simpa using same.symm)
  rw [after, List.foldl_append, List.foldl_cons, if_pos rfl, stored]
  exact after_of_none rest (some (.file c))

theorem mem_written_iff {b : Batch} {made : Session Empty} {reports : List Path} {w : Written} :
    w ∈ reports.filterMap (b.written? made) ↔
      w.report ∈ reports ∧ w.chart = w.report.chart b.charts ∧ b.alone made w.report = .ok () := by
  rw [List.mem_filterMap]
  constructor
  · rintro ⟨report, mem, noted⟩
    cases alone : b.alone made report <;> simp only [written?, alone] at noted <;> cases noted
    exact ⟨mem, rfl, alone⟩
  · rintro ⟨mem, chart, alone⟩
    exact ⟨w.report, mem, by rw [written?, alone, ← chart]⟩

theorem mem_failed_iff {b : Batch} {made : Session Empty} {reports : List Path} {f : Failure} :
    f ∈ reports.filterMap (b.failure? made) ↔ f.report ∈ reports ∧ b.alone made f.report = .error f.error := by
  rw [List.mem_filterMap]
  constructor
  · rintro ⟨report, mem, noted⟩
    cases alone : b.alone made report <;> simp only [failure?, alone] at noted <;> cases noted
    exact ⟨mem, alone⟩
  · rintro ⟨mem, alone⟩
    exact ⟨f.report, mem, by rw [failure?, alone]⟩

end Batch
end

namespace Batch

/-- Of the reports that come after one, only one that clashes with it has the same chart. -/
theorem clash_of_later {directory : Path} {names : List Name} (ascending : names.Pairwise (· < ·))
    (each : ∀ name ∈ names, Path.slash ∉ name ∧ (Path.ofString ".json").bytes <:+ name) {pre post : List Path}
    {report x : Path} (split : names.map directory.step = pre ++ report :: post) (later : x ∈ post)
    (same : x.chartName = report.chartName) : Path.Clash report x := by
  obtain ⟨front, back, rfl, -, eq⟩ := List.map_eq_append_iff.1 split
  obtain ⟨name, rest, rfl, rfl, rfl⟩ := List.map_eq_cons_iff.1 eq
  obtain ⟨other, listed, rfl⟩ := List.mem_map.1 later
  have before : name < other := (List.pairwise_cons.1 (List.pairwise_append.1 ascending).2.1).1 other listed
  obtain ⟨clear, ends⟩ := each name (by simp)
  obtain ⟨clear', ends'⟩ := each other (by simp [listed])
  have charts := (Path.chart_eq_iff clear clear' ends ends' ⟨[]⟩).1 (by
    rw [Path.chart_eq_join, Path.chart_eq_join, same])
  rcases charts with rfl | clash | ⟨first, second⟩
  · exact absurd before (List.lt_irrefl _)
  · exact clash
  · -- the ending alone would come first
    rw [Path.fileName_step clear' (Path.component?_of_ending ends' (by decide)), Option.some.injEq] at first
    rw [Path.fileName_step clear (Path.component?_of_ending ends (by decide)), Option.some.injEq] at second
    rw [first, second] at before
    exact absurd before (by decide)

/-- Reports that are found in one directory have one chart just if they clash. -/
theorem chart_eq_iff_of_found {L : Type} [Links L] {b : Batch} {t : Tree L} (named : t.Named) {reports : List Path}
    (found : b.found t = .ok reports) {x y : Path} (left : x ∈ reports) (right : y ∈ reports) (other : x ≠ y)
    (charts : Path) : x.chart charts = y.chart charts ↔ Path.Clash x y ∨ Path.Clash y x := by
  obtain ⟨directory, names, rfl, -, each⟩ := names_of_found named found
  obtain ⟨a, mem, rfl⟩ := List.mem_map.1 left
  obtain ⟨c, mem', rfl⟩ := List.mem_map.1 right
  obtain ⟨clear, ends⟩ := each a mem
  obtain ⟨clear', ends'⟩ := each c mem'
  have names : a ≠ c := by
    rintro rfl
    exact other rfl
  rw [Path.chart_eq_iff clear clear' ends ends']
  simp [names]

variable [Drawing.Typeface]

/-- Two reports that are written have one chart just if they are named by the ending alone and by the ending twice. -/
theorem chart_eq_iff_of_run {L : Type} [Links L] {b : Batch} {s s' : Session L} {o : Outcome} (named : s.tree.Named)
    (h : s.perform b.run = (.ok o, s')) {w v : Written} (left : w ∈ o.written) (right : v ∈ o.written)
    (other : w.report ≠ v.report) :
    w.chart = v.chart ↔ Path.Clash w.report v.report ∨ Path.Clash v.report w.report := by
  obtain ⟨reports, t, discovered, sorted, charts⟩ := run_sorts h
  rw [run_discover finds_session, Prod.mk.injEq] at discovered
  have listed {x : Written} (mem : x ∈ o.written) : x.report ∈ reports :=
    sorted.written.subset (List.mem_map.2 ⟨x, mem, rfl⟩)
  rw [charts w left, charts v right, chart_eq_iff_of_found named discovered.1 (listed left) (listed right) other]

/-- A report whose chart was begun leaves it as it is in the end, if no later report begins the same one. -/
theorem file_of_last {b : Batch} {s made s' : Session Empty} {o : Outcome} {reports : List Path} (named : s.tree.Named)
    (found : b.found s.tree = .ok reports) (here : s.perform (Host.makeDirectories b.charts) = (.ok (), made))
    (charted : (b.chartAll reports .empty : StateM (Session Empty) (Except Overflow Outcome)).run made = (.ok o, s'))
    {report : Path} (listed : report ∈ reports) {r : Location × Name}
    (opened : made.tree.opened (report.chart b.charts) = .ok r) {c : Content} (stored : b.stored? made report = some c)
    (written : ∀ v ∈ o.written, ¬Path.Clash report v.report)
    (partly : ∀ f ∈ o.failed, f.IsPartial → ¬Path.Clash report f.report) :
    s'.tree.Holds (report.chart b.charts) c := by
  obtain ⟨l, lies, wrote, failed, repainted, places⟩ := chartAll_of_found found here charted
  obtain ⟨directory, names, rfl, ascending, each⟩ := names_of_found named found
  have there := isReport_of_found found report listed
  obtain ⟨pre, post, split⟩ := List.append_of_mem listed
  have later : ∀ x ∈ post, x.chartName = report.chartName → b.stored? made x = none := by
    intro x later same
    have clash := clash_of_later ascending each split later same
    have mem : x ∈ names.map directory.step := split ▸ by simp [later]
    cases b.fate made x with
    | written _ _ alone _ =>
      refine absurd clash (written ⟨x, x.chart b.charts⟩ ?_)
      rw [wrote]
      exact mem_written_iff.2 ⟨mem, rfl, alone⟩
    | partly _ alone _ =>
      refine absurd clash (partly ⟨x, .render (.saving (x.chart b.charts) (.file .fileTooLarge))⟩ ?_ ⟨_, rfl⟩)
      rw [failed]
      exact mem_failed_iff.2 ⟨mem, alone⟩
    | unopened _ none _ => exact none
  have final := places (l ++ [report.chartName])
  rw [split, after_of_last stored later] at final
  have taken : s'.tree.get? (l ++ [report.chartName]) ≠ none := by
    rw [final]
    nofun
  refine ⟨l ++ [report.chartName], ?_, final⟩
  exact Tree.placeOf_join lies (Path.isChartName there.ends) opened repainted.setting (repainted.keeps.liesAt lies) taken

/-- What is written lies where a report leads that is written there last, if none that comes later is begun there. -/
theorem holds_of_last {L : Type} [Links L] {b : Batch} {s s' : Session L} {o : Outcome} (named : s.tree.Named)
    (h : s.perform b.run = (.ok o, s')) {w v : Written} (mem : v ∈ o.written)
    (one : s'.tree.placeOf w.chart = s'.tree.placeOf v.chart)
    (last : ∀ x, o.Begun x → v.report.Before x → s'.tree.placeOf (x.chart b.charts) ≠ s'.tree.placeOf v.chart) :
    ∃ picture, s'.tree.Holds w.chart (.picture picture) ∧ s.tree.pictureOf b.figure v.report = .ok picture := by
  obtain ⟨reports, found, ⟨-, rfl, -⟩ | ⟨-, made, here, charted⟩⟩ := run_eq_ok h
  · cases mem
  obtain ⟨p, rfl, listed, leaves⟩ := leaves_chartAll (ascending_of_found named found) charted
  simp only [Outcome.empty, List.nil_append] at mem last
  have retains := retains_makeDirectories s b.charts
  rw [here] at retains
  obtain ⟨picture, u, ⟨l, place, held⟩, retains', drawn⟩ := leaves.last v mem last
  have there := (isReport_of_found found v.report (listed v.report (.inl ⟨v, mem, rfl⟩))).file
  exact ⟨picture, ⟨l, one.trans place, held⟩, (retains.trans retains').pictureOf there drawn⟩

/-- Two reports that are written have one chart just if they are named by the ending alone and by the ending twice.
Each chart that is written holds the picture of its own report in the end, unless links lead a later one to the same place.
Then it holds the picture of the last of them. Without links, only the chart of the ending alone can be lost: if the ending
twice is written too, it holds the picture of the latter, and if that does not fit, a part of it. -/
theorem run_outputs (b : Batch) :
    (∀ (L : Type) [Links L] (s s' : Session L) (o : Outcome), s.tree.Named → s.perform b.run = (.ok o, s') →
      ∀ w ∈ o.written, ∀ v ∈ o.written, w.report ≠ v.report →
        (w.chart = v.chart ↔ Path.Clash w.report v.report ∨ Path.Clash v.report w.report)) ∧
    (∀ (L : Type) [Links L] (s s' : Session L) (o : Outcome), s.tree.Named → s.perform b.run = (.ok o, s') →
      ∀ w ∈ o.written, ∀ v ∈ o.written, s'.tree.placeOf w.chart = s'.tree.placeOf v.chart →
        (∀ x, o.Begun x → v.report.Before x → s'.tree.placeOf (x.chart b.charts) ≠ s'.tree.placeOf v.chart) →
        ∃ picture, s'.tree.Holds w.chart (.picture picture) ∧ s.tree.pictureOf b.figure v.report = .ok picture) ∧
    ∀ (s s' : Session Empty) (o : Outcome), s.tree.Named → s.perform b.run = (.ok o, s') → ∀ w ∈ o.written,
      ((∀ v ∈ o.written, ¬Path.Clash w.report v.report) →
        (∀ f ∈ o.failed, f.IsPartial → ¬Path.Clash w.report f.report) →
        ∃ picture, s'.tree.Holds w.chart (.picture picture) ∧ s.tree.pictureOf b.figure w.report = .ok picture) ∧
      (∀ v ∈ o.written, Path.Clash w.report v.report →
        ∃ picture, s'.tree.Holds w.chart (.picture picture) ∧ s.tree.pictureOf b.figure v.report = .ok picture) ∧
      ∀ f ∈ o.failed, f.IsPartial → Path.Clash w.report f.report → ∃ bytes, s'.tree.Holds w.chart (.bytes bytes) := by
  refine ⟨fun L _ s s' o named h w left v right other => chart_eq_iff_of_run named h left right other,
    fun L _ s s' o named h w _ v mem one last => holds_of_last named h mem one last, ?_⟩
  intro s s' o named h w mem
  obtain ⟨reports, found, ⟨-, rfl, -⟩ | ⟨-, made, here, charted⟩⟩ := run_eq_ok h
  · cases mem
  obtain ⟨-, -, written, failed, -, -⟩ := chartAll_of_found found here charted
  have extended := (made_makeDirectories s b.charts).extended
  rw [here] at extended
  obtain ⟨listed, chart, -⟩ := mem_written_iff.1 (written ▸ mem)
  -- what is written for a report in the end is its picture as it was in the beginning
  have own {v : Written} (mem : v ∈ o.written) (lone : ∀ x ∈ o.written, ¬Path.Clash v.report x.report)
      (whole : ∀ f ∈ o.failed, f.IsPartial → ¬Path.Clash v.report f.report) :
      ∃ picture, s'.tree.Holds (v.report.chart b.charts) (.picture picture) ∧
        s.tree.pictureOf b.figure v.report = .ok picture := by
    obtain ⟨listed, -, alone⟩ := mem_written_iff.1 (written ▸ mem)
    have same := extended.keeps.pictureOf (isReport_of_found found v.report listed) b.figure
    cases b.fate made v.report with
    | written drawn opened _ stored =>
      exact ⟨_, file_of_last named found here charted listed opened stored lone whole, same ▸ drawn⟩
    | partly _ other _ => cases alone.symm.trans other
    | unopened other _ _ => cases alone.symm.trans other
  -- of two reports that clash, the later one clashes with none after it
  have shared {x : Path} (listed' : x ∈ reports) (clash : Path.Clash w.report x) : w.chart = x.chart b.charts := by
    rw [chart]
    exact (chart_eq_iff_of_found named found listed listed' clash.ne b.charts).2 (.inl clash)
  refine ⟨fun lone whole => chart ▸ own mem lone whole, fun v mem' clash => ?_, fun f mem' part clash => ?_⟩
  · obtain ⟨listed', -, -⟩ := mem_written_iff.1 (written ▸ mem')
    rw [shared listed' clash]
    exact own mem' (fun _ _ => clash.not_left) fun _ _ _ => clash.not_left
  · obtain ⟨listed', alone⟩ := mem_failed_iff.1 (failed ▸ mem')
    obtain ⟨file, late⟩ := part
    rw [shared listed' clash]
    cases b.fate made f.report with
    | written _ _ other _ => cases alone.symm.trans other
    | partly opened _ stored =>
      exact ⟨_, file_of_last named found here charted listed' opened stored (fun _ _ => clash.not_left)
        fun _ _ _ => clash.not_left⟩
    | unopened other _ apart =>
      rw [alone, Except.error.injEq] at other
      exact absurd (other.symm.trans late) (apart file)

end Batch

namespace Batch

open scoped Drawing.Typeface

/-- The bytes of a report without labels. -/
def bareReport : List UInt8 :=
  (Path.ofString ("\x7b\"total_gas\":7,\"total_syscall_count\":0,\"total_instruction_count\":1," ++
    "\"cycle_tracker_results\":\x7b\x7d\x7d")).bytes

def clashingFiles : Tree Empty := directoryOf "in" [(".json", plainReport), (".json.json", bareReport)]

/-- Two reports whose charts are one. -/
def clashing : Session Empty :=
  .start (clashingFiles.standing [(Path.ofString "work").bytes] (by decide +kernel))

def clashingOutcome : Outcome where
  written := [⟨.ofString "../in/.json", .ofString "/charts/.json.png"⟩,
    ⟨.ofString "../in/.json.json", .ofString "/charts/.json.png"⟩]
  failed := []

theorem legal_clashing : clashingFiles.Legal := by
  simp only [clashingFiles, directoryOf, List.foldl]
  refine (((Tree.legal_empty.insert ?_ ?_ ?_ _).insert ?_ ?_ ?_ _).insert ?_ ?_ ?_ _).insert ?_ ?_ ?_ _
  all_goals decide +kernel

theorem named_clashing : clashing.tree.Named := legal_clashing.named

theorem perform_run_clashing : clashing.perform small.run = (.ok clashingOutcome, (clashing.perform small.run).2) := by
  have result : (clashing.perform small.run).1.toOption = some clashingOutcome := by
    rw [perform_run]
    decide +kernel
  exact Prod.ext (eq_ok_of_toOption result) rfl

/-- The chart of the first of two reports is lost to the second. -/
theorem run_outputs_clashing :
    ∃ picture, (clashing.perform small.run).2.tree.Holds (.ofString "/charts/.json.png") (.picture picture) ∧
      clashing.tree.pictureOf small.figure (.ofString "../in/.json.json") = .ok picture ∧
      clashing.tree.pictureOf small.figure (.ofString "../in/.json") ≠ .ok picture := by
  obtain ⟨-, -, outputs⟩ := run_outputs small
  obtain ⟨-, taken, -⟩ := outputs clashing _ _ named_clashing perform_run_clashing
    ⟨.ofString "../in/.json", .ofString "/charts/.json.png"⟩ (by decide)
  obtain ⟨picture, held, second⟩ :=
    taken ⟨.ofString "../in/.json.json", .ofString "/charts/.json.png"⟩ (by decide) (by decide)
  refine ⟨picture, held, second, fun first => ?_⟩
  have same := congrArg Except.toOption (first.trans second.symm)
  exact absurd same (by decide +kernel)

/-- Not all reports that are written have charts of their own. -/
theorem not_distinct_outputs :
    ¬∀ (b : Batch) (s s' : Session Empty) (o : Outcome), s.tree.Named → s.perform b.run = (.ok o, s') →
      ∀ w ∈ o.written, ∀ v ∈ o.written, w.report ≠ v.report → w.chart ≠ v.chart := by
  intro distinct
  exact distinct small clashing _ clashingOutcome named_clashing perform_run_clashing
    ⟨.ofString "../in/.json", .ofString "/charts/.json.png"⟩ (by decide)
    ⟨.ofString "../in/.json.json", .ofString "/charts/.json.png"⟩ (by decide) (by decide) rfl

end Batch
end CycleChart
