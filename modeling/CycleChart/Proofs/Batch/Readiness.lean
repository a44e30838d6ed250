import CycleChart.Proofs.Batch.Coverage
import CycleChart.Proofs.Batch.Frame
import CycleChart.Proofs.Canvas.Pictures
import CycleChart.Proofs.Files.Writing
import CycleChart.Proofs.Json.Passing

namespace CycleChart

open Session

/-! What can be charted. -/

theorem Reading.mem_of_readDraft {s : List Char} {d : Draft} (h : readDraft s = .ok d) : '\x7b' ∈ s ∨ '[' ∈ s := by
  obtain ⟨a, -, eq⟩ := Json.exists_spaces s
  have within : ∀ c ∈ skipSpace s, c ∈ s := fun c mem => eq ▸ List.mem_append_right a mem
  cases opened : skipSpace s with
  | nil =>
    rw [readDraft, opened] at h
    cases h
  | cons c t =>
    rw [opened] at within
    have first := within c List.mem_cons_self
    by_cases brace : c = '\x7b'
    · exact .inl (brace ▸ first)
    · by_cases bracket : c = '['
      · exact .inr (bracket ▸ first)
      · simp only [readDraft, opened, if_neg brace, if_neg bracket] at h
        cases h

/-- A blank text is no report. -/
theorem Report.not_blank_of_parse {text : String} {r : Report} (h : parse text = .ok r) :
    text.toList.all Text.isBlank = false := by
  rw [Bool.eq_false_iff]
  intro blank
  have each := List.all_eq_true.1 blank
  cases read : Reading.readDraft text.toList with
  | error halt =>
    rw [parse, read] at h
    cases h
  | ok d =>
    rcases Reading.mem_of_readDraft read with mem | mem
    · exact absurd (each _ mem) (by decide)
    · exact absurd (each _ mem) (by decide)

theorem reportIn_toOption (file : Path) (bytes : List UInt8) :
    (reportIn file bytes).toOption = (Text.decode? bytes).bind fun text => (Report.parse text).toOption := by
  rw [reportIn]
  cases Text.decode? bytes with
  | none => rfl
  | some text =>
    dsimp only [Option.bind_some]
    cases parsed : Report.parse text with
    | error e => split <;> rfl
    | ok r =>
      rw [if_neg (by simp [Report.not_blank_of_parse parsed])]
      rfl

/-- There is room on the default figure for the labels of a report, and a slot for each of them. -/
structure Report.Fits (r : Report) : Prop where
  wide : ∃ k, Figure.labelWidth {} (Breakdown.ofCounts r.counts).longestLabel = .ok k
  few : r.counts.entries.length < 2 ^ 32

namespace Tree

/-- The report in a file, if it may be read, its bytes are a text and that is read as a report. -/
def report? {L : Type} [Links L] (t : Tree L) (file : Path) : Option Report := do
  let bytes ← (t.read file).toOption
  let text ← Text.decode? bytes
  (Report.parse text).toOption

theorem report?_eq (t : Tree Empty) (file : Path) :
    t.report? file = (t.read file).toOption.bind fun bytes => (reportIn file bytes).toOption := by
  rw [funext (reportIn_toOption file)]
  rfl

/-- A file is drawn if there is a report in it. If there is none, that is all that is wrong. -/
theorem pictureOf_cases [Drawing.Typeface] {t : Tree Empty} {report : Path}
    (room : ∀ r, t.report? report = some r → r.Fits) :
    (t.report? report).isSome ∧ (∃ picture, t.pictureOf {} report = .ok picture) ∨
      t.report? report = none ∧ ∃ e, t.pictureOf {} report = .error (.load e) := by
  have said := t.report?_eq report
  rw [pictureOf]
  cases read : t.read report with
  | error e =>
    rw [read] at said
    exact .inr ⟨said, _, rfl⟩
  | ok bytes =>
    rw [read] at said
    dsimp only
    cases known : reportIn report bytes with
    | error e =>
      refine .inr ⟨said.trans ?_, e, rfl⟩
      exact congrArg Except.toOption known
    | ok r =>
      have held : t.report? report = some r := said.trans (congrArg Except.toOption known)
      obtain ⟨⟨k, fits⟩, few⟩ := room r held
      obtain ⟨picture, drawn⟩ := Chart.exists_picture report.identifier r fits few
      refine .inl ⟨by rw [held]; rfl, picture, ?_⟩
      dsimp only
      rw [drawn]
      rfl

end Tree

namespace Batch

/-! How a run ends, told by the tree in which it starts. -/

/-- The reports that are found in a tree. -/
def discovered (b : Batch) (t : Tree Empty) : List Path := ((Session.start t).perform b.discover).1.toOption.getD []

/-- What becomes of making the directory of the charts. -/
def prepared (b : Batch) (t : Tree Empty) : Except FileError Unit × Session Empty :=
  (Session.start t).perform (Host.makeDirectories b.charts)

section

variable [Drawing.Typeface]

/-- What a report needs to be charted: it is a report, and once the directory of the charts has been made, its chart can
be opened to be written, and takes its picture. -/
structure Charts (b : Batch) (t : Tree Empty) (report : Path) : Prop where
  holds : (t.report? report).isSome
  opens : ∃ l name, (b.prepared t).2.tree.Opens (report.chart b.charts) l name
  takes : ∀ l name picture, (b.prepared t).2.tree.Opens (report.chart b.charts) l name →
    t.pictureOf b.figure report = .ok picture → (b.prepared t).2.tree.Takes (l ++ [name]) (.picture picture)

/-- What a batch needs to be charted without a failure. -/
structure Ready (b : Batch) (t : Tree Empty) : Prop where
  reports : t.isDirectory b.reports
  charts : b.discovered t ≠ [] → (b.prepared t).1 = .ok ()
  each : ∀ report ∈ b.discovered t, b.Charts t report

/-- Where any number of bytes fits into a file, a chart takes its picture once it can be opened. -/
theorem charts_iff_of_unlimited {b : Batch} {t : Tree Empty} (unlimited : ∀ l, t.capacity l = none) {report : Path} :
    b.Charts t report ↔
      (t.report? report).isSome ∧ ∃ l name, (b.prepared t).2.tree.Opens (report.chart b.charts) l name := by
  constructor
  · intro ready
    exact ⟨ready.holds, ready.opens⟩
  · rintro ⟨holds, opens⟩
    refine ⟨holds, opens, fun l name picture _ _ size limited => ?_⟩
    have setting := (made_makeDirectories (.start t) b.charts).extended.keeps.setting
    have same : (b.prepared t).2.tree.capacity = t.capacity := congrArg Setting.capacity setting
    rw [same, unlimited] at limited
    cases limited

/-- A report comes out well if it has what it needs. If not, the figure is not to blame. -/
theorem alone_cases_default {b : Batch} (default : b.figure = {}) {t : Tree Empty} {made : Session Empty}
    (here : b.prepared t = (.ok (), made)) {report : Path} (there : t.IsReport report)
    (room : ∀ r, t.report? report = some r → r.Fits) :
    b.alone made report = .ok () ∧ b.Charts t report ∨
      (∃ e, b.alone made report = .error e ∧ ∀ cause, e ≠ .overflow cause) ∧ ¬b.Charts t report := by
  have extended := (made_makeDirectories (.start t) b.charts).extended
  rw [← prepared, here] at extended
  have same : made.tree.pictureOf b.figure report = t.pictureOf b.figure report :=
    extended.keeps.pictureOf there b.figure
  have after : (b.prepared t).2 = made := congrArg Prod.snd here
  rw [alone, perform_chartReport, same]
  rcases Tree.pictureOf_cases room with ⟨held, picture, drawn⟩ | ⟨none, e, failed⟩
  · rw [← default] at drawn
    have filled := Tree.pictureOf_filled drawn
    have content : picture.content = .picture picture := by simp [Canvas.content, filled]
    rw [drawn]
    dsimp only
    rw [content]
    cases written : (made.tree.write (report.chart b.charts) (.picture picture)).1 with
    | error e =>
      refine .inr ⟨⟨_, rfl, ?_⟩, fun ready => ?_⟩
      · rintro cause ⟨⟩
      · obtain ⟨l, name, opens⟩ := ready.opens
        have takes := ready.takes l name picture opens drawn
        rw [after] at opens takes
        have stored := Tree.write_eq_ok_iff.2 ⟨l, name, opens, takes⟩
        rw [written] at stored
        cases stored
    | ok u =>
      obtain ⟨l, name, opens, takes⟩ := Tree.write_eq_ok_iff.1 written
      refine .inl ⟨by rw [Canvas.saved, filled], held, ?_, ?_⟩
      · rw [after]
        exact ⟨l, name, opens⟩
      · intro l' name' picture' opens' drawn'
        rw [after] at opens' ⊢
        cases drawn.symm.trans drawn'
        cases (Tree.opened_eq_ok_iff.2 opens).symm.trans (Tree.opened_eq_ok_iff.2 opens')
        exact takes
  · rw [default, failed]
    refine .inr ⟨⟨_, rfl, ?_⟩, fun ready => ?_⟩
    · rintro cause ⟨⟩
    · have held := ready.holds
      rw [none] at held
      cases held

/-- If no picture is too large, every report is gone through. -/
theorem exists_tally {b : Batch} {made : Session Empty} {reports : List Path}
    (small : ∀ report ∈ reports, ∀ cause, b.alone made report ≠ .error (.overflow cause)) (o : Outcome) :
    ∃ o', b.tally made reports o = .ok o' := by
  induction reports generalizing o with
  | nil => exact ⟨o, rfl⟩
  | cons report reports ih =>
    obtain ⟨first, rest⟩ := List.forall_mem_cons.1 small
    rw [tally]
    cases alone : b.alone made report with
    | ok a => exact ih rest _
    | error e =>
      cases e with
      | overflow cause => exact absurd alone (first cause)
      | _ => exact ih rest _

end

section

variable {b : Batch} {t : Tree Empty}

theorem discovered_eq (b : Batch) (t : Tree Empty) : b.discovered t = (b.found t).toOption.getD [] := by
  rw [discovered, perform_discover]
  rfl

theorem discovered_of_found {reports : List Path} (h : b.found t = .ok reports) : b.discovered t = reports := by
  rw [discovered_eq, h]
  rfl

theorem exists_found (there : t.isDirectory b.reports) : b.found t = .ok (b.discovered t) := by
  by_cases looks : ∃ directory names, b.Looks t directory names
  · obtain ⟨directory, names, look⟩ := looks
    have found := found_of_looks there look
    rw [discovered_of_found found, found]
  · have found := found_of_not_looks there fun directory names look => looks ⟨directory, names, look⟩
    rw [discovered_of_found found, found]

theorem isDirectory_of_discovered {report : Path} (mem : report ∈ b.discovered t) : t.isDirectory b.reports := by
  cases found : b.found t with
  | error e =>
    rw [discovered_eq, found] at mem
    cases mem
  | ok reports => exact isDirectory_of_found found

/-- A batch that comes to charting is ready if no report lacks anything. -/
theorem ready_iff_of_lacking [Drawing.Typeface] (there : t.isDirectory b.reports)
    (charts : b.discovered t ≠ [] → (b.prepared t).1 = .ok ()) {lacking : List Path}
    (h : ∀ report, report ∈ lacking ↔ report ∈ b.discovered t ∧ ¬b.Charts t report) : b.Ready t ↔ lacking = [] := by
  rw [List.eq_nil_iff_forall_not_mem]
  constructor
  · intro ready report mem
    obtain ⟨listed, unready⟩ := (h report).1 mem
    exact unready (ready.each report listed)
  · intro none
    refine ⟨there, charts, fun report listed => Classical.byContradiction fun unready => ?_⟩
    exact none report ((h report).2 ⟨listed, unready⟩)

/-- A run that does not come to charting ends in an error. -/
theorem exists_error_of_run [Drawing.Typeface]
    (h : ¬(t.isDirectory b.reports ∧ (b.discovered t ≠ [] → (b.prepared t).1 = .ok ()))) :
    ∃ e s, (Session.start t).perform b.run = (.error e, s) ∧ ∀ cause, e ≠ .overflow cause := by
  rw [perform_run]
  by_cases there : t.isDirectory b.reports
  · have found : b.found (Session.start t).tree = .ok (b.discovered t) := exists_found there
    rw [found]
    cases listed : b.discovered t with
    | nil => exact absurd ⟨there, fun some => absurd listed some⟩ h
    | cons report reports =>
      dsimp only
      rcases made : (Session.start t).perform (Host.makeDirectories b.charts) with ⟨e | a, s⟩
      · exact ⟨_, s, rfl, nofun⟩
      · exact absurd ⟨there, fun _ => congrArg Prod.fst made⟩ h
  · have found : b.found (Session.start t).tree = .error (.notDirectory b.reports) := if_neg there
    rw [found]
    exact ⟨_, _, rfl, nofun⟩

variable [Drawing.Typeface] (named : t.Named) (default : b.figure = {})
  (room : ∀ report ∈ b.discovered t, ∀ r, t.report? report = some r → r.Fits)
include named default room

/-- A run that comes to charting accounts for every report that is found, and those fail that lack something. -/
theorem exists_outcome_of_run (there : t.isDirectory b.reports)
    (charts : b.discovered t ≠ [] → (b.prepared t).1 = .ok ()) :
    ∃ o s, (Session.start t).perform b.run = (.ok o, s) ∧ o.total = (b.discovered t).length ∧
      (o.failed.map (·.report)).Nodup ∧
      ∀ report, report ∈ o.failed.map (·.report) ↔ report ∈ b.discovered t ∧ ¬b.Charts t report := by
  have found : b.found (Session.start t).tree = .ok (b.discovered t) := exists_found there
  by_cases none : b.discovered t = []
  · rw [none] at found
    refine ⟨.empty, _, by rw [perform_run, found], ?_, .nil, ?_⟩
    · rw [none]
      rfl
    · simp [none, Outcome.empty]
  · obtain ⟨made, here⟩ : ∃ made, (Session.start t).perform (Host.makeDirectories b.charts) = (.ok (), made) :=
      ⟨_, Prod.ext (charts none) rfl⟩
    have each (report : Path) (mem : report ∈ b.discovered t) :=
      alone_cases_default default here (isReport_of_found found report mem) (room report mem)
    obtain ⟨o, tallied⟩ : ∃ o, b.tally made (b.discovered t) .empty = .ok o := by
      apply exists_tally
      intro report mem cause large
      rcases each report mem with ⟨well, -⟩ | ⟨⟨e, failed, small⟩, -⟩
      · rw [well] at large
        cases large
      · rw [failed] at large
        exact small cause (Except.error.inj large)
    obtain ⟨l, s', -, looped, -, -⟩ := run_chartAll_of_found found here
    rw [tallied] at looped
    have run : (Session.start t).perform b.run = (.ok o, s') := by
      obtain ⟨report, reports, listed⟩ := List.exists_cons_of_ne_nil none
      rw [listed] at found looped
      rw [perform_run, found, here]
      dsimp only
      rw [looped]
    have failed : o.failed.map (·.report) = (b.discovered t).filter fun r => !(b.alone made r).isOk := by
      rw [(tally_eq_ok tallied).2.1, ← failure?_report]
      rfl
    refine ⟨o, s', run, ?_, ?_, ?_⟩
    · obtain ⟨reports, found', perm, -⟩ := reports_perm_of_run run
      rw [found, Except.ok.injEq] at found'
      rw [found', ← perm.length_eq]
      simp [Outcome.reports, Outcome.total]
    · rw [failed]
      exact (nodup_of_found named found).filter _
    · intro report
      rw [failed, List.mem_filter]
      apply and_congr_right
      intro mem
      rcases each report mem with ⟨well, ready⟩ | ⟨⟨e, failed, -⟩, unready⟩
      · rw [well]
        exact iff_of_false (by decide) fun unready => unready ready
      · rw [failed]
        exact iff_of_true rfl unready

end

end Batch
end CycleChart
