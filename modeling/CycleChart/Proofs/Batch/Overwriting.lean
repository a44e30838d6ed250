import CycleChart.Proofs.Batch.Isolation
import CycleChart.Proofs.Canvas.Extent
import CycleChart.Proofs.Files.Retaining
import CycleChart.Proofs.Files.Writing
import CycleChart.Proofs.Path.Order

namespace CycleChart

open Session

/-- A report whose chart was begun, but does not fit into its file. -/
def Failure.IsPartial (f : Failure) : Prop := ∃ file, f.error = .render (.saving file (.file .fileTooLarge))

/-- A report whose chart was begun, whether or not it fits into its file. -/
def Outcome.Begun (o : Outcome) (report : Path) : Prop :=
  (∃ w ∈ o.written, w.report = report) ∨ ∃ f ∈ o.failed, f.report = report ∧ f.IsPartial

/-- A path leads to a file with some content. -/
def Tree.Holds {L : Type} [Links L] (t : Tree L) (p : Path) (c : Content) : Prop :=
  ∃ l, t.placeOf p = .ok l ∧ t.get? l = some (.file c)

namespace Outcome

variable {o : Outcome} {report : Path}

theorem begun_cons_written {w : Written} :
    Begun { o with written := w :: o.written } report ↔ w.report = report ∨ o.Begun report := by
  simp [Begun, or_assoc]

theorem begun_cons_failed {f : Failure} :
    Begun { o with failed := f :: o.failed } report ↔ f.report = report ∧ f.IsPartial ∨ o.Begun report := by
  simp [Begun, or_left_comm]

end Outcome

/-! A picture is no report, nor is a part of one. -/

theorem exists_toBytes_picture (picture : Canvas) : ∃ rest, (Content.picture picture).toBytes = 0x89 :: rest := by
  simp [Content.toBytes, Content.toByteArray, Png.encode, Png.signature, ByteArray.data_append]

theorem Text.decode?_of_broken {a : UInt8} (broken : widthOf a = 0) (s : List UInt8) : decode? (a :: s) = none := by
  simp [decode?, pieces, broken, List.mapM_cons, Piece.char?]

theorem exists_error_of_isDrawn {c : Content} (drawn : c.IsDrawn) (file : Path) :
    ∃ e, reportIn file c.toBytes = .error e := by
  obtain ⟨picture, bytes⟩ := drawn
  obtain ⟨rest, eq⟩ := exists_toBytes_picture picture
  rw [eq, List.prefix_cons_iff] at bytes
  rcases bytes with none | ⟨part, some, -⟩
  · rw [none]
    exact ⟨.empty file, by simp [reportIn, Text.decode?, Text.pieces]⟩
  · rw [some]
    exact ⟨.reading file .notText, by rw [reportIn, Text.decode?_of_broken (by decide)]⟩

variable {L : Type} [Links L] [Drawing.Typeface]

theorem Tree.pictureOf_filled {t : Tree L} {f : Figure} {report : Path} {picture : Canvas}
    (h : t.pictureOf f report = .ok picture) : picture.lack? = none := by
  rw [pictureOf] at h
  split at h
  · cases h
  · split at h
    · cases h
    · rename_i r _
      cases drawn : (Chart.ofReport report.identifier r).picture f with
      | error cause => simp [drawn, mapError_error] at h
      | ok c =>
        rw [drawn] at h
        cases h
        exact Chart.picture_filled drawn

/-- A report that still has a picture has the one that it had before. -/
theorem Tree.Retains.pictureOf {t u : Tree L} (h : Retains t u) {f : Figure} {report : Path} (there : t.isFile report)
    {picture : Canvas} (drawn : u.pictureOf f report = .ok picture) : t.pictureOf f report = .ok picture := by
  obtain ⟨l, c, place, here⟩ := isFile_iff.1 there
  obtain ⟨d, here', same⟩ := h.files l c here
  rw [Tree.pictureOf, read_of_placeOf (h.placeOf place) here', h.rights] at drawn
  rw [Tree.pictureOf, read_of_placeOf place here]
  rcases same with rfl | overdrawn
  · exact drawn
  · obtain ⟨e, refused⟩ := exists_error_of_isDrawn overdrawn report
    cases readable : (t.rights l).read <;> simp [readable, refused] at drawn

/-- What charting a report does to a tree, and what comes of it: the picture is where the path of the chart leads, or it
does not fit there, or nothing is changed. -/
inductive Charted (f : Figure) (report file : Path) (t u : Tree L) : Except ChartError Unit → Prop
  | written {picture : Canvas} {l : Location} (drawn : t.pictureOf f report = .ok picture)
      (place : u.placeOf file = .ok l) (held : u.get? l = some (.file (.picture picture)))
      (others : ∀ m, m ≠ l → u.get? m = t.get? m) : Charted f report file t u (.ok ())
  | partly {l : Location} (place : u.placeOf file = .ok l) (others : ∀ m, m ≠ l → u.get? m = t.get? m) :
      Charted f report file t u (.error (.render (.saving file (.file .fileTooLarge))))
  | unopened {e : ChartError} (same : u = t) : Charted f report file t u (.error e)

theorem charted_chartReport (s : Session L) (f : Figure) (report file : Path) :
    Tree.Retains s.tree (s.perform (chartReport f report file)).2.tree ∧
      Charted f report file s.tree (s.perform (chartReport f report file)).2.tree
        (s.perform (chartReport f report file)).1 := by
  rw [perform_chartReport]
  cases drawn : s.tree.pictureOf f report with
  | error e => exact ⟨.refl _, .unopened rfl⟩
  | ok picture =>
    have filled := Tree.pictureOf_filled drawn
    have content : picture.content = .picture picture := by simp [Canvas.content, filled]
    dsimp only
    rw [content]
    cases opened : s.tree.opened file with
    | error e =>
      rw [Tree.write, opened]
      exact ⟨.refl _, .unopened rfl⟩
    | ok r =>
      obtain ⟨l, name⟩ := r
      obtain ⟨retains, place, places⟩ := Tree.retains_write opened picture
      refine ⟨retains, ?_⟩
      have others (m : Location) (other : m ≠ l ++ [name]) := (places m).trans (if_neg other)
      have held := (places _).trans (if_pos rfl)
      have result : (s.tree.write file (.picture picture)).1 = (s.tree.fill (l ++ [name]) (.picture picture)).1 := by
        rw [Tree.write, opened]
      cases full : (s.tree.fill (l ++ [name]) (.picture picture)).1 with
      | ok u =>
        rw [Tree.fill_of_takes (Tree.fill_eq_ok_iff.1 full)] at held
        rw [result, full, Canvas.saved, filled]
        exact .written drawn place held others
      | error e =>
        obtain ⟨rfl, -⟩ := Tree.fill_error full
        rw [result, full, Canvas.saved]
        exact .partly place others

/-! Charting one report after another. -/

/-- What charting some reports leaves of a tree. -/
structure Outcome.Leaves (o : Outcome) (b : Batch) (t u : Tree L) : Prop where
  retains : Tree.Retains t u
  charts : ∀ w ∈ o.written, w.chart = w.report.chart b.charts
  others : ∀ l, (∀ x, o.Begun x → u.placeOf (x.chart b.charts) ≠ .ok l) → u.get? l = t.get? l
  last : ∀ w ∈ o.written,
    (∀ x, o.Begun x → w.report.Before x → u.placeOf (x.chart b.charts) ≠ u.placeOf w.chart) →
      ∃ picture v, u.Holds w.chart (.picture picture) ∧ Tree.Retains t v ∧ v.pictureOf b.figure w.report = .ok picture

namespace Outcome.Leaves

variable {o : Outcome} {b : Batch} {t u v : Tree L} {report : Path}

theorem nil (b : Batch) (t : Tree L) : empty.Leaves b t t :=
  ⟨.refl t, nofun, fun _ _ => rfl, nofun⟩

theorem cons_written (h : o.Leaves b u v) (retains : Tree.Retains t u)
    (before : ∀ x, o.Begun x → report.Before x) {picture : Canvas} {l : Location}
    (drawn : t.pictureOf b.figure report = .ok picture) (place : u.placeOf (report.chart b.charts) = .ok l)
    (held : u.get? l = some (.file (.picture picture))) (others : ∀ m, m ≠ l → u.get? m = t.get? m) :
    Leaves { o with written := ⟨report, report.chart b.charts⟩ :: o.written } b t v where
  retains := retains.trans h.retains
  charts := List.forall_mem_cons.2 ⟨rfl, h.charts⟩
  others := by
    intro m apart
    have place' := h.retains.placeOf place
    have other : m ≠ l := by
      rintro rfl
      exact apart report (begun_cons_written.2 (.inl rfl)) place'
    rw [h.others m fun x begun => apart x (begun_cons_written.2 (.inr begun)), others m other]
  last := by
    have place' := h.retains.placeOf place
    refine List.forall_mem_cons.2 ⟨fun later => ?_, fun w mem later => ?_⟩
    · refine ⟨picture, t, ⟨l, place', ?_⟩, .refl t, drawn⟩
      rw [h.others l, held]
      intro x begun same
      exact later x (begun_cons_written.2 (.inr begun)) (before x begun) (same.trans place'.symm)
    · obtain ⟨picture, w', holds, retains', drawn⟩ :=
        h.last w mem fun x begun => later x (begun_cons_written.2 (.inr begun))
      exact ⟨picture, w', holds, retains.trans retains', drawn⟩

theorem cons_failed (h : o.Leaves b u v) (retains : Tree.Retains t u) {f : Failure}
    (others : u = t ∨ f.IsPartial ∧ ∃ l, u.placeOf (f.report.chart b.charts) = .ok l ∧ ∀ m, m ≠ l → u.get? m = t.get? m) :
    Leaves { o with failed := f :: o.failed } b t v where
  retains := retains.trans h.retains
  charts := h.charts
  others := by
    intro m apart
    rw [h.others m fun x begun => apart x (begun_cons_failed.2 (.inr begun))]
    rcases others with rfl | ⟨part, l, place, others⟩
    · rfl
    · refine others m ?_
      rintro rfl
      exact apart f.report (begun_cons_failed.2 (.inl ⟨rfl, part⟩)) (h.retains.placeOf place)
  last := by
    intro w mem later
    obtain ⟨picture, w', holds, retains', drawn⟩ :=
      h.last w mem fun x begun => later x (begun_cons_failed.2 (.inr begun))
    exact ⟨picture, w', holds, retains.trans retains', drawn⟩

end Outcome.Leaves

theorem Batch.leaves_chartAll {b : Batch} {reports : List Path} (ascending : reports.Pairwise Path.Before) {o o' : Outcome}
    {s s' : Session L} (h : (b.chartAll reports o : StateM (Session L) (Except Overflow Outcome)).run s = (.ok o', s')) :
    ∃ p : Outcome, o' = ⟨o.written ++ p.written, o.failed ++ p.failed⟩ ∧ (∀ x, p.Begun x → x ∈ reports) ∧
      p.Leaves b s.tree s'.tree := by
  induction reports generalizing o s with
  | nil =>
    cases h
    exact ⟨.empty, by simp [Outcome.empty], by simp [Outcome.Begun, Outcome.empty], .nil b _⟩
  | cons report reports ih =>
    obtain ⟨first, rest⟩ := List.pairwise_cons.1 ascending
    rw [run_chartAll_cons] at h
    dsimp only at h
    generalize line : b.told (.output _) s = begun at h
    obtain ⟨retains, charted⟩ := charted_chartReport begun b.figure report (report.chart b.charts)
    rw [← line, tree_told, line] at retains charted
    generalize begun.perform _ = r at h retains charted
    obtain ⟨r, next⟩ := r
    -- a report that fails leaves the others to be charted
    have failing {e : ChartError} {message : Message}
        (h : (b.chartAll reports (o.addFailed ⟨report, e⟩) : StateM (Session L) _).run (b.told message next) = (.ok o', s'))
        (others : next.tree = s.tree ∨ (Failure.mk report e).IsPartial ∧
          ∃ l, next.tree.placeOf (report.chart b.charts) = .ok l ∧ ∀ m, m ≠ l → next.tree.get? m = s.tree.get? m) :
        ∃ p : Outcome, o' = ⟨o.written ++ p.written, o.failed ++ p.failed⟩ ∧ (∀ x, p.Begun x → x ∈ report :: reports) ∧
          p.Leaves b s.tree s'.tree := by
      obtain ⟨p, rfl, listed, leaves⟩ := ih rest h
      rw [tree_told] at leaves
      refine ⟨_, by simp [Outcome.addFailed], fun x begun => ?_, leaves.cons_failed (f := ⟨report, e⟩) retains others⟩
      rcases Outcome.begun_cons_failed.1 begun with ⟨rfl, -⟩ | begun
      · exact .head _
      · exact .tail _ (listed x begun)
    cases charted with
    | written drawn place held others =>
      obtain ⟨p, rfl, listed, leaves⟩ := ih rest h
      refine ⟨_, by simp [Outcome.addWritten], fun x begun => ?_,
        leaves.cons_written retains (fun x begun => first x (listed x begun)) drawn place held others⟩
      rcases Outcome.begun_cons_written.1 begun with rfl | begun
      · exact .head _
      · exact .tail _ (listed x begun)
    | partly place others => exact failing h (.inr ⟨⟨_, rfl⟩, _, place, others⟩)
    | @unopened e same =>
      cases e with
      | overflow cause => cases h
      | load cause => exact failing h (.inl same)
      | render cause => exact failing h (.inl same)

end CycleChart
