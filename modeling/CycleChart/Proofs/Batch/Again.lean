import CycleChart.Proofs.Batch.Frame
import CycleChart.Proofs.Batch.Listed
import CycleChart.Proofs.Files.Remaking
import CycleChart.Proofs.Files.Same

namespace CycleChart

open Session

namespace Tree

/-- Where a path leads to, there are segments of it. -/
theorem mem_of_foldlM {t : Tree Empty} {segments : List Name} {l m : Location}
    (walked : segments.foldlM t.enterAt l = .ok m) : ∀ name ∈ m, name ∈ l ∨ name ∈ segments := by
  induction segments generalizing l with
  | nil =>
    cases walked
    exact fun name mem => .inl mem
  | cons segment segments ih =>
    obtain ⟨k, step, walked⟩ := bind_eq_ok walked
    have passed : ∀ name ∈ k, name ∈ l ∨ name = segment := by
      intro name mem
      have back : name ∈ l.dropLast → name ∈ l := fun mem => (List.dropLast_sublist l).subset mem
      rw [enterAt] at step
      grind
    intro name mem
    rcases ih walked name mem with before | later
    · rcases passed name before with before | rfl
      · exact .inl before
      · exact .inr List.mem_cons_self
    · exact .inr (List.mem_cons_of_mem segment later)

/-- The names on the way to something hold no slash either. -/
theorem Named.clear_of_mem {t : Tree Empty} (named : t.Named) {l : Location} (there : t.get? l ≠ none) {name : Name}
    (mem : name ∈ l) : Path.slash ∉ name := by
  obtain ⟨front, rest, rfl⟩ := List.append_of_mem mem
  refine named front name ?_
  cases rest with
  | nil => exact there
  | cons next rest =>
    have below : t.get? (front ++ [name] ++ next :: rest) ≠ none := by rwa [List.append_assoc]
    rw [get?_of_below below (List.cons_ne_nil next rest)]
    nofun

/-- What is new where a path leads to has a name without a slash. -/
theorem Named.of_places {t u : Tree Empty} (named : t.Named) (set : u.toSetting = t.toSetting)
    (places : ∀ l, u.get? l ≠ t.get? l → ∃ p, u.placeOf p = .ok l) : u.Named := by
  intro l name there
  by_cases same : u.get? (l ++ [name]) = t.get? (l ++ [name])
  · rw [same] at there
    exact named l name there
  · obtain ⟨p, place⟩ := places _ same
    rcases mem_of_foldlM (placeOf_eq_ok place).2 name (by simp) with before | segment
    · rw [start_of_setting set] at before
      refine named.clear_of_mem ?_ before
      rw [get?_start]
      nofun
    · exact Path.not_mem_of_mem_segments segment

theorem Opened.named {t u : Tree Empty} {p : Path} (h : Opened p t u) (named : t.Named) : u.Named := by
  apply named.of_places h.extended.setting
  intro l other
  obtain ⟨-, -, q, -, place⟩ := h.new l other
  exact ⟨q, place⟩

/-- A directory that could be listed still can. -/
theorem Keeps.names {t u : Tree Empty} (h : Keeps t u) {p : Path} {listed : List Name} (before : t.names p = .ok listed) :
    ∃ l others, t.placeOf p = .ok l ∧ u.placeOf p = .ok l ∧ u.names p = .ok others := by
  obtain ⟨l, inside, place, there, readable, -⟩ := names_eq_ok before
  have here : t.get? l = some .directory := by
    rw [get?, there]
    rfl
  have place' := h.placeOf place here (.inl rfl)
  obtain ⟨inside', -, names⟩ := names_of_placeOf place' (h.solid l _ here (.inl rfl))
  rw [h.rights, if_pos readable] at names
  exact ⟨l, _, place, place', names⟩

end Tree

namespace Batch

/-- The names of the reports are those of some files right inside the directory. -/
theorem mem_listed_iff {t : Tree Empty} (named : t.Named) {directory : Path} {l : Location} {names : List Name}
    (inside : t.names directory = .ok names) (place : t.placeOf directory = .ok l) {name : Name} :
    name ∈ listed t directory names ↔ isReportName name ∧ (∃ c, t.get? (l ++ [name]) = some (.file c)) ∧
      (∃ parts, Tree.segmentsOf (directory.step name) = .ok parts) ∧ (t.rights l).search ∧
        name.length ≤ Tree.longestName := by
  constructor
  · intro mem
    obtain ⟨-, ends, file⟩ := mem_listed.1 mem
    rcases held_of_listed named inside place mem with ⟨c, held, -⟩ | ⟨target, -⟩
    · have clear := named l name (by rw [held]; nofun)
      exact ⟨ends, ⟨c, held⟩, (Tree.isFile_step_iff clear (normal_of_isReportName ends) place held).1 file⟩
    · exact target.elim
  · rintro ⟨ends, ⟨c, held⟩, known⟩
    have there : t.get? (l ++ [name]) ≠ none := Option.ne_none_iff_exists'.2 ⟨_, held⟩
    refine mem_listed.2 ⟨(Tree.mem_names_iff inside place).2 there, ends, ?_⟩
    exact (Tree.isFile_step_iff (named l name there) (normal_of_isReportName ends) place held).2 known

/-- The same reports are found in a tree that keeps all but pictures and has no other new files. -/
theorem found_again {b : Batch} {t u : Tree Empty} {reports : List Path} (named : t.Named) (named' : u.Named)
    (keeps : Tree.Keeps t u)
    (back : ∀ l c, ¬Tree.IsPicture l → u.get? l = some (.file c) → t.get? l = some (.file c))
    (found : b.found t = .ok reports) (filled : reports ≠ []) : b.found u = .ok reports := by
  have there := keeps.isDirectory (isDirectory_of_found found)
  rcases found_eq_ok found with ⟨directory, names, looks, rfl⟩ | ⟨-, rfl⟩
  · obtain ⟨l, names', place, place', inside⟩ := keeps.names looks.names
    have looks' : b.Looks u directory names' := by
      refine ⟨looks.spelled, fun p mem => ?_, inside⟩
      obtain ⟨others, listing⟩ := looks.passed p mem
      obtain ⟨-, others', -, -, listing'⟩ := keeps.names listing
      exact ⟨others', listing'⟩
    have same : listed u directory names' = listed t directory names := by
      apply looks'.ascending.eq_of_mem_iff looks.ascending
      intro name
      rw [mem_listed_iff named' inside place', mem_listed_iff named looks.names place, keeps.rights]
      apply and_congr_right
      intro ends
      have solid := Tree.not_isPicture_concat (suffix_of_isReportName ends) l
      refine and_congr_left fun _ => exists_congr fun c => ⟨back _ c solid, fun held => ?_⟩
      exact keeps.solid _ _ held (.inr solid)
    rw [found_of_looks there looks', same]
  · exact absurd rfl filled

/-- No chart is found as a report, whatever batch looks for reports. -/
theorem place_ne_of_found {b : Batch} {t : Tree Empty} {reports : List Path} (found : b.found t = .ok reports)
    {report : Path} (mem : report ∈ reports) {chart : Path} (ends : (Path.ofString ".png").bytes <:+ chart.bytes) :
    t.placeOf report ≠ t.placeOf chart := by
  have there := isReport_of_found found report mem
  obtain ⟨l, c, place, -⟩ := Tree.isFile_iff.1 there.file
  intro same
  rw [place] at same
  exact Tree.not_isPicture there.ends place (Tree.isPicture_of_ends ends same.symm)

section

variable [Drawing.Typeface]

/-- Charting again what was charted leaves it as it is. -/
theorem after_again (b : Batch) (made : Session Empty) (l m : Location) (reports : List Path)
    (here : Option (Entry Empty)) :
    b.after made l m reports (b.after made l m reports here) = b.after made l m reports here := by
  rcases b.after_cases made l m reports with same | ⟨report, -, -, c, -, last⟩
  · rw [same, same]
  · rw [last, last]

/-- The loop over the reports comes out as before when it is run again. -/
theorem run_chartAll_again {b : Batch} {s made s' : Session Empty} {reports : List Path}
    (found : b.found s.tree = .ok reports) (here : s.perform (Host.makeDirectories b.charts) = (.ok (), made))
    (run : (b.chartAll reports .empty : StateM (Session Empty) (Except Overflow Outcome)).run made =
      (b.tally made reports .empty, s')) :
    ∃ s'', (b.chartAll reports .empty : StateM (Session Empty) (Except Overflow Outcome)).run s' =
      (b.tally made reports .empty, s'') ∧ s''.tree = s'.tree := by
  obtain ⟨l, t, lies, first, repainted, places⟩ := run_chartAll_of_found found here
  rw [run, Prod.mk.injEq] at first
  obtain ⟨-, rfl⟩ := first
  obtain ⟨s'', second, again, places'⟩ := run_chartAll lies (isReport_of_made found here) repainted .empty
  refine ⟨s'', second, Tree.eq_of_get? (again.setting.trans repainted.setting.symm) fun m => ?_⟩
  rw [places', places, after_again]

theorem perform_run_of_failed {b : Batch} {s made : Session Empty} {reports : List Path} {e : FileError}
    (found : b.found s.tree = .ok reports) (filled : reports ≠ [])
    (here : s.perform (Host.makeDirectories b.charts) = (.error e, made)) :
    s.perform b.run = (.error (.outputDirectory b.charts e), made) := by
  rw [perform_run, found]
  cases reports with
  | nil => exact absurd rfl filled
  | cons report reports =>
    dsimp only
    rw [here]

theorem perform_run_of_charted {b : Batch} {s made s' : Session Empty} {reports : List Path} {r : Except Overflow Outcome}
    (found : b.found s.tree = .ok reports) (filled : reports ≠ [])
    (here : s.perform (Host.makeDirectories b.charts) = (.ok (), made))
    (run : (b.chartAll reports .empty : StateM (Session Empty) (Except Overflow Outcome)).run made = (r, s')) :
    s.perform b.run = (r.mapError .overflow, s') := by
  rw [perform_run, found]
  cases reports with
  | nil => exact absurd rfl filled
  | cons report reports =>
    dsimp only
    rw [here]
    dsimp only
    rw [run]
    cases r <;> rfl

/-- A run that could not make the directory of the charts fails again, and changes nothing more. -/
theorem exists_run_again_of_failed {b : Batch} {s made : Session Empty} {reports : List Path} {e : FileError}
    (named : s.tree.Named) (found : b.found s.tree = .ok reports) (filled : reports ≠ [])
    (here : s.perform (Host.makeDirectories b.charts) = (.error e, made)) :
    ∃ e', made.perform b.run = (.error (.outputDirectory b.charts e'), made) ∧
      (e' = e ∨ e = .alreadyExists ∧ e' = .notDirectory ∧ .parent ∈ b.charts.components) := by
  have opened := opened_makeDirectories s b.charts
  rw [here] at opened
  have found' := found_again named (opened.named named) opened.extended.keeps (fun l c _ => opened.file_back) found filled
  obtain ⟨r', again, cause⟩ := perform_makeDirectories_again here
  rcases cause with rfl | ⟨same, rfl, back⟩
  · exact ⟨e, perform_run_of_failed found' filled again, .inl rfl⟩
  · cases same
    exact ⟨_, perform_run_of_failed found' filled again, .inr ⟨rfl, rfl, back⟩⟩

/-- A run that came to charting its reports comes to the same again. -/
theorem exists_run_again_of_charted {b : Batch} {s made s' : Session Empty} {reports : List Path} (named : s.tree.Named)
    (found : b.found s.tree = .ok reports) (filled : reports ≠ [])
    (here : s.perform (Host.makeDirectories b.charts) = (.ok (), made))
    (run : (b.chartAll reports .empty : StateM (Session Empty) (Except Overflow Outcome)).run made =
      (b.tally made reports .empty, s')) :
    ∃ s'', s'.perform b.run = ((b.tally made reports .empty).mapError .overflow, s'') ∧ s''.tree = s'.tree := by
  have opened := opened_makeDirectories s b.charts
  have there := (made_makeDirectories s b.charts).there
  rw [here] at opened there
  obtain ⟨l, t, lies, first, repainted, places⟩ := run_chartAll_of_found found here
  rw [run, Prod.mk.injEq] at first
  obtain ⟨-, rfl⟩ := first
  have keeps : Tree.Keeps s.tree s'.tree := opened.extended.keeps.trans repainted.keeps
  have named' : s'.tree.Named := by
    apply named.of_places keeps.setting
    intro m other
    have differences := differences_of_loop opened (isReport_of_found found) lies repainted places m other
    rcases differences with new | ⟨report, -, c, -, place, -⟩
    · obtain ⟨-, -, q, -, place⟩ := new
      exact ⟨q, place⟩
    · exact ⟨_, place⟩
  have back : ∀ m c, ¬Tree.IsPicture m → s'.tree.get? m = some (.file c) → s.tree.get? m = some (.file c) := by
    intro m c plain file
    rw [repainted.others m plain] at file
    exact opened.file_back file
  have found' := found_again named named' keeps back found filled
  have again : s'.perform (Host.makeDirectories b.charts) = (.ok (), s') := by
    apply perform_makeDirectoriesUpTo_of_there
    rcases there rfl with empty | directory
    · exact .inr ⟨empty, Nat.succ_pos _⟩
    · exact .inl (repainted.keeps.isDirectory directory)
  obtain ⟨s'', run', same⟩ := run_chartAll_again found here run
  exact ⟨s'', perform_run_of_charted found' filled again run', same⟩

/-- A run that is run again comes to the same and leaves the tree as it is. Only the cause for which the directory of
the charts cannot be made may be another one. -/
theorem exists_run_again {b : Batch} {s s' : Session Empty} {r : Except BatchError Outcome} (named : s.tree.Named)
    (first : s.perform b.run = (r, s')) :
    ∃ r' s'', s'.perform b.run = (r', s'') ∧ s''.tree = s'.tree ∧
      (r' = r ∨ r = .error (.outputDirectory b.charts .alreadyExists) ∧
        r' = .error (.outputDirectory b.charts .notDirectory) ∧ .parent ∈ b.charts.components) := by
  cases found : b.found s.tree with
  | error e =>
    have whole := first
    rw [perform_run, found] at first
    cases first
    exact ⟨_, s, whole, rfl, .inl rfl⟩
  | ok reports =>
    by_cases filled : reports = []
    · subst filled
      rw [perform_run, found] at first
      cases first
      have same := tree_told b (.error ("Warning: No JSON files found in " ++ b.reports.quoted ++ ".")) s
      refine ⟨_, _, by rw [perform_run, same, found], ?_, .inl rfl⟩
      exact tree_told b _ _
    · rcases here : s.perform (Host.makeDirectories b.charts) with ⟨e | a, made⟩
      · rw [perform_run_of_failed found filled here] at first
        cases first
        obtain ⟨e', again, rfl | ⟨rfl, rfl, back⟩⟩ := exists_run_again_of_failed named found filled here
        · exact ⟨_, s', again, rfl, .inl rfl⟩
        · exact ⟨_, s', again, rfl, .inr ⟨rfl, rfl, back⟩⟩
      · obtain ⟨l, t, -, run, -⟩ := run_chartAll_of_found found here
        rw [perform_run_of_charted found filled here run] at first
        cases first
        obtain ⟨s'', again, same⟩ := exists_run_again_of_charted named found filled here run
        exact ⟨_, s'', again, same, .inl rfl⟩

/-- A run that is run again comes to the same and leaves the tree as it is, and nothing that was written is found as a
report. Only the cause for which the directory of the charts cannot be made may be another one. -/
theorem run_again {b : Batch} {s s' s'' : Session Empty} {r r' : Except BatchError Outcome} (named : s.tree.Named)
    (first : s.perform b.run = (r, s')) (second : s'.perform b.run = (r', s'')) :
    (r' = r ∨ r = .error (.outputDirectory b.charts .alreadyExists) ∧
      r' = .error (.outputDirectory b.charts .notDirectory) ∧ .parent ∈ b.charts.components) ∧
    s''.tree = s'.tree ∧
    ∀ o, r = .ok o → ∀ w ∈ o.written, ∀ (c : Batch) (reports : List Path),
      (s'.perform c.discover).1 = .ok reports → ∀ report ∈ reports, s'.tree.placeOf report ≠ s'.tree.placeOf w.chart := by
  obtain ⟨r₂, t, again, same, cause⟩ := exists_run_again named first
  rw [second] at again
  cases again
  refine ⟨cause, same, ?_⟩
  rintro o rfl w mem c reports found report listed
  rw [perform_discover] at found
  have chart : w.chart = w.report.chart b.charts := by
    obtain ⟨reports, found, ⟨-, rfl, -⟩ | ⟨-, made, here, charted⟩⟩ := run_eq_ok first
    · cases mem
    · obtain ⟨-, -, written, -, -, -⟩ := chartAll_of_found found here charted
      exact (mem_written_iff.1 (written ▸ mem)).2.1
  rw [chart]
  exact place_ne_of_found found listed (Path.ends_join (List.suffix_append _ _) _)

end

open scoped Drawing.Typeface

theorem run_again_mixed :
    ((mixed.perform small.run).2.perform small.run).1 = .ok mixedOutcome ∧
      ((mixed.perform small.run).2.perform small.run).2.tree = (mixed.perform small.run).2.tree := by
  obtain ⟨same | ⟨failed, -⟩, tree, -⟩ := run_again legal_mixed.named perform_run_mixed rfl
  · exact ⟨same, tree⟩
  · cases failed

/-- Charts that are to go into a directory below a file, by a step back from a directory that is not there yet. -/
def detour : Batch := .ofDirectories (.ofString "../in") (some (.ofString "a/../f/c")) small.figure true

def besideFile : Session Empty :=
  .start ((crowdedFiles.insert [(Path.ofString "work").bytes] (Path.ofString "f").bytes (.file (.bytes []))).standing
    [(Path.ofString "work").bytes] (by decide +kernel))

theorem legal_besideFile : besideFile.tree.Legal := by
  have legal : (crowdedFiles.insert [(Path.ofString "work").bytes] (Path.ofString "f").bytes (.file (.bytes []))).Legal :=
    legal_crowdedFiles.insert (by decide +kernel) (by decide +kernel) (by decide) _
  exact legal

/-- Not every run comes to the same when it is run again. -/
theorem not_same_again :
    ¬∀ (b : Batch) (s s' s'' : Session Empty) (r r' : Except BatchError Outcome), s.tree.Named →
      s.perform b.run = (r, s') → s'.perform b.run = (r', s'') → r' = r := by
  intro same
  have first : (besideFile.perform detour.run).1 = .error (.outputDirectory detour.charts .alreadyExists) := by
    apply eq_error_of_errorOf
    rw [perform_run]
    decide +kernel
  have second : ((besideFile.perform detour.run).2.perform detour.run).1 =
      .error (.outputDirectory detour.charts .notDirectory) := by
    apply eq_error_of_errorOf
    rw [perform_run, perform_run]
    decide +kernel
  have equal := same detour besideFile _ _ _ _ legal_besideFile.named (Prod.ext first rfl) (Prod.ext second rfl)
  cases equal

end Batch
end CycleChart
