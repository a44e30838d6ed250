import CycleChart.Proofs.Files.Growth
import CycleChart.Proofs.Files.Inside
import CycleChart.Proofs.Files.Sessions

namespace CycleChart

open Node

/-- What a file holds into which a picture was written, as far as it takes it. -/
def Content.IsDrawn (c : Content) : Prop := ∃ picture, c.toBytes <+: (Content.picture picture).toBytes

namespace Tree

variable {L : Type} {t u v : Tree L}

/-- What is in a tree is in the other, but pictures may be drawn over its files. -/
structure Retains (t u : Tree L) : Prop where
  setting : u.toSetting = t.toSetting
  solid : ∀ l e, t.get? l = some e → (∀ c, e ≠ .file c) → u.get? l = some e
  files : ∀ l c, t.get? l = some (.file c) → ∃ d, u.get? l = some (.file d) ∧ (d = c ∨ d.IsDrawn)

namespace Retains

theorem refl (t : Tree L) : Retains t t := ⟨rfl, fun _ _ there _ => there, fun _ c there => ⟨c, there, .inl rfl⟩⟩

theorem trans (h : Retains t u) (k : Retains u v) : Retains t v where
  setting := k.setting.trans h.setting
  solid l e there other := k.solid l e (h.solid l e there other) other
  files := by
    intro l c there
    obtain ⟨d, there', same⟩ := h.files l c there
    obtain ⟨d', there'', same'⟩ := k.files l d there'
    refine ⟨d', there'', same'.elim ?_ .inr⟩
    rintro rfl
    exact same

theorem rights (h : Retains t u) : u.rights = t.rights := congrArg Setting.rights h.setting

theorem directory (h : Retains t u) {l : Location} (here : t.get? l = some .directory) : u.get? l = some .directory :=
  h.solid l _ here fun c same => by cases same

theorem link (h : Retains t u) {l : Location} {target : L} (here : t.get? l = some (.link target)) :
    u.get? l = some (.link target) := h.solid l _ here fun c same => by cases same

/-- Where something is, there is something of its kind. -/
theorem link_iff (h : Retains t u) {l : Location} {e : Entry L} (there : t.get? l = some e) :
    ∃ e', u.get? l = some e' ∧ ∀ target, e' = .link target ↔ e = .link target := by
  cases e with
  | directory => exact ⟨_, h.directory there, fun _ => .rfl⟩
  | link target => exact ⟨_, h.link there, fun _ => .rfl⟩
  | file c =>
    obtain ⟨d, there', -⟩ := h.files l c there
    exact ⟨_, there', fun target => by simp⟩

/-! Paths that lead somewhere still lead there. -/

theorem enterAt (h : Retains t u) {l m : Location} {segment : Name} (step : t.enterAt l segment = .ok m) :
    u.enterAt l segment = .ok m := by
  have here : t.get? l = some .directory := by
    apply Classical.byContradiction
    intro other
    rw [Tree.enterAt, if_neg other] at step
    cases step
  have further : (t.get? (l ++ [segment])).isSome → (u.get? (l ++ [segment])).isSome := by
    intro there
    obtain ⟨e, there⟩ := Option.isSome_iff_exists.1 there
    obtain ⟨e', there', -⟩ := h.link_iff there
    rw [there']
    rfl
  rw [Tree.enterAt, if_pos here] at step
  rw [Tree.enterAt, if_pos (h.directory here), h.rights]
  grind

theorem enter (h : Retains t u) {w w' x : Way L} {segment : Name} (lead : w.Leads t.root) (lead' : w'.Leads u.root)
    (same : w'.location = w.location) (step : t.enter w segment = .ok x) :
    ∃ x', u.enter w' segment = .ok x' ∧ x'.location = x.location := by
  have told := location_enter lead segment
  rw [step] at told
  have told' := location_enter lead' segment
  rw [same, h.enterAt told.symm] at told'
  cases entered : u.enter w' segment with
  | error e => simp [entered, Except.map] at told'
  | ok x' => exact ⟨x', rfl, by simpa [entered, Except.map] using told'⟩

/-- At the same place there is the same link, or none. -/
theorem stop_eq_link_iff (h : Retains t u) {w w' : Way L} (lead : w.Leads t.root) (lead' : w'.Leads u.root)
    (same : w'.location = w.location) (target : L) : w'.stop u.root = .link target ↔ w.stop t.root = .link target := by
  have here := get?_of_leads lead
  have here' := get?_of_leads lead'
  obtain ⟨e, there, alike⟩ := h.link_iff here
  rw [same, there, Option.some.injEq] at here'
  have link (n : Node L) : n.entry = .link target ↔ n = .link target := by cases n <;> simp [entry]
  rw [← link, ← link, ← here']
  exact alike target

theorem location_origin (p : Path) {w w' : Way L} (same : w'.location = w.location) :
    (origin p w').location = (origin p w).location := by
  rw [origin, origin]
  split
  · rfl
  · exact same

variable [Links L]

theorem along (h : Retains t u) {links left : Nat} {beyond beyond' : Way L → List Name → Except FileError (Way L × Nat)}
    (further : ∀ {w w' x : Way L} {parts : List Name} {left : Nat}, w.Leads t.root → w'.Leads u.root →
      w'.location = w.location → beyond w parts = .ok (x, left) →
      ∃ x', beyond' w' parts = .ok (x', left) ∧ x'.location = x.location)
    {parts : List Name} {w w' x : Way L} (lead : w.Leads t.root) (lead' : w'.Leads u.root)
    (same : w'.location = w.location) (walked : t.along links beyond w parts = .ok (x, left)) :
    ∃ x', u.along links beyond' w' parts = .ok (x', left) ∧ x'.location = x.location := by
  induction parts generalizing w w' with
  | nil =>
    cases walked
    exact ⟨w', rfl, same⟩
  | cons segment parts ih =>
    obtain ⟨y, step, next⟩ := along_cons_eq_ok walked
    obtain ⟨y', step', same'⟩ := h.enter lead lead' same step
    have before := leads_enter lead step
    have before' := leads_enter lead' step'
    have alike := h.stop_eq_link_iff before before' same'
    rcases next with ⟨target, segments, stop, legal, walked⟩ | ⟨solid, walked⟩
    · rw [along_of_link step' ((alike target).2 stop) legal]
      have back : Way.location y'.tail = Way.location y.tail := by rw [location_tail, location_tail, same']
      exact further (leads_origin _ (Way.leads_tail before)) (leads_origin _ (Way.leads_tail before'))
        (location_origin _ back) walked
    · rw [along_of_solid step' fun target stop => solid target ((alike target).1 stop)]
      exact ih before before' same' walked

theorem follow (h : Retains t u) {links left : Nat} {parts : List Name} {w w' x : Way L} (lead : w.Leads t.root)
    (lead' : w'.Leads u.root) (same : w'.location = w.location) (walked : t.follow links w parts = .ok (x, left)) :
    ∃ x', u.follow links w' parts = .ok (x', left) ∧ x'.location = x.location := by
  induction links generalizing parts w w' x left with
  | zero => exact h.along (fun _ _ _ none => by cases none) lead lead' same walked
  | succ links ih =>
    refine h.along ?_ lead lead' same walked
    exact fun lead lead' same walked => ih lead lead' same walked

omit [Links L] in
theorem location_begin (h : Retains t u) (p : Path) :
    (origin p u.wayHere).location = (origin p t.wayHere).location := by
  refine location_origin p ?_
  rw [location_wayHere, location_wayHere, congrArg Setting.here h.setting]

theorem placeOf (h : Retains t u) {p : Path} {l : Location} (place : t.placeOf p = .ok l) : u.placeOf p = .ok l := by
  cases found : t.locate p with
  | error e => simp [locate_error found] at place
  | ok w =>
    obtain ⟨parts, left, legal, walked⟩ := locate_eq_ok found
    obtain ⟨w', walked', same⟩ := h.follow (t.leads_begin p) (u.leads_begin p) (h.location_begin p) walked
    have found' : u.locate p = .ok w' := by
      rw [locate, legal]
      simp only [bind, Except.bind, walked']
      rfl
    rw [(get?_of_locate found).1] at place
    rw [(get?_of_locate found').1, same, place]

end Retains

/-- Something new, or a picture in place of a file, leaves all else. -/
theorem retains_insert {l : Location} {name : Name} {e : Entry L} (here : t.get? l = some .directory)
    (before : t.get? (l ++ [name]) = none ∨
      (∃ c, t.get? (l ++ [name]) = some (.file c)) ∧ ∃ d, e = .file d ∧ d.IsDrawn) : Retains t (t.insert l name e) := by
  have free : t.get? (l ++ [name]) ≠ some .directory := by
    rcases before with none | ⟨⟨c, there⟩, -⟩
    · simp [none]
    · simp [there]
  have places := get?_insert here free e
  refine ⟨t.toSetting_insert l name e, fun m e' there other => ?_, fun m c there => ?_⟩
  · rw [places, if_neg]
    · exact there
    · rintro rfl
      rcases before with none | ⟨⟨c, there'⟩, -⟩
      · cases there.symm.trans none
      · cases there.symm.trans there'
        exact other c rfl
  · rw [places]
    split
    · rename_i same
      subst same
      rcases before with none | ⟨-, d, rfl, drawn⟩
      · cases there.symm.trans none
      · exact ⟨d, rfl, .inr drawn⟩
    · exact ⟨c, there, .inl rfl⟩

variable [Links L]

/-! What a path aims at. -/

/-- A target that has a name lies in a directory that may be searched. -/
theorem aim_eq_ok {links left : Nat} {w : Way L} {parts : List Name} {g : Target L} (lead : w.Leads t.root)
    (h : t.aim links w parts = .ok (g, left)) (named : g.name ≠ []) :
    ∃ front count, parts = front ++ g.name :: List.replicate count [] ∧ t.follow links w front = .ok (g.directory, left) ∧
      t.get? g.directory.location = some .directory ∧ (t.rights g.directory.location).search = true ∧
      g.present.map entry = t.get? (g.directory.location ++ [g.name]) ∧ (g.slashed = false → count = 0) := by
  obtain ⟨⟨x, left'⟩, walked, h⟩ := bind_eq_ok h
  dsimp only at h
  split at h
  · rename_i inside stop
    split at h
    · cases h
    · rename_i allowed
      cases h
      obtain ⟨segment, mem, filled⟩ := exists_filled_of_kept rfl named
      obtain ⟨front, last, count, -, eq, kept⟩ := exists_last_filled mem filled
      simp only [kept, List.dropLast_concat, List.getLast?_concat, Option.getD_some] at named allowed walked ⊢
      have before := leads_follow lead walked
      have here := get?_of_leads before
      rw [stop] at here
      refine ⟨front, count, eq, walked, here, by simpa [named] using allowed, (get?_child before stop last).symm, ?_⟩
      intro short
      simpa [eq] using short
  · cases h

theorem retains_makeDirectory {p : Path} (h : t.makeDirectory p = .ok u) : Retains t u := by
  obtain ⟨parts, legal, h⟩ := bind_eq_ok h
  obtain ⟨⟨g, left⟩, aimed, h⟩ := bind_eq_ok h
  dsimp only at h
  split at h
  · cases h
  · rename_i dots
    split at h
    · cases h
    · split at h
      · cases h
      · rename_i free
        split at h
        · cases h
        · cases h
          simp only [Target.isDots, Bool.or_eq_true, decide_eq_true_eq, not_or] at dots
          obtain ⟨front, count, -, -, here, -, present, -⟩ := aim_eq_ok (t.leads_begin p) aimed dots.1.1
          refine retains_insert here (.inl ?_)
          rw [← present, Option.not_isSome_iff_eq_none.1 free]
          rfl

/-- A target whose name may be looked up, and that no slashes follow. -/
structure Target.IsNamed (g : Target L) : Prop where
  loud : g.isDots = false
  ends : g.slashed = false
  short : g.name.length ≤ longestName

namespace Target

variable {g : Target L}

def place (g : Target L) : Location := g.directory.location ++ [g.name]

omit [Links L] in
theorem IsNamed.normal (h : g.IsNamed) : Path.component? g.name = some (.normal g.name) := by
  rw [Path.component?_eq_normal_iff]
  simpa [isDots, and_assoc] using h.loud

theorem link?_eq_some {p : Path} (h : g.link? = some p) :
    g.IsNamed ∧ ∃ target, g.present = some (.link target) ∧ p = Links.path target := by
  unfold link? at h
  split at h
  · rename_i target held
    split at h
    · cases h
    · rename_i plain
      simp only [Bool.or_eq_true, decide_eq_true_eq, not_or, Bool.not_eq_true] at plain
      exact ⟨⟨plain.1.1, plain.1.2, Nat.not_lt.1 plain.2⟩, target, held, (Option.some.inj h).symm⟩
  · cases h

theorem IsNamed.ne_link (h : g.IsNamed) (none : g.link? = none) (target : L) : g.present ≠ some (.link target) := by
  intro held
  simp [link?, held, h.loud, h.ends, Nat.not_lt.2 h.short] at none

end Target

/-- A target lies in a directory, and once something is under its name, one step from the directory leads to it. -/
theorem aim_spec {links left : Nat} {w : Way L} {parts : List Name} {g : Target L} (lead : w.Leads t.root)
    (h : t.aim links w parts = .ok (g, left)) (named : g.IsNamed) :
    g.directory.Leads t.root ∧ t.get? g.directory.location = some .directory ∧ g.present.map entry = t.get? g.place ∧
      ∀ u e, Retains t u → u.get? g.place = some e → ∀ w' : Way L, w'.Leads u.root → w'.location = w.location →
        ∃ d n, u.follow links w' parts = u.follow left d [g.name] ∧ d.Leads u.root ∧
          d.location = g.directory.location ∧ u.enter d g.name = .ok ((g.name, n) :: d) ∧ n.entry = e := by
  obtain ⟨filled, -⟩ := Path.component?_eq_normal_iff.1 named.normal
  obtain ⟨front, count, rfl, walked, here, open', present, whole⟩ := aim_eq_ok lead h filled
  obtain rfl := whole named.ends
  refine ⟨leads_follow lead walked, here, present, fun u e later there w' lead' same => ?_⟩
  obtain ⟨d, walked', same'⟩ := later.follow lead lead' same walked
  have before := leads_follow lead' walked'
  have here' := get?_of_leads before
  rw [same', later.directory here] at here'
  cases stop : d.stop u.root with
  | file c => simp [stop, entry] at here'
  | link target => simp [stop, entry] at here'
  | directory inside =>
    rw [Target.place, ← same', get?_child before stop] at there
    obtain ⟨n, held, kind⟩ := Option.map_eq_some_iff.1 there
    refine ⟨d, n, follow_append walked' [g.name], before, same', ?_, kind⟩
    rw [enter_normal stop named.normal held, same', later.rights, if_neg (by simp [open']),
      if_neg (Nat.not_lt.2 named.short)]

/-- Something that is opened to be written lies in a directory and is no link, and once a file is there, the path leads
to it. -/
structure Target.IsOpen (t : Tree L) (g : Target L) (leads : Tree L → Prop) : Prop where
  here : t.get? g.directory.location = some .directory
  present : g.present.map entry = t.get? g.place
  other : ∀ target, g.present ≠ some (.link target)
  reached : ∀ u c, Retains t u → u.get? g.place = some (.file c) → leads u

/-- Segments lead to a place from wherever others lead that start at the same place. -/
def Reaches (links : Nat) (w : Way L) (parts : List Name) (l : Location) (u : Tree L) : Prop :=
  ∀ w' : Way L, w'.Leads u.root → w'.location = w.location →
    ∃ x left, u.follow links w' parts = .ok (x, left) ∧ x.location = l

theorem isOpen_of_aim {links left : Nat} {w : Way L} {parts : List Name} {g : Target L} (lead : w.Leads t.root)
    (h : t.aim links w parts = .ok (g, left)) (named : g.IsNamed) (none : g.link? = none) :
    g.IsOpen t (Reaches links w parts g.place) := by
  obtain ⟨-, here, present, further⟩ := aim_spec lead h named
  refine ⟨here, present, named.ne_link none, fun u c later there w' lead' same => ?_⟩
  obtain ⟨d, n, eq, -, same', step, kind⟩ := further u _ later there w' lead' same
  have one := follow_one left fun x target entered link => by
    cases step.symm.trans entered
    cases kind.symm.trans (congrArg Node.entry link)
  refine ⟨_, left, (eq.trans one).trans (by rw [step]; rfl), ?_⟩
  rw [Way.location_cons, same', Target.place]

/-- What a link at the end leads to is opened in its place. -/
theorem isOpen_of_link {links left : Nat} {w : Way L} {parts segments : List Name} {g g' : Target L} {p : Path}
    (lead : w.Leads t.root) (h : t.aim links w parts = .ok (g', left + 1)) (link : g'.link? = some p)
    (legal : segmentsOf p = .ok segments)
    (open' : g.IsOpen t (Reaches left (origin p g'.directory) segments g.place)) :
    g.IsOpen t (Reaches links w parts g.place) := by
  obtain ⟨named, target, held, rfl⟩ := Target.link?_eq_some link
  obtain ⟨-, -, present, further⟩ := aim_spec lead h named
  rw [held] at present
  refine ⟨open'.here, open'.present, open'.other, fun u c later there w' lead' same => ?_⟩
  obtain ⟨d, n, eq, lead'', same', step, kind⟩ := further u _ later (later.link present.symm) w' lead' same
  have stop : Way.stop u.root ((g'.name, n) :: d) = .link target := by
    cases n <;> cases kind
    rfl
  obtain ⟨x, left', reached, place⟩ :=
    open'.reached u c later there _ (leads_origin _ lead'') (Retains.location_origin _ same')
  refine ⟨x, left', ?_, place⟩
  rw [eq]
  refine (along_of_link step stop legal []).trans ?_
  rw [List.append_nil]
  exact reached

theorem isOpen_of_aimThrough {count links : Nat} {w : Way L} {parts : List Name} {g : Target L} (lead : w.Leads t.root)
    (h : t.aimThrough count links w parts = .ok g) (named : g.IsNamed) : g.IsOpen t (Reaches links w parts g.place) := by
  induction count generalizing links w parts with
  | zero => cases h
  | succ count ih =>
    obtain ⟨⟨g', left⟩, aimed, rest⟩ := bind_eq_ok h
    dsimp only at rest
    split at rest
    · rename_i none
      cases rest
      exact isOpen_of_aim lead aimed named none
    · cases rest
    · rename_i link
      obtain ⟨segments, legal, aimed'⟩ := bind_eq_ok rest
      obtain ⟨before, -⟩ := aim_spec lead aimed (Target.link?_eq_some link).1
      exact isOpen_of_link lead aimed link legal (ih (leads_origin _ before) aimed')

/-- A file that is opened to be written is new or was there before, and once it is there, the path leads to it. -/
theorem opened_eq_ok {p : Path} {l : Location} {name : Name} (h : t.opened p = .ok (l, name)) :
    t.get? l = some .directory ∧ (t.get? (l ++ [name]) = none ∨ ∃ c, t.get? (l ++ [name]) = some (.file c)) ∧
      ∀ u c, Retains t u → u.get? (l ++ [name]) = some (.file c) → u.placeOf p = .ok (l ++ [name]) := by
  obtain ⟨parts, legal, h⟩ := bind_eq_ok h
  obtain ⟨g, aimed, h⟩ := bind_eq_ok h
  dsimp only at h
  split at h
  · cases h
  · rename_i plain
    simp only [Bool.or_eq_true, not_or, Bool.not_eq_true] at plain
    split at h
    · cases h
    · rename_i short
      split at h
      · cases h
      · rename_i other
        generalize (if g.present.isSome then _ else _ : Location) = changed at h
        split at h
        · cases h
        · cases h
          have isOpen := isOpen_of_aimThrough (t.leads_begin p) aimed ⟨plain.1, plain.2, Nat.not_lt.1 short⟩
          refine ⟨isOpen.here, ?_, fun u c later there => ?_⟩
          · rw [← Target.place, ← isOpen.present]
            cases held : g.present with
            | none => exact .inl rfl
            | some n =>
              cases n with
              | directory inside => exact absurd (congrArg (Option.map entry) held) other
              | link target => exact absurd held (isOpen.other target)
              | file c => exact .inr ⟨c, rfl⟩
          · obtain ⟨x, left, reached, place⟩ :=
              isOpen.reached u c later there _ (u.leads_begin p) (later.location_begin p)
            have found : u.locate p = .ok x := by
              rw [locate, legal]
              simp only [bind, Except.bind, reached]
              rfl
            rw [(get?_of_locate found).1, place, Target.place]

omit [Links L] in
theorem isDrawn_fill (t : Tree L) (l : Location) (picture : Canvas) : (t.fill l (.picture picture)).2.IsDrawn := by
  refine ⟨picture, ?_⟩
  rw [fill]
  split
  · exact List.prefix_rfl
  · split
    · exact List.prefix_rfl
    · exact List.take_prefix _ _

/-- A picture that is written is where its path leads to then, as far as the file takes it. -/
theorem retains_write {p : Path} {l : Location} {name : Name} (opened : t.opened p = .ok (l, name)) (picture : Canvas) :
    Retains t (t.write p (.picture picture)).2 ∧
      (t.write p (.picture picture)).2.placeOf p = .ok (l ++ [name]) ∧
      ∀ m, (t.write p (.picture picture)).2.get? m =
        if m = l ++ [name] then some (.file (t.fill (l ++ [name]) (.picture picture)).2) else t.get? m := by
  obtain ⟨here, before, reached⟩ := opened_eq_ok opened
  have free : t.get? (l ++ [name]) ≠ some .directory := by
    rcases before with none | ⟨c, there⟩
    · simp [none]
    · simp [there]
  rw [write, opened]
  dsimp only
  have drawn := t.isDrawn_fill (l ++ [name]) picture
  generalize (t.fill (l ++ [name]) (.picture picture)).2 = held at drawn ⊢
  have places := get?_insert here free (.file held)
  have retains : Retains t (t.insert l name (.file held)) :=
    retains_insert here (before.imp_right fun there => ⟨there, held, rfl, drawn⟩)
  exact ⟨retains, reached _ held retains (by rw [places, if_pos rfl]), places⟩

end Tree

namespace Session

variable {L : Type} [Links L]

theorem retains_ensureDirectory (s : Session L) (p : Path) :
    Tree.Retains s.tree (s.perform (Host.ensureDirectory p)).2.tree := by
  rw [perform_ensureDirectory]
  cases made : s.tree.makeDirectory p with
  | ok t => exact Tree.retains_makeDirectory made
  | error e =>
    dsimp only
    split <;> exact .refl _

theorem retains_makeDirectoriesUpTo (s : Session L) (count : Nat) (p : Path) :
    Tree.Retains s.tree (s.perform (Host.makeDirectoriesUpTo count p)).2.tree := by
  induction count generalizing s p with
  | zero => exact retains_ensureDirectory s p
  | succ count ih =>
    rw [perform_makeDirectoriesUpTo]
    split
    · exact .refl _
    · split
      · rename_i t made
        exact Tree.retains_makeDirectory made
      · split
        · rename_i parent _
          have above := ih s parent
          split
          · rename_i t eq
            rw [eq] at above
            exact above.trans (retains_ensureDirectory t p)
          · rename_i e t eq
            rw [eq] at above
            exact above
        · exact .refl _
      · split <;> exact .refl _

theorem retains_makeDirectories (s : Session L) (p : Path) :
    Tree.Retains s.tree (s.perform (Host.makeDirectories p)).2.tree :=
  retains_makeDirectoriesUpTo s _ p

end Session
end CycleChart
