import CycleChart.Command.Arguments
import CycleChart.Proofs.Results
import CycleChart.Proofs.Text.Utf8
import Mathlib.Data.List.Basic

namespace CycleChart

namespace Text

theorem eq_map_of_map_shown {parts : List Piece} {cs : List Char} (h : parts.map Piece.shown = cs)
    (plain : '\ufffd' ∉ cs) : parts = cs.map .char := by
  induction parts generalizing cs with
  | nil =>
    subst h
    rfl
  | cons part parts ih =>
    subst h
    rw [List.map_cons, List.mem_cons, not_or] at plain
    rw [List.map_cons, List.map_cons, ← ih rfl plain.2]
    cases part with
    | broken bytes => exact absurd rfl plain.1
    | char c => rfl

/-- Bytes that read as a text without a replacement character are those of the text. -/
theorem eq_flatMap_of_readable {s : List UInt8} {text : String} (h : readable s = text)
    (plain : '\ufffd' ∉ text.toList) : s = text.toList.flatMap String.utf8EncodeChar := by
  subst h
  rw [readable, String.toList_ofList] at plain ⊢
  have parts := eq_map_of_map_shown rfl plain
  have bytes := flatMap_pieces s
  rw [parts, List.flatMap_map] at bytes
  exact bytes.symm

theorem pieces_ne_nil (b : UInt8) (s : List UInt8) : pieces (b :: s) ≠ [] := by
  intro none
  have bytes := flatMap_pieces (b :: s)
  rw [none] at bytes
  cases bytes

end Text

namespace Command

/-- The arguments that ask for quiet. -/
def quietSpellings : List (List UInt8) := [(Path.ofString "-q").bytes, (Path.ofString "--quiet").bytes]

/-- Arguments that ask for the same, but not for quiet. -/
def withoutQuiet (arguments : List (List UInt8)) : List (List UInt8) := arguments.filter (· ∉ quietSpellings)

/-- Two dashes alone. Nothing may follow them. -/
def stop : List UInt8 := [0x2D, 0x2D]

namespace Given

variable {g g' settled : Given}

/-- The same settings, quiet or not. -/
def asQuiet (g : Given) (quiet : Bool) : Given := { g with quiet }

theorem assign_eq_ok {s : Setting} {value : List UInt8} (h : g.assign s value = .ok g') : g' = g.set ⟨value⟩ s := by
  rw [assign] at h
  split at h
  · cases h
  · split at h
    · cases h
    · exact (Except.ok.inj h).symm

theorem set_waiting (g : Given) (p : Path) (s : Setting) : (g.set p s).waiting = g.waiting := by
  cases s <;> rfl

theorem set_quiet (g : Given) (p : Path) (s : Setting) : (g.set p s).quiet = g.quiet := by
  cases s <;> rfl

theorem set_asQuiet (g : Given) (p : Path) (s : Setting) (quiet : Bool) :
    (g.asQuiet quiet).set p s = (g.set p s).asQuiet quiet := by
  cases s <;> rfl

theorem assign_asQuiet (g : Given) (s : Setting) (value : List UInt8) (quiet : Bool) :
    (g.asQuiet quiet).assign s value = (g.assign s value).map (·.asQuiet quiet) := by
  have same : (g.asQuiet quiet).get? s = g.get? s := by cases s <;> rfl
  rw [assign, assign, same, set_asQuiet]
  split
  · rfl
  · split <;> rfl

theorem settle_asQuiet (g : Given) (quiet : Bool) :
    (g.asQuiet quiet).settle = g.settle.map (·.asQuiet quiet) := by
  rcases g with ⟨q, r, c, waiting⟩
  rcases waiting with _ | ⟨s, _ | value⟩
  · rfl
  · rfl
  · exact assign_asQuiet ⟨q, r, c, .none⟩ s value quiet

theorem settle_waiting (h : g.settle = .ok settled) : settled.waiting = .none ∧ settled.quiet = g.quiet := by
  rcases g with ⟨q, r, c, waiting⟩
  rcases waiting with _ | ⟨s, _ | value⟩
  · cases h
    exact ⟨rfl, rfl⟩
  · cases h
  · rw [assign_eq_ok h, set_waiting, set_quiet]
    exact ⟨rfl, rfl⟩

theorem settle_settled (h : g.settle = .ok settled) : settled.settle = .ok settled := by
  rw [settle, (settle_waiting h).1]

/-! One argument after another. -/

/-- What an argument makes of the settings before it, unless it is two dashes alone. -/
def take (g : Given) (argument : List UInt8) : Except Refusal (Option Given) :=
  match argument with
  | 0x2D :: 0x2D :: body => g.takeLong body
  | 0x2D :: b :: body => g.takeLetters (Text.pieces (b :: body))
  | value =>
    match g.waiting with
    | some (s, .none) => .ok (some { g with waiting := some (s, some value) })
    | _ => .error (.unknown (Text.readable value))

theorem raise_eq_ok {f : Flag} (h : g.raise f = .ok (some g')) :
    f = .quiet ∧ ∃ settled, g.settle = .ok settled ∧ settled.quiet = false ∧ g' = settled.asQuiet true := by
  obtain ⟨settled, known, h⟩ := bind_eq_ok h
  cases f with
  | help => cases h
  | quiet =>
    dsimp only at h
    split at h
    · cases h
    · rename_i loud
      cases h
      exact ⟨rfl, settled, known, Bool.eq_false_iff.2 loud, rfl⟩

theorem raise_settled (h : g.settle = .ok settled) (f : Flag) : settled.raise f = g.raise f := by
  rw [raise, raise, settle_settled h, h]

theorem eq_quiet_of_named {s : String} (h : Flag.named? s = some .quiet) : s = "quiet" := by
  have named := List.find?_some h
  exact (of_decide_eq_true named).symm

/-- A name and no value after two dashes is all there is. -/
theorem takeWhile_of_tail? {body : List UInt8} {p : UInt8 → Bool} (h : (body.dropWhile p).tail? = .none) :
    body.takeWhile p = body := by
  have split := List.takeWhile_append_dropWhile (p := p) (l := body)
  cases rest : body.dropWhile p with
  | nil => rwa [rest, List.append_nil] at split
  | cons b rest' =>
    rw [rest] at h
    cases h

/-- Two dashes and a name set quiet, or they take no notice of it. -/
theorem takeLong_cases {body : List UInt8} (h : g.takeLong body = .ok (some g')) :
    (body = (Path.ofString "quiet").bytes ∧ g.raise .quiet = .ok (some g')) ∨
      g'.quiet = g.quiet ∧ ∀ quiet, (g.asQuiet quiet).takeLong body = .ok (some (g'.asQuiet quiet)) := by
  simp only [takeLong] at h ⊢
  split at h
  · cases h
  · rename_i f _ flag alone
    obtain ⟨rfl, -⟩ := raise_eq_ok h
    rw [takeWhile_of_tail? alone] at flag
    exact .inl ⟨Text.eq_flatMap_of_readable (eq_quiet_of_named flag) (by decide), h⟩
  · rename_i s value unflagged named given
    obtain ⟨settled, known, h⟩ := bind_eq_ok h
    obtain ⟨g'', assigned, h⟩ := bind_eq_ok h
    cases h
    right
    refine ⟨?_, fun quiet => ?_⟩
    · rw [assign_eq_ok assigned, set_quiet, (settle_waiting known).2]
    · rw [settle_asQuiet, known]
      show (settled.asQuiet quiet).assign s value >>= _ = _
      rw [assign_asQuiet, assigned]
      rfl
  · rename_i s unflagged named given
    obtain ⟨settled, known, h⟩ := bind_eq_ok h
    cases h
    right
    refine ⟨(settle_waiting known).2, fun quiet => ?_⟩
    rw [settle_asQuiet, known]
    rfl
  · cases h

/-- Quiet is not set twice. -/
theorem raise_raised (h : g.raise .quiet = .ok (some g')) (g'' : Given) : g'.raise .quiet ≠ .ok (some g'') := by
  intro again
  obtain ⟨-, settled, known, -, rfl⟩ := raise_eq_ok h
  obtain ⟨-, same, known', loud, -⟩ := raise_eq_ok again
  rw [settle_asQuiet, settle_settled known] at known'
  cases known'
  cases loud

theorem eq_letter_of_lettered {c : Char} (h : Flag.lettered? c = some .quiet) : c = 'q' := by
  have lettered := List.find?_some h
  exact (of_decide_eq_true lettered).symm

/-- Letters after a dash set quiet once, or there are none. -/
theorem takeLetters_cases {parts : List Text.Piece} (h : g.takeLetters parts = .ok (some g')) :
    parts = [] ∨ parts = [.char 'q'] ∧ g.raise .quiet = .ok (some g') := by
  induction parts generalizing g with
  | nil => exact .inl rfl
  | cons part parts ih =>
    cases part with
    | broken bytes => cases h
    | char c =>
      rw [takeLetters] at h
      cases lettered : Flag.lettered? c with
      | none =>
        rw [lettered] at h
        cases h
      | some f =>
        rw [lettered] at h
        obtain ⟨next, raised, left⟩ := bind_eq_ok h
        cases next with
        | none => cases left
        | some next =>
          obtain ⟨rfl, -⟩ := raise_eq_ok raised
          rw [eq_letter_of_lettered lettered]
          rcases ih left with rfl | ⟨-, again⟩
          · cases left
            exact .inr ⟨rfl, raised⟩
          · exact absurd again (raise_raised raised g')

theorem takeLetters_settled {parts : List Text.Piece} (some : parts ≠ []) (h : g.settle = .ok settled) :
    settled.takeLetters parts = g.takeLetters parts := by
  cases parts with
  | nil => exact absurd rfl some
  | cons part parts =>
    cases part with
    | broken bytes => rfl
    | char c =>
      rw [takeLetters, takeLetters]
      cases Flag.lettered? c with
      | none => rfl
      | some f =>
        dsimp only
        rw [raise_settled h]

theorem takeLong_settled (body : List UInt8) (h : g.settle = .ok settled) :
    settled.takeLong body = g.takeLong body := by
  simp only [takeLong, raise_settled h, settle_settled h, h]

theorem take_quiet {argument : List UInt8} (asks : argument ∈ quietSpellings) (g : Given) :
    g.take argument = g.raise .quiet := by
  rw [quietSpellings, List.mem_pair] at asks
  rcases asks with rfl | rfl
  · have letter : Text.pieces [0x71] = [.char 'q'] := by decide +kernel
    show g.takeLetters (Text.pieces [0x71]) = _
    rw [letter]
    show (g.raise .quiet >>= fun next => _) = _
    rcases g.raise .quiet with refusal | _ | g' <;> rfl
  · have named : Flag.named? (Text.readable (Path.ofString "quiet").bytes) = some .quiet := by decide +kernel
    show g.takeLong (Path.ofString "quiet").bytes = _
    have whole : (Path.ofString "quiet").bytes.takeWhile (· ≠ 0x3D) = (Path.ofString "quiet").bytes := by decide +kernel
    have none : ((Path.ofString "quiet").bytes.dropWhile (· ≠ 0x3D)).tail? = .none := by decide +kernel
    simp only [takeLong]
    rw [whole, none, named]

theorem take_plain {argument : List UInt8} (plain : argument ∉ quietSpellings) (h : g.take argument = .ok (some g')) :
    g'.quiet = g.quiet ∧ ∀ quiet, (g.asQuiet quiet).take argument = .ok (some (g'.asQuiet quiet)) := by
  simp only [take] at h ⊢
  split at h
  · rename_i body
    rcases takeLong_cases h with ⟨rfl, -⟩ | unaware
    · exact absurd (by decide) plain
    · exact unaware
  · rename_i b body _
    rcases takeLetters_cases h with none | ⟨letter, -⟩
    · exact absurd none (Text.pieces_ne_nil b body)
    · have bytes := Text.flatMap_pieces (b :: body)
      rw [letter] at bytes
      rw [← bytes] at plain
      exact absurd (by decide) plain
  · split at h
    · rename_i s waiting
      cases h
      refine ⟨rfl, fun quiet => ?_⟩
      simp [asQuiet, waiting]
    · cases h

theorem take_settled {argument : List UInt8} (known : g.settle = .ok settled)
    (h : settled.take argument = .ok (some g')) : g.take argument = .ok (some g') := by
  simp only [take] at h ⊢
  split at h
  · rwa [takeLong_settled _ known] at h
  · rwa [takeLetters_settled (Text.pieces_ne_nil _ _) known] at h
  · rw [(settle_waiting known).1] at h
    cases h

end Given

/-! Whole argument lists. -/

section

open Given

variable {arguments rest : List (List UInt8)} {argument : List UInt8} {g settled : Given} {quiet : Bool}
  {reports charts : Option Path}

theorem readArguments_nil (g : Given) :
    readArguments [] g = g.settle.map fun g => .charts g.quiet g.reports g.charts := by
  rw [readArguments]
  cases g.settle <;> rfl

theorem readArguments_stop (g : Given) : readArguments [stop] g = readArguments [] g := rfl

theorem readArguments_cons (h : argument ≠ stop) (rest : List (List UInt8)) (g : Given) :
    readArguments (argument :: rest) g =
      match g.take argument with
      | .error refusal => .error refusal
      | .ok .none => .ok .help
      | .ok (some g) => readArguments rest g := by
  rw [readArguments.eq_def]
  dsimp only
  split
  · exact absurd rfl h
  · exact absurd rfl h
  · rfl
  · rename_i b body other _ _
    have taken : g.take (0x2D :: b :: body) = g.takeLetters (Text.pieces (b :: body)) := by
      rw [take]
      exact other
    exact taken ▸ rfl
  · rename_i double single _ _
    have taken : g.take argument =
        match g.waiting with
        | some (s, .none) => .ok (some { g with waiting := some (s, some argument) })
        | _ => .error (.unknown (Text.readable argument)) := by
      rw [take]
      · exact double
      · exact single
    rw [taken]
    rcases g.waiting with _ | ⟨s, _ | value⟩ <;> rfl

theorem eq_nil_of_stop (h : readArguments (stop :: rest) g = .ok (.charts quiet reports charts)) : rest = [] := by
  cases rest with
  | nil => rfl
  | cons other rest => cases h

/-- The argument that is read first, and what is left to be read. -/
theorem exists_of_cons (other : argument ≠ stop)
    (h : readArguments (argument :: rest) g = .ok (.charts quiet reports charts)) :
    ∃ g', g.take argument = .ok (some g') ∧ readArguments rest g' = .ok (.charts quiet reports charts) := by
  rw [readArguments_cons other] at h
  split at h
  · cases h
  · cases h
  · exact ⟨_, ‹_›, h⟩

/-- A value that is still to be taken may be taken at once. -/
theorem readArguments_of_settled (known : g.settle = .ok settled)
    (h : readArguments arguments settled = .ok (.charts quiet reports charts)) :
    readArguments arguments g = .ok (.charts quiet reports charts) := by
  have none : readArguments [] settled = readArguments [] g := by
    rw [readArguments_nil, readArguments_nil, Given.settle_settled known, known]
  cases arguments with
  | nil => rwa [none] at h
  | cons argument rest =>
    by_cases last : argument = stop
    · subst last
      obtain rfl := eq_nil_of_stop h
      rwa [readArguments_stop, none, ← readArguments_stop] at h
    · obtain ⟨g', taken, h⟩ := exists_of_cons last h
      rw [readArguments_cons last, take_settled known taken]
      exact h

theorem charts_of_nil (h : readArguments [] g = .ok (.charts quiet reports charts)) :
    quiet = g.quiet ∧ ∀ q, readArguments [] (g.asQuiet q) = .ok (.charts q reports charts) := by
  rw [readArguments_nil] at h
  cases known : g.settle with
  | error refusal =>
    rw [known] at h
    cases h
  | ok settled =>
    rw [known] at h
    cases h
    refine ⟨(settle_waiting known).2, fun q => ?_⟩
    rw [readArguments_nil, settle_asQuiet, known]
    rfl

/-- Accepted arguments ask for quiet just if one of them does. Without such ones they are accepted as well, whatever was
said of quiet before. -/
theorem charts_of_readArguments (h : readArguments arguments g = .ok (.charts quiet reports charts)) :
    quiet = (g.quiet || arguments.any (· ∈ quietSpellings)) ∧
      ∀ q, readArguments (withoutQuiet arguments) (g.asQuiet q) = .ok (.charts q reports charts) := by
  induction arguments generalizing g with
  | nil =>
    rw [List.any_nil, Bool.or_false]
    exact charts_of_nil h
  | cons argument rest ih =>
    rw [List.any_cons]
    by_cases last : argument = stop
    · subst last
      obtain rfl := eq_nil_of_stop h
      have kept : withoutQuiet [stop] = [stop] := by decide
      rw [List.any_nil, decide_eq_false (by decide), Bool.or_false, Bool.or_false, kept]
      exact charts_of_nil h
    · obtain ⟨g', taken, h⟩ := exists_of_cons last h
      obtain ⟨asked, bare⟩ := ih h
      by_cases asks : argument ∈ quietSpellings
      · have dropped : withoutQuiet (argument :: rest) = withoutQuiet rest :=
          List.filter_cons_of_neg (by simpa using asks)
        rw [take_quiet asks] at taken
        obtain ⟨-, settled, known, -, rfl⟩ := raise_eq_ok taken
        rw [asked, decide_eq_true asks, dropped]
        refine ⟨by simp [asQuiet], fun q => ?_⟩
        have known' : (g.asQuiet q).settle = .ok (settled.asQuiet q) := by
          rw [settle_asQuiet, known]
          rfl
        exact readArguments_of_settled known' (bare q)
      · have kept : withoutQuiet (argument :: rest) = argument :: withoutQuiet rest :=
          List.filter_cons_of_pos (by simpa using asks)
        obtain ⟨same, unaware⟩ := take_plain asks taken
        rw [asked, decide_eq_false asks, Bool.false_or, same, kept]
        refine ⟨rfl, fun q => ?_⟩
        rw [readArguments_cons last, unaware q]
        exact bare q

/-- Accepted arguments may ask for quiet first of all, or not at all. -/
theorem ofArguments_withoutQuiet (h : Request.ofArguments arguments = .ok (.charts quiet reports charts)) :
    quiet = arguments.any (· ∈ quietSpellings) ∧
      Request.ofArguments (withoutQuiet arguments) = .ok (.charts false reports charts) ∧
      ∀ flag ∈ quietSpellings,
        Request.ofArguments (flag :: withoutQuiet arguments) = .ok (.charts true reports charts) := by
  obtain ⟨asked, bare⟩ := charts_of_readArguments h
  refine ⟨asked, bare false, fun flag asks => ?_⟩
  have other : flag ≠ stop := by
    rintro rfl
    exact absurd asks (by decide)
  rw [Request.ofArguments, readArguments_cons other, take_quiet asks]
  exact bare true

end
end Command
end CycleChart
