import CycleChart.Proofs.Json.Passing
import CycleChart.Report.Parse

namespace CycleChart.Json

open Reading

/-! Whatever is read can be passed over. -/

theorem skipString_of_readEscape {s r : List Char} {c : Char} (h : readEscape s = .ok (c, r)) :
    skipString ('\\' :: s) = skipString r := by
  have one {t u : List Char} (escaped : skipEscape t = .ok u) : skipString ('\\' :: t) = skipString u := by
    rw [skipString, if_neg (by decide), if_pos rfl]
    split <;> simp_all
  have number {t u : List Char} {n : Nat} (hex : readHex t = .ok (n, u)) :
      skipString ('\\' :: 'u' :: t) = skipString u := by
    apply one
    rw [skipEscape, if_pos rfl, hex]
    rfl
  cases s with
  | nil => cases h
  | cons d s =>
    rw [readEscape] at h
    split at h
    · rename_i numbered
      rw [numbered]
      rw [readNumbered] at h
      split at h
      · cases h
      · rename_i n t hex
        rw [number hex]
        split at h
        · cases h
        · split at h
          · -- the second half of a pair is one more escape
            unfold readTrail at h
            split at h
            · cases h
            · cases h
            · split at h
              · cases h
              · rename_i second
                split at h
                · rw [Except.ok.injEq, Prod.mk.injEq] at h
                  rw [← h.2]
                  exact number second
                · cases h
            all_goals cases h
          · cases h
            rfl
    · rename_i plain
      split at h
      · rename_i found
        cases h
        apply one
        rw [skipEscape, if_neg plain, found]
        rfl
      · cases h

theorem skipString_of_readString {front s r : List Char} {text : String} (h : readString front s = .ok (text, r)) :
    skipString s = .ok r := by
  fun_induction readString front s with
  | case1 => cases h
  | case2 front s =>
    cases h
    rw [skipString, if_pos rfl]
  | case3 => cases h
  | case4 front s c t escape _ ih => rw [skipString_of_readEscape escape, ih h]
  | case5 => cases h
  | case6 front c s noQuote noEscape printed ih =>
    rw [skipString, if_neg noQuote, if_neg noEscape, if_neg printed]
    exact ih h

theorem skipExponent_of_readExponent {positive : Bool} {significand : Nat} {start : Int} {s r : List Char} {n : Number}
    (h : readExponent positive significand start s = .ok (n, r)) : skipExponent s = .ok r := by
  unfold readExponent at h
  unfold skipExponent
  dsimp only at h ⊢
  split at h
  · split at h <;> cases h
  · rename_i some
    rw [if_neg some]
    split at h
    · rw [length_decimalAt h]
    · split at h
      · cases h
      · cases h
        rfl

theorem skipFraction_of_digits {s : List Char} (some : (takeDigits s).1 ≠ []) :
    skipFraction s =
      match (takeDigits s).2 with
      | 'e' :: t => skipExponent t
      | 'E' :: t => skipExponent t
      | t => .ok t := by
  unfold skipFraction
  exact if_neg some

theorem skipFraction_of_readFraction {positive : Bool} {significand extra : Nat} {s r : List Char} {n : Number}
    (h : readFraction positive significand extra s = .ok (n, r)) : skipFraction s = .ok r := by
  unfold readFraction at h
  dsimp only at h
  split at h
  · split at h <;> cases h
  · rename_i some
    split at h
    · rename_i rest
      rw [skipFraction_of_digits some, rest]
      exact skipExponent_of_readExponent h
    · rename_i rest
      rw [skipFraction_of_digits some, rest]
      exact skipExponent_of_readExponent h
    · rename_i noLower noUpper
      rw [skipFraction_of_digits some]
      split
      · exact absurd ‹_› (noLower _)
      · exact absurd ‹_› (noUpper _)
      · rw [length_decimalAt h]

theorem skipNumber_of_digits {s : List Char} (some : (takeDigits s).1 ≠ [])
    (noZero : ∀ c more, (takeDigits s).1 ≠ '0' :: c :: more) :
    skipNumber s =
      match (takeDigits s).2 with
      | '.' :: t => skipFraction t
      | 'e' :: t => skipExponent t
      | 'E' :: t => skipExponent t
      | t => .ok t := by
  unfold skipNumber
  dsimp only
  split
  · exact absurd ‹_› some
  · exact absurd ‹_› (noZero _ _)
  · rfl

theorem skipNumber_of_readNumber {positive : Bool} {s r : List Char} {n : Number}
    (h : readNumber positive s = .ok (n, r)) : skipNumber s = .ok r := by
  unfold readNumber at h
  dsimp only at h
  split at h
  · split at h <;> cases h
  · cases h
  · rename_i some noZero
    split at h
    · rename_i rest
      rw [skipNumber_of_digits some noZero, rest]
      exact skipFraction_of_readFraction h
    · rename_i rest
      rw [skipNumber_of_digits some noZero, rest]
      exact skipExponent_of_readExponent h
    · rename_i rest
      rw [skipNumber_of_digits some noZero, rest]
      exact skipExponent_of_readExponent h
    · rename_i noPoint noLower noUpper
      rw [skipNumber_of_digits some noZero]
      split
      · exact absurd ‹_› (noPoint _)
      · exact absurd ‹_› (noLower _)
      · exact absurd ‹_› (noUpper _)
      · split at h
        · cases h
          rfl
        · rw [length_decimalAt h]

/-! Passing over inside more brackets. -/

theorem skip_opened_item {b : Bracket} {around : List Bracket} {c : Char} {s t r : List Char}
    (spaced : skipSpace s = c :: t) (other : c ≠ b.closing) (named : skipName b (c :: t) = .ok r) :
    skip (.opened b) around s = skip .value (b :: around) r := by
  conv => lhs; rw [skip]
  split
  · simp_all
  · rename_i eq
    rw [spaced] at eq
    cases eq
    rw [if_neg other]
    split <;> simp_all

theorem begins_of_skipScalar {c : Char} {t r : List Char} (h : skipScalar (c :: t) = .ok r) : Begins c := by
  obtain ⟨v, p, value, eq⟩ := exists_of_skipScalar h
  obtain ⟨d, u, rfl, begins⟩ := begins_of_forms value
  cases eq
  exact begins

/-- What ends inside some brackets goes on behind them in the brackets around these. -/
theorem skip_append {stage : Stage} {around : List Bracket} {s r : List Char} (h : skip stage around s = .ok r)
    (more : List Bracket) : skip stage (around ++ more) s = skip .closed more r := by
  fun_induction skip stage around s with
  | case1 => cases h
  | case2 around s t spaced ih =>
    rw [← skip_value_skipSpace, spaced, skip_list]
    exact ih h
  | case3 around s t spaced _ ih =>
    rw [← skip_value_skipSpace, spaced, skip_object]
    exact ih h
  | case4 => cases h
  | case5 around s c t spaced list object rest scalar ih =>
    rw [← skip_value_skipSpace, spaced, skip_value_scalar _ (begins_of_skipScalar scalar) list object scalar]
    exact ih h
  | case6 => cases h
  | case7 around s b t spaced ih =>
    obtain ⟨a, spaces, eq⟩ := exists_spaces s
    rw [eq, spaced, skip_opened_closing b _ spaces]
    exact ih h
  | case8 => cases h
  | case9 around s b c t spaced other rest name ih =>
    rw [skip_opened_item spaced other name]
    exact ih h
  | case10 =>
    cases h
    rfl
  | case11 => cases h
  | case12 => cases h
  | case13 s b around t rest name spaced ih =>
    rw [List.cons_append, ← skip_closed_skipSpace, spaced, skip_closed_comma name]
    exact ih h
  | case14 s b around t spaced _ ih =>
    rw [List.cons_append, ← skip_closed_skipSpace, spaced, skip_closed_closing]
    exact ih h
  | case15 => cases h

/-- Passing over inside a bracket, in front of its first item or behind another one. -/
def skipInside (b : Bracket) (first : Bool) (around : List Bracket) (s : List Char) : Except Halt (List Char) :=
  if first then skip (.opened b) around s else skip .closed (b :: around) s

theorem skipInside_closing {b : Bracket} {s t : List Char} (spaced : skipSpace s = b.closing :: t) (first : Bool)
    (around : List Bracket) : skipInside b first around s = skip .closed around t := by
  cases first with
  | true =>
    obtain ⟨a, spaces, eq⟩ := exists_spaces s
    rw [skipInside, if_pos rfl, eq, spaced, skip_opened_closing b around spaces]
  | false =>
    rw [skipInside, if_neg (by decide), ← skip_closed_skipSpace, spaced, skip_closed_closing]

theorem skipInside_comma {b : Bracket} {s t r : List Char} (spaced : skipSpace s = ',' :: t)
    (named : skipName b t = .ok r) (around : List Bracket) :
    skipInside b false around s = skip .value (b :: around) r := by
  rw [skipInside, if_neg (by decide), ← skip_closed_skipSpace, spaced, skip_closed_comma named]

/-! Names. -/

theorem skipInside_of_readName_none {first : Bool} {s r : List Char} (h : readName first s = .ok (none, r))
    (around : List Bracket) : skipInside .object first around s = skip .closed around r := by
  unfold readName at h
  dsimp only at h
  split at h
  · cases h
  · rename_i c t spaced
    split at h
    · rename_i closing
      cases h
      rw [closing] at spaced
      exact skipInside_closing spaced first around
    · exfalso
      split at h
      · split at h
        · split at h <;> cases h
        · cases h
      · split at h
        · split at h
          · cases h
          · split at h
            · split at h <;> cases h
            · split at h <;> cases h
        · cases h

theorem skipName_of_readString {s t r u : List Char} {name : String} (spaced : skipSpace s = '"' :: t)
    (text : readString [] t = .ok (name, r)) (colon : readColon r = .ok u) : skipName .object s = .ok u := by
  rw [skipName, spaced]
  dsimp only
  rw [if_pos rfl, skipString_of_readString text]
  exact colon

theorem skipInside_of_readName {first : Bool} {s r t : List Char} {name : String}
    (h : readName first s = .ok (some name, r)) (colon : readColon r = .ok t) (around : List Bracket) :
    skipInside .object first around s = skip .value (.object :: around) t := by
  unfold readName at h
  dsimp only at h
  split at h
  · cases h
  · rename_i c u spaced
    split at h
    · cases h
    · split at h
      · rename_i isFirst
        split at h
        · rename_i quote
          split at h
          · cases h
          · rename_i text
            cases h
            rw [quote] at spaced
            rw [isFirst, skipInside, if_pos rfl]
            exact skip_opened_name spaced (.inl (by decide)) (skipName_of_readString spaced text colon)
        · cases h
      · rename_i later
        rw [Bool.not_eq_true] at later
        split at h
        · rename_i comma
          rw [comma] at spaced
          split at h
          · cases h
          · rename_i d w inner
            split at h
            · rename_i quote
              split at h
              · cases h
              · rename_i text
                cases h
                rw [quote] at inner
                rw [later]
                exact skipInside_comma spaced (skipName_of_readString inner text colon) around
            · split at h <;> cases h
        · cases h

/-! Values. -/

theorem skipNumber_of_countOf {positive : Bool} {s r : List Char} {n : UInt64} (h : countOf positive s = .ok (n, r)) :
    skipNumber s = .ok r := by
  unfold countOf at h
  split at h
  · cases h
  · rename_i number
    cases h
    exact skipNumber_of_readNumber number
  · cases h
  · cases h

theorem skip_of_readCount {s r : List Char} {n : UInt64} (h : readCount s = .ok (n, r)) (around : List Bracket) :
    skip .value around s = skip .closed around r := by
  rw [← skip_value_skipSpace]
  unfold readCount at h
  split at h
  · cases h
  · rename_i c t spaced
    rw [spaced]
    split at h
    · rename_i minus
      rw [minus]
      exact skip_value_scalar around (.inl (by decide)) (by decide) (by decide) (skipNumber_of_countOf h)
    · rename_i unsigned
      split at h
      · rename_i digit
        apply skip_value_scalar around (.inr digit) (ne_of_isDigit digit) (ne_of_isDigit digit)
        have apart : c ≠ 'n' ∧ c ≠ 't' ∧ c ≠ 'f' ∧ c ≠ '"' :=
          ⟨ne_of_isDigit digit, ne_of_isDigit digit, ne_of_isDigit digit, ne_of_isDigit digit⟩
        simpa [skipScalar, apart, unsigned, digit] using skipNumber_of_countOf h
      · cases h

theorem skip_of_readEntries {first : Bool} {counts result : LabelCounts} {s r : List Char}
    (h : readEntries first counts s = .ok (result, r)) (around : List Bracket) :
    skipInside .object first around s = skip .closed around r := by
  fun_induction readEntries first counts s with
  | case1 => cases h
  | case2 first counts s rest named =>
    cases h
    exact skipInside_of_readName_none named around
  | case3 => cases h
  | case4 => cases h
  | case5 first counts s label rest named t colon n u counted ih =>
    rw [skipInside_of_readName named colon around, skip_of_readCount counted]
    exact ih h

theorem skip_of_readCounts {s r : List Char} {counts : LabelCounts} (h : readCounts s = .ok (counts, r))
    (around : List Bracket) : skip .value around s = skip .closed around r := by
  rw [← skip_value_skipSpace]
  unfold readCounts at h
  split at h
  · cases h
  · rename_i c t spaced
    rw [spaced]
    split at h
    · rename_i object
      rw [object, skip_object]
      exact skip_of_readEntries h around
    · cases h

theorem skip_of_readOptional {α : Type} {read : List Char → Except Halt (α × List Char)} {around : List Bracket}
    (reads : ∀ {s r a}, read s = .ok (a, r) → skip .value around s = skip .closed around r) {s r : List Char}
    {a : Option α} (h : readOptional read s = .ok (a, r)) : skip .value around s = skip .closed around r := by
  rw [← skip_value_skipSpace]
  unfold readOptional at h
  split at h
  · rename_i t spaced
    rw [spaced]
    cases word : readWord ['u', 'l', 'l'] t with
    | error =>
      rw [word] at h
      cases h
    | ok u =>
      rw [word] at h
      cases h
      exact skip_value_scalar around (.inl (by decide)) (by decide) (by decide) word
  · cases value : read (skipSpace s) with
    | error =>
      rw [value] at h
      cases h
    | ok p =>
      obtain ⟨b, u⟩ := p
      rw [value] at h
      cases h
      exact reads value

theorem skip_of_readMember {m : Member} {d next : Draft} {s r : List Char} (h : readMember m d s = .ok (next, r))
    (around : List Bracket) : skip .value around s = skip .closed around r := by
  unfold readMember at h
  split at h
  · split at h
    · cases h
    · rename_i value
      cases h
      exact skip_of_readOptional (fun counted => skip_of_readCounts counted around) value
  · split at h
    · cases h
    · rename_i value
      cases h
      exact skip_of_readOptional (fun counted => skip_of_readCount counted around) value

/-! Reports. -/

theorem skip_of_readMembers {first : Bool} {d last : Draft} {s r : List Char}
    (h : readMembers first d s = .ok (last, r)) (around : List Bracket) :
    skipInside .object first around s = skip .closed around r := by
  fun_induction readMembers first d s with
  | case1 => cases h
  | case2 first d s rest named =>
    cases h
    exact skipInside_of_readName_none named around
  | case3 => cases h
  | case4 => cases h
  | case5 first d s name rest named unknown t colon u skipped ih =>
    rw [skipInside_of_readName named colon around]
    -- the unknown value was passed over on its own, and stands inside the object here
    exact (skip_append skipped (.object :: around)).trans (ih h)
  | case6 => cases h
  | case7 => cases h
  | case8 => cases h
  | case9 first d s name rest named m known new t colon next u member ih =>
    rw [skipInside_of_readName named colon around, skip_of_readMember member]
    exact ih h

theorem skip_of_readListEnd {s r : List Char} (h : readListEnd s = .ok r) (around : List Bracket) :
    skip .closed (.list :: around) s = skip .closed around r := by
  unfold readListEnd at h
  split at h
  · cases h
  · rename_i c t spaced
    split at h
    · rename_i closing
      cases h
      rw [closing] at spaced
      exact skipInside_closing spaced false around
    · split at h
      · split at h <;> cases h
      · cases h

theorem skip_of_readElements {seen : Nat} {members : List Member} {d last : Draft} {s r : List Char}
    (h : readElements seen members d s = .ok (last, r)) (some : members ≠ [] ∨ seen ≠ 0) (around : List Bracket) :
    skipInside .list (seen = 0) around s = skip .closed around r := by
  induction members generalizing seen d s with
  | nil =>
    have later : seen ≠ 0 := some.resolve_left fun no => no rfl
    rw [readElements] at h
    cases ended : readListEnd s with
    | error =>
      rw [ended] at h
      cases h
    | ok u =>
      rw [ended] at h
      cases h
      rw [skipInside, if_neg (by simpa using later)]
      exact skip_of_readListEnd ended around
  | cons m members ih =>
    have element {t u : List Char} {next : Draft} (member : readMember m d t = .ok (next, u))
        (read : readElements (seen + 1) members next u = .ok (last, r)) :
        skip .value (.list :: around) t = skip .closed around r := by
      rw [skip_of_readMember member]
      exact ih read (.inr (Nat.succ_ne_zero seen))
    unfold readElements at h
    dsimp only at h
    split at h
    · cases h
    · rename_i c t spaced
      split at h
      · cases h
      · rename_i other
        split at h
        · rename_i isFirst
          rw [isFirst, skipInside, if_pos (by decide), skip_opened_item (b := .list) spaced other rfl]
          split at h
          · cases h
          · rename_i member
            exact element member h
        · rename_i later
          split at h
          · rename_i comma
            rw [comma] at spaced
            split at h
            · cases h
            · rename_i e u inner
              split at h
              · cases h
              · rw [decide_eq_false later, skipInside_comma spaced rfl around, ← skip_value_skipSpace, inner]
                split at h
                · cases h
                · rename_i member
                  exact element member h
          · cases h

/-- A text that is read as far as its end is passed over as far as its end. -/
theorem skipValue_of_readDraft {s : List Char} {d : Draft} (h : readDraft s = .ok d) :
    ∃ r, skipValue s = .ok r ∧ skipSpace r = [] := by
  unfold readDraft at h
  dsimp only at h
  split at h
  · cases h
  · rename_i last r body
    have passed : skipValue s = .ok r := by
      rw [skipValue, ← skip_value_skipSpace]
      split at body
      · cases body
      · rename_i c t spaced
        rw [spaced]
        split at body
        · rename_i object
          rw [object, skip_object]
          exact (skip_of_readMembers body []).trans (by rw [skip])
        · split at body
          · rename_i list
            rw [list, skip_list]
            exact (skip_of_readElements body (.inl (by decide)) []).trans (by rw [skip])
          · cases body
    refine ⟨r, passed, ?_⟩
    split at h
    · assumption
    · cases h

end CycleChart.Json

namespace CycleChart.Report

open Json Reading

/-- A text that is no JSON is refused as such, wherever it is broken. -/
theorem parse_of_malformed {text : String} (malformed : ∀ v, ¬IsTextOf text v) :
    ∃ reason position, parse text = .error (.parsing reason position) := by
  unfold parse
  split
  · exact ⟨_, _, rfl⟩
  · rename_i d read
    exfalso
    obtain ⟨v, formed⟩ := exists_isTextOf_iff.2 (skipValue_of_readDraft read)
    exact malformed v formed

/-- All that a report needs is here, and a comma is missing inside an unknown member. -/
def brokenInside : String :=
  "\x7b\"total_gas\":7,\"total_syscall_count\":0,\"cycle_tracker_results\":\x7b\"a\":5\x7d," ++
    "\"notes\":[\x7b\"b\":[1,[2 3]]\x7d],\"total_instruction_count\":1\x7d"

theorem parse_brokenInside :
    (∀ v, ¬IsTextOf brokenInside v) ∧ ∃ reason position, parse brokenInside = .error (.parsing reason position) := by
  have malformed : ∀ v, ¬IsTextOf brokenInside v := by
    intro v formed
    obtain ⟨r, passed, -⟩ := exists_isTextOf_iff.1 ⟨v, formed⟩
    have stopped : (skipValue brokenInside.toList).toOption = none := by decide +kernel
    rw [passed] at stopped
    cases stopped
  exact ⟨malformed, parse_of_malformed malformed⟩

end CycleChart.Report
