import CycleChart.Proofs.Json.Tokens

namespace CycleChart.Json

open Reading

theorem skipString_of_spells {ps : List Piece} {body : List Char} (h : Spells ps body) (rest : List Char) :
    skipString (body ++ '"' :: rest) = .ok rest := by
  induction h with
  | nil => simp [skipString]
  | raw printed plain _ ih =>
    rw [List.cons_append, skipString, if_neg plain.1, if_neg plain.2, if_neg (Nat.not_lt.2 printed)]
    exact ih
  | @escape e c ps s listed _ ih =>
    obtain ⟨plain, other⟩ := plainEscape?_of_mem listed
    have escaped : skipEscape (e :: (s ++ '"' :: rest)) = .ok (s ++ '"' :: rest) := by
      simp [skipEscape, other, plain]
    rw [List.cons_append, List.cons_append, skipString, if_neg (by decide), if_pos rfl]
    split
    · simp_all
    · simp_all
  | @numbered a b c d i j k l ps s digits _ ih =>
    have four := fourHex?_of_isHex digits
    have escaped : skipEscape ('u' :: a :: b :: c :: d :: (s ++ '"' :: rest)) = .ok (s ++ '"' :: rest) := by
      simp [skipEscape, readHex, four, Except.map]
    simp only [List.cons_append]
    rw [skipString, if_neg (by decide), if_pos rfl]
    split
    · simp_all
    · simp_all

theorem takeSign_append {sign digits : List Char} (signed : sign = [] ∨ sign = ['+'] ∨ sign = ['-'])
    (h : IsDigits digits) (rest : List Char) : (takeSign (sign ++ digits ++ rest)).2 = digits ++ rest := by
  rcases signed with rfl | rfl | rfl
  · obtain ⟨some, all⟩ := h
    cases digits with
    | nil => exact absurd rfl some
    | cons d ds =>
      have digit : d.isDigit := all d (by simp)
      have plus : d ≠ '+' := ne_of_isDigit digit
      have minus : d ≠ '-' := ne_of_isDigit digit
      simp [takeSign, plus, minus]
  · rfl
  · rfl

theorem skipExponent_append {n : Numeral} {letter : Char} {more rest : List Char} (eq : n.exponent = letter :: more)
    (stop : Stops rest) : skipExponent (more ++ rest) = .ok rest := by
  rcases n.isExponent with no | ⟨letter, sign, digits, form, -, signed, isDigits⟩
  · simp [no] at eq
  · obtain ⟨-, rfl⟩ : letter = _ ∧ sign ++ digits = more := by simpa [form] using eq
    have taken := takeDigits_append isDigits.2 fun c found => (stop c found).1
    simp only [skipExponent, takeSign_append signed isDigits, taken]
    rw [if_neg isDigits.1]

theorem skipFraction_append {n : Numeral} {digits rest : List Char} (eq : n.fraction = '.' :: digits)
    (stop : Stops rest) : skipFraction (digits ++ (n.exponent ++ rest)) = .ok rest := by
  rcases n.isFraction with no | ⟨_, form, some, all⟩
  · simp [no] at eq
  · obtain rfl : _ = digits := by simpa [form] using eq
    have taken := takeDigits_append all fun c found => (n.exponent_head stop c found).1
    simp only [skipFraction, taken]
    rw [if_neg some]
    rcases n.isExponent with none | ⟨letter, sign, digits, spelled, either, -⟩
    · rw [none, List.nil_append]
      split
      · exact absurd rfl (stop 'e' rfl).2.2.1
      · exact absurd rfl (stop 'E' rfl).2.2.2
      · rfl
    · have skipped := skipExponent_append spelled stop
      rw [spelled, List.cons_append]
      rcases either with rfl | rfl <;> exact skipped

theorem skipNumber_append (n : Numeral) {rest : List Char} (stop : Stops rest) :
    skipNumber (n.whole ++ (n.fraction ++ (n.exponent ++ rest))) = .ok rest := by
  simp only [skipNumber, n.takeDigits_whole stop]
  split
  · rename_i none
    exact absurd none n.isWhole.1.1
  · rename_i c more leading
    exact absurd leading (n.isWhole.not_leading c more)
  · rcases n.isFraction with no | ⟨digits, form, -⟩
    · rw [no, List.nil_append]
      rcases n.isExponent with none | ⟨letter, sign, digits, spelled, either, -⟩
      · rw [none, List.nil_append]
        split
        · exact absurd rfl (stop '.' rfl).2.1
        · exact absurd rfl (stop 'e' rfl).2.2.1
        · exact absurd rfl (stop 'E' rfl).2.2.2
        · rfl
      · have skipped := skipExponent_append spelled stop
        rw [spelled, List.cons_append]
        rcases either with rfl | rfl <;> exact skipped
    · rw [form]
      exact skipFraction_append form stop

theorem Numeral.text_cons (n : Numeral) : ∃ c t, n.text = c :: t ∧ (c = '-' ∨ c.isDigit) := by
  cases sign : n.negative with
  | true => exact ⟨'-', n.whole ++ n.fraction ++ n.exponent, by simp [text, sign], .inl rfl⟩
  | false =>
    obtain ⟨d, ds, whole, digit⟩ := n.whole_cons
    exact ⟨d, ds ++ n.fraction ++ n.exponent, by simp [text, sign, whole], .inr digit⟩

/-- Characters that a value begins with. -/
def Begins (c : Char) : Prop := c ∈ ['n', 't', 'f', '"', '-', '[', '\x7b'] ∨ c.isDigit

theorem begins_of_forms {v : Json} {s : List Char} (h : Forms (.value v) s) : ∃ c t, s = c :: t ∧ Begins c := by
  cases h with
  | number n =>
    obtain ⟨c, t, eq, rfl | digit⟩ := n.text_cons
    · exact ⟨'-', t, eq, .inl (by decide)⟩
    · exact ⟨c, t, eq, .inr digit⟩
  | _ => exact ⟨_, _, rfl, .inl (by decide)⟩

theorem not_isSpace_of_begins {c : Char} (h : Begins c) : ¬isSpace c := by
  have table : [' ', '\t', '\n', '\r'].all fun c => ¬(c ∈ ['n', 't', 'f', '"', '-', '[', '\x7b'] ∨ c.isDigit) := by
    decide
  intro space
  exact of_decide_eq_true (List.all_eq_true.1 table c ((isSpace_iff c).1 space)) h

theorem skipScalar_number (n : Numeral) {rest : List Char} (stop : Stops rest) :
    skipScalar (n.text ++ rest) = .ok rest := by
  have passed := skipNumber_append n stop
  cases sign : n.negative with
  | true =>
    simp only [Numeral.text, sign, if_true, List.append_assoc, List.cons_append, List.nil_append]
    exact passed
  | false =>
    obtain ⟨d, ds, whole, digit⟩ := n.whole_cons
    have apart : d ≠ 'n' ∧ d ≠ 't' ∧ d ≠ 'f' ∧ d ≠ '"' ∧ d ≠ '-' :=
      ⟨ne_of_isDigit digit, ne_of_isDigit digit, ne_of_isDigit digit, ne_of_isDigit digit, ne_of_isDigit digit⟩
    simp only [Numeral.text, sign, Bool.false_eq_true, if_false, List.append_assoc, List.nil_append]
    rw [whole] at passed ⊢
    simpa [skipScalar, apart, digit] using passed

theorem skip_value_skipSpace (around : List Bracket) (s : List Char) :
    skip .value around (skipSpace s) = skip .value around s := by
  rw [skip, skip, skipSpace_idem]

theorem skipName_skipSpace (s : List Char) : skipName .object (skipSpace s) = skipName .object s := by
  rw [skipName, skipName, skipSpace_idem]

/-- Between brackets, spaces after a value mean nothing. -/
theorem skip_closed_skipSpace (b : Bracket) (around : List Bracket) (s : List Char) :
    skip .closed (b :: around) (skipSpace s) = skip .closed (b :: around) s := by
  rw [skip, skip, skipSpace_idem]

theorem skip_value_scalar {c : Char} {t r : List Char} (around : List Bracket) (begins : Begins c)
    (list : c ≠ '[') (object : c ≠ '\x7b') (h : skipScalar (c :: t) = .ok r) :
    skip .value around (c :: t) = skip .closed around r := by
  have space : skipSpace (c :: t) = c :: t := skipSpace_of_not_isSpace (not_isSpace_of_begins begins)
  rw [skip]
  split
  · simp_all
  · rename_i spaced
    rw [space] at spaced
    cases spaced
    rw [if_neg list, if_neg object]
    split
    · simp_all
    · simp_all

theorem skip_list (around : List Bracket) (s : List Char) :
    skip .value around ('[' :: s) = skip (.opened .list) around s := by
  rw [skip]
  rfl

theorem skip_object (around : List Bracket) (s : List Char) :
    skip .value around ('\x7b' :: s) = skip (.opened .object) around s := by
  rw [skip]
  rfl

theorem skip_opened_closing (b : Bracket) (around : List Bracket) {a : List Char} (h : IsSpaces a) (s : List Char) :
    skip (.opened b) around (a ++ b.closing :: s) = skip .closed around s := by
  have spaced : skipSpace (a ++ b.closing :: s) = b.closing :: s := by
    rw [skipSpace_append h, skipSpace_of_not_isSpace (by cases b <;> decide)]
  rw [skip]
  split
  · simp_all
  · rename_i eq
    rw [spaced] at eq
    cases eq
    rw [if_pos rfl]

theorem Begins.ne_closing {c : Char} (h : Begins c) (b : Bracket) : c ≠ b.closing := by
  rintro rfl
  revert h
  cases b <;> simp only [Begins, Bracket.closing] <;> decide

theorem skip_opened_name {b : Bracket} {around : List Bracket} {c : Char} {s t r : List Char}
    (spaced : skipSpace s = c :: t) (begins : Begins c) (h : skipName b s = .ok r) :
    skip (.opened b) around s = skip .value (b :: around) r := by
  have inside : ∃ u, skipName b (c :: t) = .ok u ∧ skip .value (b :: around) u = skip .value (b :: around) r := by
    rw [← spaced]
    cases b with
    | list =>
      cases h
      exact ⟨_, rfl, skip_value_skipSpace _ s⟩
    | object => exact ⟨r, by rw [skipName_skipSpace, h], rfl⟩
  obtain ⟨u, named, same⟩ := inside
  rw [← same]
  conv => lhs; rw [skip]
  split
  · simp_all
  · rename_i eq
    rw [spaced] at eq
    cases eq
    rw [if_neg (begins.ne_closing b)]
    split <;> simp_all

theorem skip_closed_comma {b : Bracket} {around : List Bracket} {s r : List Char} (h : skipName b s = .ok r) :
    skip .closed (b :: around) (',' :: s) = skip .value (b :: around) r := by
  have spaced : skipSpace (',' :: s) = ',' :: s := skipSpace_of_not_isSpace (by decide)
  conv => lhs; rw [skip]
  split
  · simp_all
  · rename_i eq
    rw [spaced] at eq
    cases eq
    rw [if_pos rfl]
    split <;> simp_all

theorem skip_closed_closing (b : Bracket) (around : List Bracket) (s : List Char) :
    skip .closed (b :: around) (b.closing :: s) = skip .closed around s := by
  have spaced : skipSpace (b.closing :: s) = b.closing :: s := skipSpace_of_not_isSpace (by cases b <;> decide)
  conv => lhs; rw [skip]
  split
  · simp_all
  · rename_i eq
    rw [spaced] at eq
    cases eq
    rw [if_neg (by cases b <;> decide), if_pos rfl]

theorem first_of_spaced {v : Json} {s : List Char} (h : Forms (.spaced v) s) (rest : List Char) :
    ∃ c t, skipSpace (s ++ rest) = c :: t ∧ Begins c := by
  cases h with
  | @spaced v a s b before inside after =>
    obtain ⟨c, t, rfl, begins⟩ := begins_of_forms inside
    refine ⟨c, t ++ (b ++ rest), ?_, begins⟩
    rw [List.append_assoc, skipSpace_append before, List.append_assoc, List.cons_append]
    exact skipSpace_of_not_isSpace (not_isSpace_of_begins begins)

theorem readColon_spaces {b : List Char} (h : IsSpaces b) (s : List Char) : readColon (b ++ ':' :: s) = .ok s := by
  rw [readColon, skipSpace_append h, skipSpace_of_not_isSpace (by decide)]
  rfl

theorem skipSpace_member {a : List Char} (h : IsSpaces a) (name b s rest : List Char) :
    skipSpace (a ++ '"' :: (name ++ '"' :: (b ++ ':' :: s)) ++ rest) =
      '"' :: (name ++ '"' :: (b ++ ':' :: (s ++ rest))) := by
  rw [List.append_assoc, skipSpace_append h, List.cons_append, skipSpace_of_not_isSpace (by decide)]
  simp only [List.append_assoc, List.cons_append]

theorem first_of_member {k : List Piece} {v : Json} {s : List Char} (h : Forms (.member k v) s) (rest : List Char) :
    ∃ t, skipSpace (s ++ rest) = '"' :: t := by
  cases h with
  | member before spelled after value => exact ⟨_, skipSpace_member before _ _ _ rest⟩

theorem first_of_items {v : Json} {vs : List Json} {s : List Char} (h : Forms (.items (v :: vs)) s) (rest : List Char) :
    ∃ c t, skipSpace (s ++ rest) = c :: t ∧ Begins c := by
  cases h with
  | lastItem only => exact first_of_spaced only rest
  | nextItem first _ =>
    rw [List.append_assoc]
    exact first_of_spaced first _

theorem first_of_members {m : List Piece × Json} {ms : List (List Piece × Json)} {s : List Char}
    (h : Forms (.members (m :: ms)) s) (rest : List Char) : ∃ t, skipSpace (s ++ rest) = '"' :: t := by
  cases h with
  | lastMember only => exact first_of_member only rest
  | nextMember first _ =>
    rw [List.append_assoc]
    exact first_of_member first _

/-- Reading on behind a bracket passes over what stands inside it. -/
def Enters (b : Bracket) (s : List Char) : Prop :=
  ∀ around rest, ∃ r, skipName b (s ++ b.closing :: rest) = .ok r ∧
    skip .value (b :: around) r = skip .closed around rest

/-- What passing over a part means for what follows it. -/
def Skips : Part → List Char → Prop
  | .value _, s => ∀ around rest, Stops rest → skip .value around (s ++ rest) = skip .closed around rest
  | .spaced _, s => ∀ around rest, Stops rest →
    ∃ b, IsSpaces b ∧ skip .value around (s ++ rest) = skip .closed around (b ++ rest)
  | .member _ _, s => ∀ around rest, Stops rest → ∃ r b, skipName .object (s ++ rest) = .ok r ∧ IsSpaces b ∧
    skip .value around r = skip .closed around (b ++ rest)
  | .items [], s => IsSpaces s
  | .items (_ :: _), s => Enters .list s
  | .members [], s => IsSpaces s
  | .members (_ :: _), s => Enters .object s

theorem skip_closed_spaces {a : List Char} (h : IsSpaces a) (b : Bracket) (around : List Bracket) (s : List Char) :
    skip .closed (b :: around) (a ++ s) = skip .closed (b :: around) s := by
  rw [← skip_closed_skipSpace, skipSpace_append h, skip_closed_skipSpace]

/-- A part of the grammar is passed over, whatever it holds. -/
theorem skips_of_forms {part : Part} {s : List Char} (h : Forms part s) : Skips part s := by
  induction h with
  | null | true | false =>
    intro around rest _
    exact skip_value_scalar around (.inl (by decide)) (by decide) (by decide) rfl
  | number n =>
    intro around rest stop
    have passed := skipScalar_number n stop
    obtain ⟨c, t, eq, first⟩ := n.text_cons
    rw [eq, List.cons_append] at passed ⊢
    rcases first with rfl | digit
    · exact skip_value_scalar around (.inl (by decide)) (by decide) (by decide) passed
    · exact skip_value_scalar around (.inr digit) (ne_of_isDigit digit) (ne_of_isDigit digit) passed
  | @string ps s body =>
    intro around rest _
    have passed : skipScalar ('"' :: (s ++ '"' :: rest)) = .ok rest := skipString_of_spells body rest
    rw [List.cons_append, List.append_assoc]
    exact skip_value_scalar around (.inl (by decide)) (by decide) (by decide) passed
  | @list vs s inside ih =>
    intro around rest _
    rw [List.cons_append, skip_list, List.append_assoc]
    cases vs with
    | nil => exact skip_opened_closing .list around ih rest
    | cons v vs =>
      obtain ⟨c, t, spaced, begins⟩ := first_of_items inside (']' :: rest)
      obtain ⟨r, named, passed⟩ := ih around rest
      exact (skip_opened_name spaced begins named).trans passed
  | @object ms s inside ih =>
    intro around rest _
    rw [List.cons_append, skip_object, List.append_assoc]
    cases ms with
    | nil => exact skip_opened_closing .object around ih rest
    | cons m ms =>
      obtain ⟨t, spaced⟩ := first_of_members inside ('\x7d' :: rest)
      obtain ⟨r, named, passed⟩ := ih around rest
      exact (skip_opened_name spaced (.inl (by decide)) named).trans passed
  | @spaced v a s b before _ after ih =>
    intro around rest stop
    refine ⟨b, after, ?_⟩
    rw [← skip_value_skipSpace, List.append_assoc, skipSpace_append before, skip_value_skipSpace, List.append_assoc]
    exact ih around (b ++ rest) (stops_append after stop)
  | @member k v a name b s before spelled after value ih =>
    intro around rest stop
    obtain ⟨d, spaces, passed⟩ := ih around rest stop
    refine ⟨s ++ rest, d, ?_, spaces, passed⟩
    rw [skipName, skipSpace_member before]
    simp [skipString_of_spells spelled, readColon_spaces after]
  | noItem space => exact space
  | lastItem only ih =>
    intro around rest
    obtain ⟨b, spaces, passed⟩ := ih (.list :: around) (']' :: rest) (stops_cons rest)
    exact ⟨_, rfl, passed.trans ((skip_closed_spaces spaces _ _ _).trans (skip_closed_closing .list around rest))⟩
  | @nextItem v w vs s t first _ ih ihRest =>
    intro around rest
    obtain ⟨b, spaces, passed⟩ := ih (.list :: around) (',' :: (t ++ ']' :: rest)) (stops_cons _)
    obtain ⟨r, named, last⟩ := ihRest around rest
    refine ⟨_, rfl, ?_⟩
    rw [List.append_assoc]
    exact passed.trans ((skip_closed_spaces spaces _ _ _).trans ((skip_closed_comma named).trans last))
  | noMember space => exact space
  | lastMember only ih =>
    intro around rest
    obtain ⟨r, b, named, spaces, passed⟩ := ih (.object :: around) ('\x7d' :: rest) (stops_cons rest)
    exact ⟨r, named, passed.trans ((skip_closed_spaces spaces _ _ _).trans (skip_closed_closing .object around rest))⟩
  | @nextMember k v m ms s t first _ ih ihRest =>
    intro around rest
    obtain ⟨r, b, named, spaces, passed⟩ := ih (.object :: around) (',' :: (t ++ '\x7d' :: rest)) (stops_cons _)
    obtain ⟨u, inner, last⟩ := ihRest around rest
    refine ⟨r, ?_, passed.trans ((skip_closed_spaces spaces _ _ _).trans ((skip_closed_comma inner).trans last))⟩
    rw [List.append_assoc]
    exact named

theorem skipValue_spaced {v : Json} {s rest : List Char} (h : Forms (.spaced v) s) (stop : Stops rest) :
    ∃ b, IsSpaces b ∧ skipValue (s ++ rest) = .ok (b ++ rest) := by
  obtain ⟨b, spaces, passed⟩ := skips_of_forms h [] rest stop
  exact ⟨b, spaces, by rw [skipValue, passed, skip]⟩

end CycleChart.Json
