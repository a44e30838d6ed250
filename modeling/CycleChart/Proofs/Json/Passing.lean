import CycleChart.Proofs.Json.Skipping

namespace CycleChart.Json

open Reading

theorem exists_spaces (s : List Char) : ∃ a, IsSpaces a ∧ s = a ++ skipSpace s := by
  refine ⟨s.takeWhile isSpace, ?_, List.takeWhile_append_dropWhile.symm⟩
  intro c mem
  apply (isSpace_iff c).1
  exact List.all_eq_true.1 List.all_takeWhile c mem

theorem isSpaces_of_skipSpace {s : List Char} (h : skipSpace s = []) : IsSpaces s := by
  obtain ⟨a, spaces, eq⟩ := exists_spaces s
  rw [h, List.append_nil] at eq
  rw [eq]
  exact spaces

theorem isSpaces_nil : IsSpaces [] := List.forall_mem_nil _

theorem IsSpaces.append {a b : List Char} (ha : IsSpaces a) (hb : IsSpaces b) : IsSpaces (a ++ b) := by
  intro c mem
  rcases List.mem_append.1 mem with mem | mem
  · exact ha c mem
  · exact hb c mem

/-! Words and strings. -/

theorem eq_append_of_readWord {word s r : List Char} (h : readWord word s = .ok r) : s = word ++ r := by
  induction word generalizing s with
  | nil =>
    cases h
    rfl
  | cons w word ih =>
    cases s with
    | nil => cases h
    | cons c s =>
      rw [readWord] at h
      split at h
      · rename_i same
        rw [same, ih h]
        rfl
      · cases h

theorem toNat_lt_of_hexDigit? {c : Char} {n : Nat} (h : hexDigit? c = some n) : c.toNat < 128 := by
  have below {d : Char} (le : c ≤ d) (small : d.toNat < 128) : c.toNat < 128 := Nat.lt_of_le_of_lt le small
  unfold hexDigit? at h
  split at h
  · rename_i range
    exact below range.2 (by decide)
  · split at h
    · rename_i range
      exact below range.2 (by decide)
    · split at h
      · rename_i range
        exact below range.2 (by decide)
      · cases h

/-- What is read as a digit to the base sixteen is one. -/
theorem isHex_of_hexDigit? {c : Char} {n : Nat} (h : hexDigit? c = some n) : IsHex c n := by
  have table : ∀ k < 128, (hexDigit? (Char.ofNat k)).all fun n => IsHex (Char.ofNat k) n := by decide
  have known := table c.toNat (toNat_lt_of_hexDigit? h)
  rw [Char.ofNat_toNat, h] at known
  simpa using known

theorem mem_escapes_of_plainEscape? {e c : Char} (h : plainEscape? e = some c) : (e, c) ∈ escapes := by
  unfold plainEscape? at h
  split at h
  · cases h; decide
  · cases h; decide
  · cases h; decide
  · cases h; decide
  · cases h; decide
  · cases h; decide
  · cases h; decide
  · cases h; decide
  · cases h

theorem exists_of_readHex {s r : List Char} {n : Nat} (h : readHex s = .ok (n, r)) :
    ∃ a b c d i j k l, s = a :: b :: c :: d :: r ∧ (IsHex a i ∧ IsHex b j ∧ IsHex c k ∧ IsHex d l) ∧
      n = ((i * 16 + j) * 16 + k) * 16 + l := by
  unfold readHex at h
  split at h
  · rename_i a b c d t
    split at h
    · rename_i m four
      cases h
      unfold fourHex? at four
      obtain ⟨i, hi, four⟩ := Option.bind_eq_some_iff.1 four
      obtain ⟨j, hj, four⟩ := Option.bind_eq_some_iff.1 four
      obtain ⟨k, hk, four⟩ := Option.bind_eq_some_iff.1 four
      obtain ⟨l, hl, four⟩ := Option.bind_eq_some_iff.1 four
      cases four
      exact ⟨a, b, c, d, i, j, k, l, rfl, ⟨isHex_of_hexDigit? hi, isHex_of_hexDigit? hj, isHex_of_hexDigit? hk,
        isHex_of_hexDigit? hl⟩, rfl⟩
    · cases h
  · split at h <;> cases h

/-- An escape that is passed over stands for one piece of a string. -/
theorem exists_of_skipEscape {s r : List Char} (h : skipEscape s = .ok r) :
    ∃ e p, s = e ++ r ∧ ∀ {ps t}, Spells ps t → Spells (p :: ps) ('\\' :: (e ++ t)) := by
  cases s with
  | nil => cases h
  | cons c s =>
    rw [skipEscape] at h
    split at h
    · rename_i numbered
      cases hex : readHex s with
      | error halt =>
        rw [hex] at h
        cases h
      | ok result =>
        obtain ⟨n, t⟩ := result
        rw [hex] at h
        cases h
        obtain ⟨a, b, c, d, i, j, k, l, rfl, digits, -⟩ := exists_of_readHex hex
        rw [numbered]
        refine ⟨['u', a, b, c, d], .unit (((i * 16 + j) * 16 + k) * 16 + l), rfl, ?_⟩
        intro ps t spelled
        exact .numbered digits spelled
    · split at h
      · rename_i plain
        cases h
        obtain ⟨d, plain⟩ := Option.isSome_iff_exists.1 plain
        refine ⟨[c], .char d, rfl, ?_⟩
        intro ps t spelled
        exact .escape (mem_escapes_of_plainEscape? plain) spelled
      · cases h

/-- A string that is passed over is spelled as one. -/
theorem exists_of_skipString {s r : List Char} (h : skipString s = .ok r) :
    ∃ ps body, Spells ps body ∧ s = body ++ '"' :: r := by
  fun_induction skipString s with
  | case1 => cases h
  | case2 s =>
    cases h
    exact ⟨[], [], .nil, rfl⟩
  | case3 => cases h
  | case4 s t escaped _ ih =>
    obtain ⟨ps, body, spelled, rfl⟩ := ih h
    obtain ⟨e, p, rfl, spells⟩ := exists_of_skipEscape escaped
    exact ⟨p :: ps, '\\' :: (e ++ body), spells spelled, by simp⟩
  | case5 => cases h
  | case6 c s noQuote noEscape printed ih =>
    obtain ⟨ps, body, spelled, rfl⟩ := ih h
    exact ⟨.char c :: ps, c :: body, .raw (Nat.not_lt.1 printed) ⟨noQuote, noEscape⟩ spelled, rfl⟩

/-! Numbers. -/

theorem takeDigits_spec (s : List Char) :
    s = (takeDigits s).1 ++ (takeDigits s).2 ∧ ∀ c ∈ (takeDigits s).1, c.isDigit := by
  refine ⟨List.takeWhile_append_dropWhile.symm, ?_⟩
  intro c mem
  exact List.all_eq_true.1 List.all_takeWhile c mem

theorem exists_sign (s : List Char) :
    ∃ sign, (sign = [] ∨ sign = ['+'] ∨ sign = ['-']) ∧ s = sign ++ (takeSign s).2 := by
  unfold takeSign
  split
  · exact ⟨['+'], .inr (.inl rfl), rfl⟩
  · exact ⟨['-'], .inr (.inr rfl), rfl⟩
  · exact ⟨[], .inl rfl, rfl⟩

theorem isExponent_of_skipExponent {letter : Char} {s r : List Char} (either : letter = 'e' ∨ letter = 'E')
    (h : skipExponent s = .ok r) : ∃ exponent, IsExponent exponent ∧ letter :: s = exponent ++ r := by
  obtain ⟨sign, signed, front⟩ := exists_sign s
  obtain ⟨cut, all⟩ := takeDigits_spec (takeSign s).2
  unfold skipExponent at h
  dsimp only at h
  split at h
  · cases h
  · rename_i some
    cases h
    refine ⟨letter :: (sign ++ (takeDigits (takeSign s).2).1), ?_, ?_⟩
    · exact .inr ⟨letter, sign, _, rfl, either, signed, some, all⟩
    · rw [List.cons_append, List.append_assoc, ← cut, ← front]

theorem isFraction_of_skipFraction {s r : List Char} (h : skipFraction s = .ok r) :
    ∃ fraction exponent, IsFraction fraction ∧ IsExponent exponent ∧ '.' :: s = fraction ++ (exponent ++ r) := by
  obtain ⟨cut, all⟩ := takeDigits_spec s
  unfold skipFraction at h
  dsimp only at h
  split at h
  · cases h
  · rename_i some
    have fraction : IsFraction ('.' :: (takeDigits s).1) := .inr ⟨_, rfl, some, all⟩
    have rest : ∃ exponent, IsExponent exponent ∧ (takeDigits s).2 = exponent ++ r := by
      split at h
      · rename_i t eq
        rw [eq]
        exact isExponent_of_skipExponent (.inl rfl) h
      · rename_i t eq
        rw [eq]
        exact isExponent_of_skipExponent (.inr rfl) h
      · cases h
        exact ⟨[], .inl rfl, rfl⟩
    obtain ⟨exponent, isExponent, eq⟩ := rest
    exact ⟨_, exponent, fraction, isExponent, by rw [List.cons_append, ← eq, ← cut]⟩

/-- A number that is passed over is a numeral, after its sign. -/
theorem exists_of_skipNumber {s r : List Char} (h : skipNumber s = .ok r) (negative : Bool) :
    ∃ n : Numeral, n.negative = negative ∧ s = n.whole ++ (n.fraction ++ (n.exponent ++ r)) := by
  obtain ⟨cut, all⟩ := takeDigits_spec s
  unfold skipNumber at h
  dsimp only at h
  split at h
  · cases h
  · cases h
  · rename_i some noZero
    have whole : IsWhole (takeDigits s).1 := by
      refine ⟨⟨some, all⟩, ?_⟩
      intro zero
      cases digits : (takeDigits s).1 with
      | nil => exact absurd digits some
      | cons d ds =>
        rw [digits] at zero
        cases zero
        cases ds with
        | nil => rfl
        | cons c more => exact absurd digits (noZero c more)
    have rest : ∃ fraction exponent, IsFraction fraction ∧ IsExponent exponent ∧
        (takeDigits s).2 = fraction ++ (exponent ++ r) := by
      split at h
      · rename_i t eq
        rw [eq]
        exact isFraction_of_skipFraction h
      · rename_i t eq
        rw [eq]
        obtain ⟨exponent, isExponent, eq⟩ := isExponent_of_skipExponent (.inl rfl) h
        exact ⟨[], exponent, .inl rfl, isExponent, eq⟩
      · rename_i t eq
        rw [eq]
        obtain ⟨exponent, isExponent, eq⟩ := isExponent_of_skipExponent (.inr rfl) h
        exact ⟨[], exponent, .inl rfl, isExponent, eq⟩
      · cases h
        exact ⟨[], [], .inl rfl, .inl rfl, rfl⟩
    obtain ⟨fraction, exponent, isFraction, isExponent, eq⟩ := rest
    exact ⟨⟨negative, _, fraction, exponent, whole, isFraction, isExponent⟩, rfl, by rw [← eq, ← cut]⟩

theorem exists_of_skipScalar {s r : List Char} (h : skipScalar s = .ok r) :
    ∃ v p, Forms (.value v) p ∧ s = p ++ r := by
  cases s with
  | nil => cases h
  | cons c s =>
    rw [skipScalar] at h
    split at h
    · rename_i letter
      exact ⟨.null, _, .null, by rw [letter, eq_append_of_readWord h]; rfl⟩
    · split at h
      · rename_i letter
        exact ⟨.boolean true, _, .true, by rw [letter, eq_append_of_readWord h]; rfl⟩
      · split at h
        · rename_i letter
          exact ⟨.boolean false, _, .false, by rw [letter, eq_append_of_readWord h]; rfl⟩
        · split at h
          · rename_i quote
            obtain ⟨ps, body, spelled, rfl⟩ := exists_of_skipString h
            exact ⟨.string ps, _, .string spelled, by rw [quote]; simp⟩
          · split at h
            · rename_i minus
              obtain ⟨n, sign, rfl⟩ := exists_of_skipNumber h true
              exact ⟨.number n, _, .number n, by rw [minus]; simp [Numeral.text, sign]⟩
            · split at h
              · obtain ⟨n, sign, eq⟩ := exists_of_skipNumber h false
                exact ⟨.number n, _, .number n, by rw [eq]; simp [Numeral.text, sign]⟩
              · cases h

/-! Brackets. -/

theorem forms_before {v : Json} {a s : List Char} (spaces : IsSpaces a) (h : Forms (.spaced v) s) :
    Forms (.spaced v) (a ++ s) := by
  cases h with
  | spaced before inside after =>
    rw [← List.append_assoc]
    exact .spaced (spaces.append before) inside after

theorem forms_after {v : Json} {a s : List Char} (h : Forms (.spaced v) s) (spaces : IsSpaces a) :
    Forms (.spaced v) (s ++ a) := by
  cases h with
  | spaced before inside after =>
    rw [List.append_assoc, List.append_assoc]
    exact .spaced before inside (after.append spaces)

/-- One item of a bracket: a value, which has a name in an object. -/
def IsItem : Bracket → List Char → Prop
  | .list, s => ∃ v, Forms (.spaced v) s
  | .object, s => ∃ k v, Forms (.member k v) s

/-- Some items of a bracket, with commas between them. -/
def Fills : Bracket → List Char → Prop
  | .list, s => ∃ v vs, Forms (.items (v :: vs)) s
  | .object, s => ∃ m ms, Forms (.members (m :: ms)) s

/-- What may stand between an item and the end of its bracket. -/
def Continues (b : Bracket) (s : List Char) : Prop :=
  IsSpaces s ∨ ∃ a t, IsSpaces a ∧ s = a ++ ',' :: t ∧ Fills b t

/-- What may follow a value up to `r`, if it lies in these brackets. -/
def Closes : List Bracket → List Char → List Char → Prop
  | [], s, r => s = r
  | b :: around, s, r => ∃ t u, Continues b t ∧ s = t ++ b.closing :: u ∧ Closes around u r

theorem IsItem.fills {b : Bracket} {s : List Char} (h : IsItem b s) : Fills b s := by
  cases b with
  | list =>
    obtain ⟨v, value⟩ := h
    exact ⟨v, [], .lastItem value⟩
  | object =>
    obtain ⟨k, v, member⟩ := h
    exact ⟨(k, v), [], .lastMember member⟩

theorem IsItem.fills_comma {b : Bracket} {s t : List Char} (h : IsItem b s) (rest : Fills b t) :
    Fills b (s ++ ',' :: t) := by
  cases b with
  | list =>
    obtain ⟨v, value⟩ := h
    obtain ⟨w, vs, items⟩ := rest
    exact ⟨v, w :: vs, .nextItem value items⟩
  | object =>
    obtain ⟨k, v, member⟩ := h
    obtain ⟨m, ms, members⟩ := rest
    exact ⟨(k, v), m :: ms, .nextMember member members⟩

theorem exists_of_readColon {s r : List Char} (h : readColon s = .ok r) : ∃ a, IsSpaces a ∧ s = a ++ ':' :: r := by
  obtain ⟨a, spaces, eq⟩ := exists_spaces s
  rw [readColon] at h
  split at h
  · cases h
  · rename_i c t spaced
    rw [spaced] at eq
    split at h
    · rename_i colon
      cases h
      exact ⟨a, spaces, by rw [eq, colon]⟩
    · cases h

/-- What is passed over before a value makes an item with any value. -/
theorem exists_of_skipName {b : Bracket} {s r : List Char} (h : skipName b s = .ok r) :
    ∃ front, s = front ++ r ∧ ∀ {a v p}, IsSpaces a → Forms (.spaced v) p → IsItem b (a ++ (front ++ p)) := by
  cases b with
  | list =>
    cases h
    refine ⟨[], rfl, ?_⟩
    intro a v p spaces value
    exact ⟨v, forms_before spaces value⟩
  | object =>
    obtain ⟨before, spaces, eq⟩ := exists_spaces s
    rw [skipName] at h
    split at h
    · cases h
    · rename_i c t spaced
      rw [spaced] at eq
      split at h
      · rename_i quote
        split at h
        · cases h
        · rename_i u string
          obtain ⟨k, name, spelled, rfl⟩ := exists_of_skipString string
          obtain ⟨after, spaces', rfl⟩ := exists_of_readColon h
          refine ⟨before ++ '"' :: (name ++ '"' :: (after ++ [':'])), by rw [eq, quote]; simp, ?_⟩
          intro a v p first value
          have member := Forms.member (first.append spaces) spelled spaces' value
          exact ⟨k, v, by simpa using member⟩
      · cases h

/-- An item and what continues it fill a bracket. -/
theorem fills_of_value {b : Bracket} {a s p t rest : List Char} {v : Json} (spaces : IsSpaces a)
    (named : skipName b s = .ok (p ++ (t ++ rest))) (value : Forms (.spaced v) p) (more : Continues b t) :
    ∃ u, Fills b (a ++ u) ∧ s = u ++ rest := by
  obtain ⟨front, rfl, item⟩ := exists_of_skipName named
  refine ⟨front ++ (p ++ t), ?_, by simp⟩
  rcases more with last | ⟨c, next, spaces', rfl, items⟩
  · exact (item spaces (forms_after value last)).fills
  · have first := item spaces (forms_after value spaces')
    simpa using first.fills_comma items

/-- What is passed over from a stage on, up to `r`. -/
def Passes : Stage → List Bracket → List Char → List Char → Prop
  | .value, around, s, r => ∃ v p t, Forms (.spaced v) p ∧ s = p ++ t ∧ Closes around t r
  | .opened b, around, s, r => ∃ t u, (IsSpaces t ∨ Fills b t) ∧ s = t ++ b.closing :: u ∧ Closes around u r
  | .closed, around, s, r => Closes around s r

theorem forms_list {a t : List Char} (spaces : IsSpaces a) (h : IsSpaces t ∨ Fills .list t) :
    ∃ v, Forms (.spaced v) (a ++ '[' :: (t ++ [']'])) := by
  have inside : ∃ vs, Forms (.items vs) t := by
    rcases h with none | ⟨v, vs, items⟩
    · exact ⟨[], .noItem none⟩
    · exact ⟨v :: vs, items⟩
  obtain ⟨vs, items⟩ := inside
  have whole := Forms.spaced (b := []) spaces (.list items) isSpaces_nil
  exact ⟨.list vs, by simpa using whole⟩

theorem forms_object {a t : List Char} (spaces : IsSpaces a) (h : IsSpaces t ∨ Fills .object t) :
    ∃ v, Forms (.spaced v) (a ++ '\x7b' :: (t ++ ['\x7d'])) := by
  have inside : ∃ ms, Forms (.members ms) t := by
    rcases h with none | ⟨m, ms, members⟩
    · exact ⟨[], .noMember none⟩
    · exact ⟨m :: ms, members⟩
  obtain ⟨ms, members⟩ := inside
  have whole := Forms.spaced (b := []) spaces (.object members) isSpaces_nil
  exact ⟨.object ms, by simpa using whole⟩

/-- What is passed over has the form of a value, and of what follows it in its brackets. -/
theorem passes_of_skip {stage : Stage} {around : List Bracket} {s r : List Char} (h : skip stage around s = .ok r) :
    Passes stage around s r := by
  fun_induction skip stage around s with
  | case1 => cases h
  | case2 around s t spaced ih =>
    obtain ⟨a, spaces, eq⟩ := exists_spaces s
    obtain ⟨inside, u, holds, rfl, closes⟩ := ih h
    obtain ⟨v, value⟩ := forms_list spaces holds
    exact ⟨v, _, u, value, by rw [eq, spaced]; simp [Bracket.closing], closes⟩
  | case3 around s t spaced _ ih =>
    obtain ⟨a, spaces, eq⟩ := exists_spaces s
    obtain ⟨inside, u, holds, rfl, closes⟩ := ih h
    obtain ⟨v, value⟩ := forms_object spaces holds
    exact ⟨v, _, u, value, by rw [eq, spaced]; simp [Bracket.closing], closes⟩
  | case4 => cases h
  | case5 around s c t spaced _ _ rest scalar ih =>
    obtain ⟨a, spaces, eq⟩ := exists_spaces s
    obtain ⟨v, p, value, front⟩ := exists_of_skipScalar scalar
    have whole := Forms.spaced (b := []) spaces value isSpaces_nil
    exact ⟨v, _, rest, whole, by rw [eq, spaced, front]; simp, ih h⟩
  | case6 => cases h
  | case7 around s b t spaced ih =>
    obtain ⟨a, spaces, eq⟩ := exists_spaces s
    exact ⟨a, t, .inl spaces, by rw [eq, spaced], ih h⟩
  | case8 => cases h
  | case9 around s b c t spaced _ rest name ih =>
    obtain ⟨a, spaces, eq⟩ := exists_spaces s
    obtain ⟨v, p, _, value, rfl, more, u, continues, rfl, closes⟩ := ih h
    obtain ⟨inside, fills, front⟩ := fills_of_value spaces name value continues
    exact ⟨a ++ inside, u, .inr fills, by rw [eq, spaced, front, List.append_assoc], closes⟩
  | case10 =>
    cases h
    rfl
  | case11 => cases h
  | case12 => cases h
  | case13 s b around t rest name spaced ih =>
    obtain ⟨a, spaces, eq⟩ := exists_spaces s
    obtain ⟨v, p, _, value, rfl, more, u, continues, rfl, closes⟩ := ih h
    obtain ⟨inside, fills, front⟩ := fills_of_value isSpaces_nil name value continues
    refine ⟨a ++ ',' :: inside, u, .inr ⟨a, inside, spaces, rfl, fills⟩, ?_, closes⟩
    rw [eq, spaced, front]
    simp
  | case14 s b around t spaced _ ih =>
    obtain ⟨a, spaces, eq⟩ := exists_spaces s
    exact ⟨a, t, .inl spaces, by rw [eq, spaced], ih h⟩
  | case15 => cases h

/-- Exactly the texts that are well formed are passed over as a whole. -/
theorem exists_isTextOf_iff {text : String} :
    (∃ v, IsTextOf text v) ↔ ∃ r, skipValue text.toList = .ok r ∧ skipSpace r = [] := by
  constructor
  · rintro ⟨v, formed⟩
    have stop : Stops [] := nofun
    obtain ⟨b, spaces, passed⟩ := skipValue_spaced formed stop
    rw [List.append_nil, List.append_nil] at passed
    have ended := skipSpace_append spaces []
    rw [List.append_nil] at ended
    exact ⟨b, passed, ended⟩
  · rintro ⟨r, passed, ended⟩
    obtain ⟨v, p, t, value, eq, rfl⟩ := passes_of_skip passed
    have whole := forms_after value (isSpaces_of_skipSpace ended)
    exact ⟨v, by rw [IsTextOf, eq]; exact whole⟩

end CycleChart.Json
