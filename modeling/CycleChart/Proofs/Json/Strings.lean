import CycleChart.Proofs.Json.Tokens

namespace CycleChart.Json

open Reading

theorem readString_escaped {s r : List Char} {c : Char} (h : readEscape s = .ok (c, r)) (front : List Char) :
    readString front ('\\' :: s) = readString (c :: front) r := by
  rw [readString, if_neg (by decide), if_pos rfl]
  split <;> simp_all

theorem readString_broken {s : List Char} (h : (readEscape s).toOption = none) (front : List Char) :
    (readString front ('\\' :: s)).toOption = none := by
  rw [readString, if_neg (by decide), if_pos rfl]
  split
  · rfl
  · simp_all [Except.toOption]

theorem readString_char {c : Char} {ps : List Piece} {s : List Char} (h : Spells (.char c :: ps) s) :
    ∃ t, Spells ps t ∧
      ∀ front rest, readString front (s ++ '"' :: rest) = readString (c :: front) (t ++ '"' :: rest) := by
  cases h with
  | @raw _ _ t printed plain spelled =>
    refine ⟨t, spelled, fun front rest => ?_⟩
    rw [List.cons_append, readString, if_neg plain.1, if_neg plain.2, if_neg (Nat.not_lt.2 printed)]
  | @escape e _ _ t listed spelled =>
    obtain ⟨plain, other⟩ := plainEscape?_of_mem listed
    refine ⟨t, spelled, fun front rest => readString_escaped ?_ front⟩
    simp [readEscape, other, plain]

theorem readHex_unit {n : Nat} {ps : List Piece} {s : List Char} (h : Spells (.unit n :: ps) s) :
    ∃ u t, s = '\\' :: 'u' :: u ∧ Spells ps t ∧ ∀ rest, readHex (u ++ rest) = .ok (n, t ++ rest) := by
  cases h with
  | numbered digits spelled =>
    refine ⟨_, _, rfl, spelled, fun rest => ?_⟩
    simp [readHex, fourHex?_of_isHex digits]

theorem readTrail_of_spells {ps : List Piece} {s : List Char} (h : Spells ps s) (n : Nat) (rest : List Char)
    (other : ∀ m qs, ps = .unit m :: qs → ¬IsLow m) : (readTrail n (s ++ '"' :: rest)).toOption = none := by
  cases h with
  | nil => rfl
  | raw printed plain _ => simp [readTrail, plain.2, stopAt, Except.toOption]
  | escape listed _ =>
    have unnumbered := (plainEscape?_of_mem listed).2
    simp [readTrail, unnumbered, stopAt, Except.toOption]
  | numbered digits spelled =>
    have high := other _ _ rfl
    simp only [IsLow] at high
    simp [readTrail, readHex, fourHex?_of_isHex digits, high, stopAt, Except.toOption]

theorem readString_lone {n : Nat} {ps : List Piece} {s : List Char} (h : Spells (.unit n :: ps) s) (high : IsHigh n)
    (other : ∀ m qs, ps = .unit m :: qs → ¬IsLow m) (front rest : List Char) :
    (readString front (s ++ '"' :: rest)).toOption = none := by
  obtain ⟨u, t, rfl, spelled, read⟩ := readHex_unit h
  refine readString_broken ?_ front
  have low : ¬(0xDC00 ≤ n ∧ n ≤ 0xDFFF) := by
    simp only [IsHigh] at high
    omega
  have trail := readTrail_of_spells spelled n rest other
  simp only [IsHigh] at high
  simpa [readEscape, readNumbered, read, low, high] using trail

/-- A string reads as its characters, and it is refused if half of a pair stands alone. -/
theorem readString_of_spells {ps : List Piece} {s : List Char} (h : Spells ps s) (front rest : List Char) :
    (readString front (s ++ '"' :: rest)).toOption =
      (chars? ps).map fun cs => (String.ofList (front.reverse ++ cs), rest) := by
  fun_induction chars? ps generalizing s front with
  | case1 =>
    cases h
    simp [readString, Except.toOption]
  | case2 c ps ih =>
    obtain ⟨t, spelled, step⟩ := readString_char h
    rw [step, ih spelled]
    simp [Option.map_map, Function.comp_def]
  | case3 n ps low =>
    obtain ⟨u, t, rfl, -, read⟩ := readHex_unit h
    refine readString_broken ?_ front
    have bounds := low
    simp only [IsLow] at bounds
    simp [readEscape, readNumbered, read, bounds, stopAt, Except.toOption]
  | case4 n notLow high m qs low ih =>
    obtain ⟨u, t, rfl, spelled, read⟩ := readHex_unit h
    obtain ⟨v, w, rfl, last, readSecond⟩ := readHex_unit spelled
    have escape : readEscape ('u' :: (u ++ '"' :: rest)) = .ok (paired n m, w ++ '"' :: rest) := by
      have bounds := low
      simp only [IsLow, IsHigh] at notLow high bounds
      simp [readEscape, readNumbered, read, notLow, high, readTrail, readSecond, bounds, paired]
    rw [List.cons_append, List.cons_append, readString_escaped escape, ih last]
    simp [Option.map_map, Function.comp_def]
  | case5 n _ high m qs other =>
    refine readString_lone h high (fun k rs eq => ?_) front rest
    cases eq
    exact other
  | case6 n ps _ high other => exact readString_lone h high (fun m qs eq => absurd eq (other m qs)) front rest
  | case7 n ps notLow notHigh ih =>
    obtain ⟨u, t, rfl, spelled, read⟩ := readHex_unit h
    have escape : readEscape ('u' :: (u ++ '"' :: rest)) = .ok (Char.ofNat n, t ++ '"' :: rest) := by
      simp only [IsLow, IsHigh] at notLow notHigh
      simp [readEscape, readNumbered, read, notLow, notHigh]
    rw [List.cons_append, List.cons_append, readString_escaped escape, ih spelled]
    simp [Option.map_map, Function.comp_def]

end CycleChart.Json
