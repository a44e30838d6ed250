import CycleChart.Text.AxisLabel

namespace CycleChart.Text

/-! Where the commas go. -/

/-- Commas are put further back, not in front. -/
theorem head?_separate (s : List Char) : (separate s).head? = s.head? := by
  cases s with
  | nil => rfl
  | cons c s =>
    rw [separate]
    split <;> rfl

theorem separate_of_short {s : List Char} (short : s.length ≤ 3) : separate s = s := by
  induction s with
  | nil => rfl
  | cons c s ih =>
    rw [List.length_cons] at short
    have few : ¬(s ≠ [] ∧ s.length % 3 = 0) := by
      rintro ⟨some, whole⟩
      have filled := List.length_pos_iff.2 some
      omega
    rw [separate, if_neg few, ih (by omega)]

/-- Whole groups are separated from what stands before them, and what stands before them as if it stood alone. -/
theorem separate_append {s t : List Char} (before : s ≠ []) (after : t ≠ []) (whole : t.length % 3 = 0) :
    separate (s ++ t) = separate s ++ ',' :: separate t := by
  induction s with
  | nil => exact absurd rfl before
  | cons c s ih =>
    cases s with
    | nil =>
      rw [List.singleton_append, separate, if_pos ⟨after, whole⟩]
      rfl
    | cons d s =>
      have same : ((d :: s) ++ t).length % 3 = (d :: s).length % 3 := by
        rw [List.length_append]
        omega
      rw [List.cons_append, separate, same, ih (List.cons_ne_nil d s), separate.eq_def (c :: d :: s)]
      simp only [ne_eq, List.append_eq_nil_iff, after, and_false, not_false_eq_true, true_and, reduceCtorEq]
      split <;> rfl

/-- Deleting the commas leaves what they were put into. -/
theorem filter_separate {s : List Char} (none : ',' ∉ s) : (separate s).filter (· ≠ ',') = s := by
  induction s with
  | nil => rfl
  | cons c s ih =>
    rw [List.mem_cons, not_or] at none
    have other : c ≠ ',' := Ne.symm none.1
    rw [separate]
    split <;> simpa [other] using ih none.2

/-! Digits. -/

theorem head?_toDigits_iff (n : Nat) : (Nat.toDigits 10 n).head? = some '0' ↔ n = 0 := by
  induction n using Nat.strongRecOn with
  | ind n ih =>
    rw [Nat.toDigits_eq_if (by decide)]
    split
    · rename_i one
      rw [List.head?_cons, Option.some_inj, ← Char.toNat_inj, Nat.toNat_digitChar_of_lt_ten one]
      exact Nat.add_eq_left
    · rename_i more
      rw [List.head?_append, List.head?_eq_some_head Nat.toDigits_ne_nil, Option.some_or,
        ← List.head?_eq_some_head, ih (n / 10) (by omega)]
      omega

/-- The last three digits are those of the remainder. -/
theorem toDigits_of_thousand_le {n : Nat} (h : 1000 ≤ n) :
    Nat.toDigits 10 n = Nat.toDigits 10 (n / 1000) ++ threeDigits (n % 1000) := by
  have last : n % 1000 % 10 = n % 10 := by omega
  have second : n % 1000 / 10 % 10 = n / 10 % 10 := by omega
  have third : n % 1000 / 100 % 10 = n / 10 / 10 % 10 := by omega
  have rest : n / 1000 = n / 10 / 10 / 10 := by omega
  rw [Nat.toDigits_of_base_le (by decide) (show 10 ≤ n by omega),
    Nat.toDigits_of_base_le (by decide) (show 10 ≤ n / 10 by omega),
    Nat.toDigits_of_base_le (by decide) (show 10 ≤ n / 10 / 10 by omega), threeDigits, last, second, third, rest]
  rw [List.append_assoc, List.append_assoc]
  rfl

theorem comma_not_mem_toDigits (n : Nat) : ',' ∉ Nat.toDigits 10 n := by
  intro mem
  exact absurd (Nat.isDigit_of_mem_toDigits (by decide) (by decide) mem) (by decide)

theorem isDigit_digitChar_mod (n : Nat) : (Nat.digitChar (n % 10)).isDigit := by
  have less : n % 10 < 10 := Nat.mod_lt n (by decide)
  exact Nat.isDigit_of_mem_toDigits (b := 10) (n := n % 10) (by decide) (by decide)
    (by rw [Nat.toDigits_of_lt_base less]; exact List.mem_singleton.2 rfl)

theorem threeDigits_spec (n : Nat) : (threeDigits n).length = 3 ∧ ∀ c ∈ threeDigits n, c.isDigit := by
  refine ⟨rfl, fun c mem => ?_⟩
  simp only [threeDigits, List.mem_cons, List.not_mem_nil, or_false] at mem
  rcases mem with rfl | rfl | rfl <;> exact isDigit_digitChar_mod _

/-! Numbers in groups. -/

/-- A text of one group of one to three digits and of groups of three digits, a comma in front of each of them. -/
structure Groups (text first : List Char) (more : List (List Char)) : Prop where
  text_eq : text = first ++ more.flatMap (',' :: ·)
  length_mem : 1 ≤ first.length ∧ first.length ≤ 3
  digits : ∀ c ∈ first, c.isDigit
  three : ∀ group ∈ more, group.length = 3 ∧ ∀ c ∈ group, c.isDigit

theorem toList_grouped (n : Nat) : (grouped n).toList = separate (Nat.toDigits 10 n) := String.toList_ofList

/-- Up to three digits stand alone, and the last three of more digits are a group of their own. -/
theorem grouped_eq (n : Nat) :
    grouped n = if n < 1000 then toString n
      else grouped (n / 1000) ++ "," ++ String.ofList (threeDigits (n % 1000)) := by
  rw [← String.toList_inj]
  split
  · rename_i few
    rw [toList_grouped, Nat.toString_eq_ofList_toDigits, String.toList_ofList]
    exact separate_of_short ((Nat.length_toDigits_le_iff (by decide) (by decide)).2 few)
  · rename_i many
    have three : (threeDigits (n % 1000)).length = 3 := (threeDigits_spec _).1
    have filled : threeDigits (n % 1000) ≠ [] := List.cons_ne_nil _ _
    rw [String.toList_append, String.toList_append, toList_grouped, toList_grouped, String.toList_ofList,
      String.toList_ofList, toDigits_of_thousand_le (Nat.not_lt.1 many),
      separate_append Nat.toDigits_ne_nil filled (by rw [three]), separate_of_short (Nat.le_of_eq three),
      List.append_assoc]
    rfl

/-- A number is written in groups. -/
theorem exists_groups (n : Nat) : ∃ first more, Groups (grouped n).toList first more := by
  induction n using Nat.strongRecOn with
  | ind n ih =>
    rw [grouped_eq]
    split
    · rename_i few
      rw [Nat.toString_eq_ofList_toDigits, String.toList_ofList]
      exact ⟨Nat.toDigits 10 n, [], (List.append_nil _).symm,
        ⟨Nat.length_toDigits_pos, (Nat.length_toDigits_le_iff (by decide) (by decide)).2 few⟩,
        fun c => Nat.isDigit_of_mem_toDigits (by decide) (by decide), nofun⟩
    · rename_i many
      obtain ⟨first, more, groups⟩ := ih (n / 1000) (by omega)
      refine ⟨first, more ++ [threeDigits (n % 1000)], ?_, groups.length_mem, groups.digits, ?_⟩
      · rw [String.toList_append, String.toList_append, String.toList_ofList, groups.text_eq, List.flatMap_append]
        simp
      · intro group mem
        rcases List.mem_append.1 mem with mem | mem
        · exact groups.three group mem
        · rw [List.mem_singleton.1 mem]
          exact threeDigits_spec _

/-- The number that some digits stand for, with commas among them. -/
def ungrouped (text : String) : Nat := Nat.ofDigitChars 10 (text.toList.filter (· ≠ ',')) 0

theorem ungrouped_grouped (n : Nat) : ungrouped (grouped n) = n := by
  rw [ungrouped, toList_grouped, filter_separate (comma_not_mem_toDigits n), Nat.ofDigitChars_ten_toDigits]

theorem head?_grouped_iff (n : Nat) : (grouped n).toList.head? = some '0' ↔ n = 0 := by
  rw [toList_grouped, head?_separate, head?_toDigits_iff]

theorem grouped_injective : Function.Injective grouped := Function.LeftInverse.injective ungrouped_grouped

/-- Nothing but digits and commas is used. -/
theorem mem_grouped {n : Nat} {c : Char} (mem : c ∈ (grouped n).toList) : c = ',' ∨ c.isDigit := by
  rw [toList_grouped] at mem
  by_cases comma : c = ','
  · exact .inl comma
  · have digit : c ∈ Nat.toDigits 10 n := by
      rw [← filter_separate (comma_not_mem_toDigits n)]
      exact List.mem_filter.2 ⟨mem, decide_eq_true comma⟩
    exact .inr (Nat.isDigit_of_mem_toDigits (by decide) (by decide) digit)

/-- Every number has one text in groups, without a zero in front of other digits, and the text tells the number. -/
theorem grouped_spec (n : Nat) :
    (∃ first more, Groups (grouped n).toList first more) ∧
      ((grouped n).toList.head? = some '0' ↔ n = 0) ∧
      ungrouped (grouped n) = n ∧
      (grouped n = if n < 1000 then toString n
        else grouped (n / 1000) ++ "," ++ String.ofList (threeDigits (n % 1000))) ∧
      ∀ m, grouped m = grouped n ↔ m = n := by
  refine ⟨exists_groups n, head?_grouped_iff n, ungrouped_grouped n, grouped_eq n, fun m => ?_⟩
  constructor
  · intro same
    rw [← ungrouped_grouped m, same, ungrouped_grouped]
  · intro same
    rw [same]

example : grouped 1000020 = "1,000,020" := by decide

end CycleChart.Text
