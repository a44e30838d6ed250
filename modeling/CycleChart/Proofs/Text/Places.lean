import CycleChart.Proofs.Binary.Whole
import CycleChart.Proofs.Text.Grouping
import Mathlib.Data.List.DropRight

namespace CycleChart.Text

/-! Digits after a point. -/

/-- One to three digits, the last of which says something. -/
structure Places (digits : List Char) : Prop where
  length_mem : 1 ≤ digits.length ∧ digits.length ≤ 3
  isDigit : ∀ c ∈ digits, c.isDigit
  last : digits.getLast? ≠ some '0'

/-- The part of one that digits after a point stand for. -/
def placeValue (digits : List Char) : Rat := Nat.ofDigitChars 10 digits 0 / 10 ^ digits.length

theorem ofDigitChars_zeros (count init : Nat) :
    Nat.ofDigitChars 10 (List.replicate count '0') init = init * 10 ^ count := by
  induction count generalizing init with
  | zero => simp
  | succ count ih =>
    rw [List.replicate_succ, Nat.ofDigitChars_cons, ih, Nat.sub_self, Nat.add_zero, pow_succ]
    ring

/-- Zeros at the end make no difference. -/
theorem placeValue_append_zeros (digits : List Char) (count : Nat) :
    placeValue (digits ++ List.replicate count '0') = placeValue digits := by
  have power : (10 : Rat) ^ count ≠ 0 := by positivity
  rw [placeValue, placeValue, Nat.ofDigitChars_append, ofDigitChars_zeros, List.length_append, List.length_replicate,
    pow_add]
  push_cast
  rw [mul_div_mul_right _ _ power]

/-- Only zeros are dropped, and all of them. -/
theorem dropTrailingZeros_spec (digits : List Char) :
    (∃ count, digits = dropTrailingZeros digits ++ List.replicate count '0') ∧
      (dropTrailingZeros digits).getLast? ≠ some '0' := by
  have kept : dropTrailingZeros digits = digits.rdropWhile (· = '0') := rfl
  rw [kept]
  constructor
  · refine ⟨(digits.rtakeWhile (· = '0')).length, ?_⟩
    have zeros : digits.rtakeWhile (· = '0') = List.replicate (digits.rtakeWhile (· = '0')).length '0' := by
      rw [List.eq_replicate_iff]
      exact ⟨rfl, fun c mem => of_decide_eq_true (List.mem_rtakeWhile_imp (p := fun c => decide (c = '0')) mem)⟩
    rw [← zeros, List.rdropWhile_append_rtakeWhile]
  · intro last
    have filled : digits.rdropWhile (· = '0') ≠ [] := by
      intro none
      rw [none] at last
      cases last
    rw [List.getLast?_eq_some_getLast filled, Option.some_inj] at last
    exact List.rdropWhile_last_not _ _ filled (decide_eq_true last)

theorem ofDigitChars_threeDigits {n : Nat} (few : n < 1000) : Nat.ofDigitChars 10 (threeDigits n) 0 = n := by
  have digit (k : Nat) : (Nat.digitChar (k % 10)).toNat - '0'.toNat = k % 10 := by
    rw [Nat.toNat_digitChar_of_lt_ten (Nat.mod_lt k (by decide))]
    exact Nat.add_sub_cancel_left 48 (k % 10)
  simp only [threeDigits, Nat.ofDigitChars_cons, Nat.ofDigitChars_nil, digit]
  omega

/-- The digits of some thousandths, but for zeros at the end. -/
theorem places_thousandths {n : Nat} (some : 0 < n) (few : n < 1000) :
    Places (dropTrailingZeros (threeDigits n)) ∧ placeValue (dropTrailingZeros (threeDigits n)) = n / 1000 := by
  obtain ⟨⟨count, eq⟩, last⟩ := dropTrailingZeros_spec (threeDigits n)
  obtain ⟨three, digits⟩ := threeDigits_spec n
  have whole : placeValue (threeDigits n) = n / 1000 := by
    rw [placeValue, ofDigitChars_threeDigits few, three]
    norm_num
  have value : placeValue (dropTrailingZeros (threeDigits n)) = n / 1000 := by
    rw [← whole]
    conv_rhs => rw [eq]
    rw [placeValue_append_zeros]
  refine ⟨⟨⟨?_, ?_⟩, ?_, last⟩, value⟩
  · by_contra! empty
    have none : dropTrailingZeros (threeDigits n) = [] := List.length_eq_zero_iff.1 (by omega)
    have positive : (0 : Rat) < n / 1000 := by positivity
    rw [none] at value
    exact positive.ne' (value.symm.trans (by simp [placeValue]))
  · have sum := congrArg List.length eq
    rw [three, List.length_append] at sum
    omega
  · intro c mem
    refine digits c ?_
    rw [eq]
    exact List.mem_append_left _ mem

/-! Numbers with a point. -/

/-- A number in groups, alone or with a point and some places after it. -/
inductive IsDecimal : String → Prop where
  | whole (n : Nat) : IsDecimal (grouped n)
  | places (n : Nat) {digits : List Char} (h : Places digits) : IsDecimal (grouped n ++ "." ++ String.ofList digits)

/-- The number that a text stands for: digits with commas among them up to a point, and digits after it. -/
def decimal (text : String) : Rat :=
  ungrouped (String.ofList (text.toList.takeWhile (· ≠ '.'))) + placeValue ((text.toList.dropWhile (· ≠ '.')).drop 1)

theorem not_point_of_mem_grouped {n : Nat} {c : Char} (mem : c ∈ (grouped n).toList) : c ≠ '.' := by
  rintro rfl
  obtain ⟨first, more, groups⟩ := exists_groups n
  rw [groups.text_eq] at mem
  rcases List.mem_append.1 mem with front | later
  · exact absurd (groups.digits _ front) (by decide)
  · obtain ⟨group, listed, mem⟩ := List.mem_flatMap.1 later
    rcases List.mem_cons.1 mem with comma | digit
    · cases comma
    · exact absurd ((groups.three group listed).2 _ digit) (by decide)

theorem decimal_grouped (n : Nat) : decimal (grouped n) = n := by
  have plain : ∀ c ∈ (grouped n).toList, decide (c ≠ '.') = true :=
    fun c mem => decide_eq_true (not_point_of_mem_grouped mem)
  rw [decimal, List.takeWhile_eq_self_iff.2 plain, List.dropWhile_eq_nil_iff.2 plain, String.ofList_toList,
    ungrouped_grouped]
  simp [placeValue]

theorem decimal_places (n : Nat) (digits : List Char) :
    decimal (grouped n ++ "." ++ String.ofList digits) = n + placeValue digits := by
  have plain : ∀ c ∈ (grouped n).toList, decide (c ≠ '.') = true :=
    fun c mem => decide_eq_true (not_point_of_mem_grouped mem)
  have text : (grouped n ++ "." ++ String.ofList digits).toList = (grouped n).toList ++ '.' :: digits := by simp
  rw [decimal, text, List.takeWhile_append_of_pos plain, List.dropWhile_append_of_pos plain]
  simp [ungrouped_grouped]

end CycleChart.Text
