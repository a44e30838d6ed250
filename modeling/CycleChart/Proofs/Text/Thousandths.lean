import CycleChart.Proofs.Text.Places

namespace CycleChart.Text

open Binary (Double Exact Format binary64)

/-- How many thousandths a magnitude on an axis is taken for. -/
def thousandths (q : Rat) : Nat := ⌊binary64.near (q * 1000) + 1 / 2⌋₊

/-- The double that is nearest to some thousandths. -/
def nearThousandths (k : Nat) : Rat := binary64.near (k / 1000)

/-! Few enough thousandths are told apart by doubles. -/

section

variable {k : Nat}

theorem thousandths_eq (k : Nat) : (k : Rat) / 1000 = (k / 1000 : Nat) + (k % 1000 : Nat) / 1000 := by
  have cut : (k : Rat) = 1000 * (k / 1000 : Nat) + (k % 1000 : Nat) := by
    exact_mod_cast (Nat.div_add_mod k 1000).symm
  rw [div_eq_iff (by norm_num)]
  linarith

/-- Up to a power of two the nearest double to some thousandths is nearer to them than to others. -/
theorem nearThousandths_few (few : k ≤ 1000 * 2 ^ 42) :
    ⌊nearThousandths k⌋ = (k / 1000 : Nat) ∧ |Int.fract (nearThousandths k) * 1000 - (k % 1000 : Nat)| < 1 / 2 ∧
      (k % 1000 = 0 → Int.fract (nearThousandths k) = 0) := by
  have eq := thousandths_eq k
  have le : (k : Rat) / 1000 ≤ 2 ^ (42 : Int) := by
    rw [div_le_iff₀ (by norm_num)]
    norm_num
    exact_mod_cast few
  have error := Double.near_error (v := (k : Rat) / 1000) (k := 42)
    (by rwa [abs_of_nonneg (by positivity)]) (by decide)
  norm_num [abs_le] at error
  have less := Nat.mod_lt k (show 0 < 1000 by decide)
  have whole : k / 1000 ≤ 2 ^ 53 := by omega
  rw [nearThousandths]
  generalize k / 1000 = a at *
  generalize k % 1000 = r at *
  rcases Nat.eq_zero_or_pos r with rfl | some
  · have same : binary64.near ((k : Rat) / 1000) = a := by
      rw [eq, Nat.cast_zero, zero_div, add_zero, Double.near_natCast whole]
    rw [same]
    norm_num
  · have least : (1 : Rat) ≤ r := by exact_mod_cast some
    have most : (r : Rat) ≤ 999 := by exact_mod_cast Nat.le_of_lt_succ less
    have floor : ⌊binary64.near ((k : Rat) / 1000)⌋ = a := by
      rw [Int.floor_eq_iff, Int.cast_natCast]
      constructor <;> linarith
    refine ⟨floor, ?_, fun none => absurd none some.ne'⟩
    rw [Int.fract, floor, Int.cast_natCast, abs_lt]
    constructor <;> linarith

/-- From there on doubles are multiples of a part of one that is almost a thousandth. -/
theorem fract_of_many (many : 1000 * 2 ^ 42 ≤ k) :
    ∃ n : Nat, n < 1024 ∧ Int.fract (nearThousandths k) = n / 1024 := by
  have le : 2 ^ (42 : Int) ≤ (k : Rat) / 1000 := by
    rw [le_div_iff₀ (by norm_num)]
    norm_num
    exact_mod_cast many
  obtain ⟨n, eq⟩ := Format.exists_rounded_eq (f := binary64) le
  have unit : (2 : Rat) ^ ((42 : Int) - (binary64.precision - 1)) = 1 / (1024 : Nat) := by
    norm_num [binary64]
  refine ⟨n % 1024, Nat.mod_lt n (by decide), ?_⟩
  rw [nearThousandths, Format.near_of_nonneg (by positivity), eq, unit, mul_one_div,
    Int.fract_div_natCast_eq_div_natCast_mod]
  norm_num

/-- What is left after the point is nothing, or it is nearer to some thousandths than to none or to all. -/
theorem fract_nearThousandths (k : Nat) :
    Int.fract (nearThousandths k) = 0 ∨
      1 / 2 < Int.fract (nearThousandths k) * 1000 ∧ Int.fract (nearThousandths k) * 1000 < 999 + 1 / 2 := by
  rcases le_total k (1000 * 2 ^ 42) with few | many
  · obtain ⟨-, near, none⟩ := nearThousandths_few few
    have less := Nat.mod_lt k (show 0 < 1000 by decide)
    generalize k % 1000 = r at *
    rcases Nat.eq_zero_or_pos r with rfl | some
    · exact .inl (none rfl)
    · have least : (1 : Rat) ≤ r := by exact_mod_cast some
      have most : (r : Rat) ≤ 999 := by exact_mod_cast Nat.le_of_lt_succ less
      rw [abs_lt] at near
      right
      constructor <;> linarith
  · obtain ⟨n, less, eq⟩ := fract_of_many many
    rw [eq]
    rcases Nat.eq_zero_or_pos n with rfl | some
    · left
      norm_num
    · have least : (1 : Rat) ≤ n := by exact_mod_cast some
      have most : (n : Rat) ≤ 1023 := by exact_mod_cast Nat.le_of_lt_succ less
      right
      constructor <;> linarith

end

/-! The label as it is written. -/

/-- Thousandths are written in three digits, but for zeros at the end. -/
theorem dropZeroPoint_threePlaces {q : Rat} (low : 1 / 2 < q * 1000) (high : q * 1000 < 999 + 1 / 2) :
    0 < Binary.nearestEven (q * 1000) ∧ Binary.nearestEven (q * 1000) < 1000 ∧
      dropZeroPoint (threePlaces (.finite false q)) = threeDigits (Binary.nearestEven (q * 1000)) := by
  obtain ⟨some, few⟩ := Binary.nearestEven_mem (q * 1000) 1 999
    (by norm_num; linarith) (by norm_num; linarith) (by linarith)
  refine ⟨some, Nat.lt_succ_of_le few, ?_⟩
  simp only [threePlaces, Nat.div_eq_of_lt (Nat.lt_succ_of_le few), Nat.mod_eq_of_lt (Nat.lt_succ_of_le few)]
  rfl

/-- A magnitude as it is written: its whole part, and what is left of it in thousandths. -/
def written (w : Rat) : String :=
  if Int.fract w = 0 then grouped (min ⌊w⌋₊ 0xFFFFFFFFFFFFFFFF)
  else grouped (min ⌊w⌋₊ 0xFFFFFFFFFFFFFFFF) ++ "." ++
    String.ofList (dropTrailingZeros (threeDigits (Binary.nearestEven (Int.fract w * 1000))))

/-- The label of a value, by the double that it is rounded to. -/
theorem axisLabel_of_hasValue {v : Double} {w : Rat} (h : ((v.max 0 * 1000).round / 1000).exact.HasValue w)
    (held : binary64.Holds w)
    (parts : Int.fract w = 0 ∨ 1 / 2 < Int.fract w * 1000 ∧ Int.fract w * 1000 < 999 + 1 / 2) :
    axisLabel v = written w := by
  simp only [axisLabel, written]
  generalize (v.max 0 * 1000).round / 1000 = x at *
  have fraction := Double.hasValue_fraction h held
  have whole : x.trunc.toUInt64.toNat = min ⌊w⌋₊ 0xFFFFFFFFFFFFFFFF := by
    apply Double.toUInt64_of_hasValue
    rw [natCast_floor_eq_intCast_floor held.nonneg]
    exact Double.hasValue_trunc h held
  rw [whole]
  split
  · rename_i none
    rw [if_pos ((Double.isZero_iff fraction).1 none)]
  · rename_i some
    rw [Double.isZero_iff fraction] at some
    rw [if_neg some, fraction.eq_finite ((Int.fract_nonneg w).lt_of_ne' some)]
    obtain ⟨low, high⟩ := parts.resolve_left some
    rw [(dropZeroPoint_threePlaces low high).2.2]

/-! From the value to the double that is written. -/

theorem hasValue_thousand : (1000 : Double).exact.HasValue 1000 := by
  have thousand : (Double.ofNat 1000).exact.HasValue (1000 : Nat) := Double.hasValue_ofNat (by decide)
  rwa [Nat.cast_ofNat] at thousand

/-- The magnitude that a value on an axis stands for. What is below zero or not a number stands for zero. -/
def magnitude (v : Double) : Rat := max v.exact.value 0

theorem magnitude_mem {v : Double} {k : Int} (h : v.exact.AtMost (2 ^ k)) : 0 ≤ magnitude v ∧ magnitude v ≤ 2 ^ k :=
  ⟨le_max_right _ _, max_le (h.value_le (Binary.two_zpow_pos k).le) (Binary.two_zpow_pos k).le⟩

section

variable {q : Rat}

theorem mul_thousand_le (le : q ≤ 2 ^ (65 : Int)) : q * 1000 ≤ 2 ^ (75 : Int) := by
  norm_num at le ⊢
  linarith

variable (nonneg : 0 ≤ q) (le : q ≤ 2 ^ (65 : Int))
include nonneg le

theorem thousandths_le : (thousandths q : Rat) / 1000 ≤ 2 ^ (66 : Int) := by
  have scaled : |q * 1000| ≤ 2 ^ (75 : Int) := by
    rw [abs_of_nonneg (by positivity)]
    exact mul_thousand_le le
  have bound := (abs_le.1 (Double.abs_near_le scaled (by decide) (by decide))).2
  have positive : 0 ≤ binary64.near (q * 1000) := Format.near_nonneg (by positivity)
  have floor : (thousandths q : Rat) ≤ binary64.near (q * 1000) + 1 / 2 := Nat.floor_le (by linarith)
  norm_num at bound ⊢
  linarith

theorem holds_nearThousandths : binary64.Holds (nearThousandths (thousandths q)) :=
  Double.holds_near (by positivity) (thousandths_le nonneg le) (by decide) (by decide)

end

/-- A value is scaled, rounded and scaled back. -/
theorem hasValue_nearThousandths {v : Double} (h : v.exact.AtMost (2 ^ (65 : Int))) :
    ((v.max 0 * 1000).round / 1000).exact.HasValue (nearThousandths (thousandths (magnitude v))) := by
  have kept : (v.max 0).exact.HasValue (magnitude v) := Double.hasValue_max_zero h
  obtain ⟨nonneg, le⟩ := magnitude_mem h
  generalize magnitude v = q at *
  have size := mul_thousand_le le
  have most := thousandths_le nonneg le
  have scaled : (v.max 0 * 1000).exact.HasValue (binary64.near (q * 1000)) :=
    Double.hasValue_ofExact (kept.mul hasValue_thousand) (by rwa [abs_of_nonneg (by positivity)]) (by decide) (by decide)
  have held : binary64.Holds (binary64.near (q * 1000)) := Double.holds_near (by positivity) size (by decide) (by decide)
  have rounded : (v.max 0 * 1000).round.exact.HasValue (thousandths q) := by
    have nearest := Double.hasValue_round scaled held
    rwa [← natCast_floor_eq_intCast_floor (by linarith [held.nonneg])] at nearest
  exact Double.hasValue_ofExact (rounded.div hasValue_thousand (by norm_num))
    (by rwa [abs_of_nonneg (by positivity)]) (by decide) (by decide)

/-- The label of a value is its magnitude, rounded to thousandths and then to a double. -/
theorem axisLabel_eq {v : Double} (h : v.exact.AtMost (2 ^ (65 : Int))) :
    axisLabel v = written (nearThousandths (thousandths (magnitude v))) := by
  obtain ⟨nonneg, le⟩ := magnitude_mem h
  exact axisLabel_of_hasValue (hasValue_nearThousandths h) (holds_nearThousandths nonneg le) (fract_nearThousandths _)

/-- A label is a number in groups, alone or with places of which the last one says something. -/
theorem isDecimal_axisLabel {v : Double} (h : v.exact.AtMost (1.15 * 2 ^ 64)) : IsDecimal (axisLabel v) := by
  have reach : v.exact.AtMost (2 ^ (65 : Int)) := h.mono (by norm_num)
  rw [axisLabel_eq reach, written]
  split
  · exact .whole _
  · rename_i some
    obtain ⟨low, high⟩ := (fract_nearThousandths _).resolve_left some
    obtain ⟨positive, few, -⟩ := dropZeroPoint_threePlaces low high
    exact .places _ (places_thousandths positive few).1

/-- The greatest double below a power of two is half a thousandth below it, and is carried to the power. -/
theorem isDecimal_axisLabel_carried :
    (4398046511103.9995 : Double).exact.AtMost (1.15 * 2 ^ 64) ∧ IsDecimal (axisLabel 4398046511103.9995) :=
  have size : (4398046511103.9995 : Double).exact.AtMost (1.15 * 2 ^ 64) := by
    have eq : (4398046511103.9995 : Double).exact = .finite false (9007199254740991 / 2048) := by decide +kernel
    rw [eq]
    exact .finite (by norm_num) (by norm_num [Exact.value])
  ⟨size, isDecimal_axisLabel size⟩

example : [0, 1.5, 4398046511103.9995, 72057594037929].map axisLabel =
    ["0", "1.5", "4,398,046,511,104", "72,057,594,037,928.984"] := by
  decide +kernel

end CycleChart.Text
