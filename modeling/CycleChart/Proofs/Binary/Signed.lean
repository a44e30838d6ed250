import CycleChart.Proofs.Binary.Enclosure

namespace CycleChart.Binary

theorem nearestEven_error {q : Rat} (h : 0 ≤ q) : |(nearestEven q : Rat) - q| ≤ 1 / 2 := by
  obtain ⟨whole, low, high, eq⟩ := nearestEven_spec h
  have least : (0 : Rat) ≤ (whole % 2 : Nat) := Nat.cast_nonneg _
  have most : ((whole % 2 : Nat) : Rat) ≤ 1 := by
    exact_mod_cast Nat.le_of_lt_succ (Nat.mod_lt whole two_pos)
  rw [eq, abs_le]
  split_ifs
  · constructor <;> linarith
  · rw [Nat.cast_add, Nat.cast_one]
    constructor <;> linarith
  · rw [Nat.cast_add]
    constructor <;> linarith

namespace Format

variable {f : Format} {p q v w : Rat}

@[simp] theorem rounded_zero (f : Format) : f.rounded 0 = 0 := by
  simp [rounded, units, nearestEven]

/-- The unit of a magnitude up to a power of two. -/
theorem unit_le {k : Int} (h : 0 ≤ q) (le : q ≤ 2 ^ k) (low : f.lowest ≤ k - f.precision + 1) :
    f.unit q ≤ k - f.precision + 1 := by
  rcases h.eq_or_lt with rfl | pos
  · rwa [unit, if_pos rfl]
  · have exponent := two_zpow_le_iff.1 ((zpow_log2_le pos).1.trans le)
    rw [unit_of_pos pos]
    omega

theorem rounded_error {k : Int} (h : 0 ≤ q) (le : q ≤ 2 ^ k) (low : f.lowest ≤ k - f.precision + 1) :
    |f.rounded q - q| ≤ 2 ^ (k - f.precision) := by
  have unit := unit_le h le low
  have pos := two_zpow_pos (f.unit q)
  have error := nearestEven_error (div_nonneg h pos.le)
  have scaled : f.rounded q - q = ((f.units q : Rat) - q / 2 ^ f.unit q) * 2 ^ f.unit q := by
    rw [rounded, sub_mul, div_mul_cancel₀ _ pos.ne']
  rw [units, twoPow_eq_zpow] at scaled
  rw [scaled, abs_mul, abs_of_pos pos]
  calc |(nearestEven (q / 2 ^ f.unit q) : Rat) - q / 2 ^ f.unit q| * 2 ^ f.unit q
    _ ≤ 1 / 2 * 2 ^ f.unit q := mul_le_mul_of_nonneg_right error pos.le
    _ = 2 ^ (f.unit q - 1) := by rw [sub_eq_add_neg, two_zpow_add]; norm_num; ring
    _ ≤ 2 ^ (k - f.precision) := two_zpow_le_iff.2 (by omega)

/-- The number that takes the place of another one. Signs make no difference. -/
def near (f : Format) (v : Rat) : Rat := if v < 0 then -f.rounded (-v) else f.rounded v

theorem near_of_nonneg (h : 0 ≤ v) : f.near v = f.rounded v := if_neg (not_lt.2 h)

theorem near_of_nonpos (h : v ≤ 0) : f.near v = -f.rounded (-v) := by
  rcases h.eq_or_lt with rfl | negative
  · simp [near]
  · exact if_pos negative

theorem near_neg (f : Format) (v : Rat) : f.near (-v) = -f.near v := by
  rcases le_total 0 v with h | h
  · rw [near_of_nonneg h, near_of_nonpos (neg_nonpos.2 h), neg_neg]
  · rw [near_of_nonpos h, near_of_nonneg (neg_nonneg.2 h), neg_neg]

theorem near_nonneg (h : 0 ≤ v) : 0 ≤ f.near v := by
  rw [near_of_nonneg h]
  exact f.rounded_nonneg v

theorem near_nonpos (h : v ≤ 0) : f.near v ≤ 0 := by
  rw [near_of_nonpos h]
  linarith [f.rounded_nonneg (-v)]

theorem near_mono (positive : 0 < f.precision) (le : v ≤ w) : f.near v ≤ f.near w := by
  rcases le_total 0 v with h | h
  · rw [near_of_nonneg h, near_of_nonneg (h.trans le)]
    exact rounded_mono positive h le
  · rcases le_total w 0 with h' | h'
    · rw [near_of_nonpos h, near_of_nonpos h']
      exact neg_le_neg (rounded_mono positive (by linarith) (by linarith))
    · exact (near_nonpos h).trans (near_nonneg h')

theorem Holds.near (h : f.Holds |v|) : f.near v = v := by
  rcases le_total 0 v with sign | sign
  · rw [abs_of_nonneg sign] at h
    rw [near_of_nonneg sign, h.rounded]
  · rw [abs_of_nonpos sign] at h
    rw [near_of_nonpos sign, h.rounded, neg_neg]

theorem near_error {k : Int} (le : |v| ≤ 2 ^ k) (low : f.lowest ≤ k - f.precision + 1) :
    |f.near v - v| ≤ 2 ^ (k - f.precision) := by
  rcases le_total 0 v with sign | sign
  · rw [abs_of_nonneg sign] at le
    rw [near_of_nonneg sign]
    exact rounded_error sign le low
  · rw [abs_of_nonpos sign] at le
    have error := rounded_error (f := f) (neg_nonneg.2 sign) le low
    rw [near_of_nonpos sign, ← abs_neg]
    convert error using 2
    ring

/-- What takes the place of a magnitude is one of the format's. -/
theorem holds_rounded (positive : 0 < f.precision) (h : 0 ≤ q) (finite : f.rounded q < 2 ^ f.highest) :
    f.Holds (f.rounded q) := by
  rcases (f.units_le h).eq_or_lt with full | less
  -- all digits were carried over, which leaves a one with a greater unit
  · refine ⟨2 ^ (f.precision - 1), f.unit q + 1, ?_, Nat.pow_lt_pow_right (by decide) (by omega), ?_, finite⟩
    · have digits : f.precision = f.precision - 1 + 1 := by omega
      have half : (2 : Rat) ^ f.precision = 2 ^ (f.precision - 1) * 2 := by
        conv_lhs => rw [digits, pow_succ]
      rw [rounded, full, two_zpow_add, zpow_one]
      push_cast
      rw [half]
      ring
    · exact (f.lowest_le_unit q).trans (by omega)
  · exact ⟨f.units q, f.unit q, rfl, less, f.lowest_le_unit q, finite⟩

/-- Numbers up to a power of two do not round to infinity. -/
theorem abs_near_le {k : Int} (le : |v| ≤ 2 ^ k) (low : f.lowest ≤ k) (positive : 0 < f.precision)
    (high : k < f.highest) : |f.near v| ≤ 2 ^ k := by
  have power : f.Holds |(2 : Rat) ^ k| := by
    have eq : |(2 : Rat) ^ k| = ((1 : Nat) : Rat) * 2 ^ k := by
      rw [abs_of_pos (two_zpow_pos k), Nat.cast_one, one_mul]
    exact ⟨1, k, eq, Nat.one_lt_two_pow positive.ne', low,
      by rw [abs_of_pos (two_zpow_pos k)]; exact two_zpow_lt_iff.2 high⟩
  have upper := near_mono positive (abs_le.1 le).2
  have lower := near_mono positive (abs_le.1 le).1
  rw [power.near] at upper
  rw [Holds.near (by rwa [abs_neg])] at lower
  exact abs_le.2 ⟨lower, upper⟩

end Format

namespace Exact

variable {x y : Exact} {a b c d v w : Rat}

theorem Within.nearest_near {f : Format} (positive : 0 < f.precision) {k : Int} (h : x.Within a b)
    (low : f.lowest ≤ k) (high : k < f.highest) (ha : |a| ≤ 2 ^ k) (hb : |b| ≤ 2 ^ k) :
    (f.nearest x).Within (f.near a) (f.near b) := by
  obtain ⟨s, q, rfl, pos⟩ := h.exists_finite
  obtain ⟨-, above, below⟩ := h
  have value : (if s then -f.rounded q else f.rounded q) = f.near (finite s q).value := by
    cases s
    · exact (Format.near_of_nonneg pos).symm
    · rw [Exact.value, Format.near_of_nonpos (by linarith), neg_neg]
      rfl
  have least := Format.near_mono positive above
  have most := Format.near_mono positive below
  have finite : ¬2 ^ f.highest ≤ f.rounded q := by
    have bound := two_zpow_lt_iff.2 high
    have lower := abs_le.1 (Format.abs_near_le ha low positive high)
    have upper := abs_le.1 (Format.abs_near_le hb low positive high)
    rw [← value] at least most
    cases s <;> simp only [Bool.false_eq_true, if_true, if_false] at least most <;> linarith
  rw [Format.nearest_finite, if_neg finite]
  refine ⟨f.rounded_nonneg q, ?_, ?_⟩
  · rw [← value] at least
    cases s <;> exact least
  · rw [← value] at most
    cases s <;> exact most

/-- Whether a number is finite and stands for a rational number. -/
def HasValue (v : Rat) (x : Exact) : Prop := x.Within v v

theorem HasValue.eq_finite (h : x.HasValue v) (positive : 0 < v) : x = finite false v := by
  obtain ⟨s, q, rfl, nonneg⟩ := Within.exists_finite h
  obtain ⟨-, low, high⟩ := h
  cases s <;> simp only [value] at low high
  · rw [le_antisymm high low]
  · linarith

theorem HasValue.mul (hx : x.HasValue v) (hy : y.HasValue w) : (x * y).HasValue (v * w) := by
  obtain ⟨s, p, rfl, pos⟩ := Within.exists_finite hx
  obtain ⟨t, q, rfl, pos'⟩ := Within.exists_finite hy
  have left : (finite s p).value = v := le_antisymm hx.2.2 hx.2.1
  have right : (finite t q).value = w := le_antisymm hy.2.2 hy.2.1
  have product := value_mul s t p q
  rw [left, right] at product
  exact ⟨mul_nonneg pos pos', product.ge, product.le⟩

theorem HasValue.div (hx : x.HasValue v) (hy : y.HasValue w) (h : w ≠ 0) : (x / y).HasValue (v / w) := by
  obtain ⟨s, p, rfl, pos⟩ := Within.exists_finite hx
  obtain ⟨t, q, rfl, pos'⟩ := Within.exists_finite hy
  have left : (finite s p).value = v := le_antisymm hx.2.2 hx.2.1
  have right : (finite t q).value = w := le_antisymm hy.2.2 hy.2.1
  have filled : q ≠ 0 := by
    rintro rfl
    apply h
    rw [← right]
    cases t <;> simp [value]
  have quotient := value_div s t p filled
  rw [left, right] at quotient
  have eq : finite s p / finite t q = finite (s != t) (p / q) := by
    change Exact.div _ _ = _
    rw [Exact.div, if_neg filled]
  rw [eq] at quotient ⊢
  exact ⟨div_nonneg pos pos', quotient.ge, quotient.le⟩

theorem HasValue.lt_iff (hx : x.HasValue v) (hy : y.HasValue w) : x.lt y = true ↔ v < w := by
  obtain ⟨s, p, rfl, -⟩ := Within.exists_finite hx
  obtain ⟨t, q, rfl, -⟩ := Within.exists_finite hy
  have left : (finite s p).value = v := le_antisymm hx.2.2 hx.2.1
  have right : (finite t q).value = w := le_antisymm hy.2.2 hy.2.1
  rw [Exact.lt, left, right, decide_eq_true_iff]

/-- A product of magnitudes lies between the products of their bounds. -/
theorem Within.mul (hx : x.Within a b) (hy : y.Within c d) (ha : 0 ≤ a) (hc : 0 ≤ c) :
    (x * y).Within (a * c) (b * d) := by
  obtain ⟨s, p, rfl, pos⟩ := hx.exists_finite
  obtain ⟨t, q, rfl, pos'⟩ := hy.exists_finite
  obtain ⟨-, low, high⟩ := hx
  obtain ⟨-, low', high'⟩ := hy
  have product := value_mul s t p q
  refine ⟨mul_nonneg pos pos', ?_⟩
  change a * c ≤ (finite s p * finite t q).value ∧ (finite s p * finite t q).value ≤ b * d
  rw [product]
  exact ⟨mul_le_mul low low' hc (ha.trans low),
    mul_le_mul high high' (hc.trans low') (ha.trans (low.trans high))⟩

theorem Within.div (hx : x.Within a b) (hy : y.HasValue w) (h : 0 < w) : (x / y).Within (a / w) (b / w) := by
  obtain ⟨s, p, rfl, pos⟩ := hx.exists_finite
  have value : (finite s p).HasValue (finite s p).value := ⟨pos, le_rfl, le_rfl⟩
  have quotient := value.div hy h.ne'
  exact Within.mono quotient (div_le_div_of_nonneg_right hx.2.1 h.le) (div_le_div_of_nonneg_right hx.2.2 h.le)

end Exact

namespace Double

variable {x : Exact} {d e : Double} {a b v w : Rat} {k : Int}

theorem near_error (le : |v| ≤ 2 ^ k) (low : -1022 ≤ k) : |binary64.near v - v| ≤ 2 ^ (k - 53) :=
  Format.near_error le (by simp only [binary64]; omega)

theorem abs_near_le (le : |v| ≤ 2 ^ k) (low : -1074 ≤ k) (high : k < 1024) : |binary64.near v| ≤ 2 ^ k :=
  Format.abs_near_le le low (by decide) high

theorem near_mono (le : v ≤ w) : binary64.near v ≤ binary64.near w := Format.near_mono (by decide) le

theorem holds_near (nonneg : 0 ≤ v) (le : v ≤ 2 ^ k) (low : -1074 ≤ k) (high : k < 1024) :
    binary64.Holds (binary64.near v) := by
  have bound := (abs_le.1 (abs_near_le (v := v) (by rwa [abs_of_nonneg nonneg]) low high)).2
  have finite : binary64.near v < 2 ^ binary64.highest := bound.trans_lt (two_zpow_lt_iff.2 high)
  rw [Format.near_of_nonneg nonneg] at finite ⊢
  exact Format.holds_rounded (by decide) nonneg finite

theorem near_near (nonneg : 0 ≤ v) (le : v ≤ 2 ^ k) (low : -1074 ≤ k) (high : k < 1024) :
    binary64.near (binary64.near v) = binary64.near v := by
  apply Format.Holds.near
  rw [abs_of_nonneg (Format.near_nonneg nonneg)]
  exact holds_near nonneg le low high

theorem within_ofExact_near (h : x.Within a b) (ha : |a| ≤ 2 ^ k) (hb : |b| ≤ 2 ^ k) (low : -1074 ≤ k)
    (high : k < 1024) : (ofExact x).exact.Within (binary64.near a) (binary64.near b) := by
  obtain ⟨s, q, rfl, pos⟩ := h.exists_finite
  rw [exact_ofExact_finite s pos]
  exact h.nearest_near (by decide) low high ha hb

/-- The next double is at most an error above the greatest number. -/
theorem within_ofExact_add (h : x.Within 0 b) (le : b ≤ 2 ^ k) (low : -1022 ≤ k) (high : k < 1024) :
    (ofExact x).exact.Within 0 (b + 2 ^ (k - 53)) := by
  obtain ⟨s, q, rfl, -⟩ := h.exists_finite
  have bound : |b| ≤ 2 ^ k := by rwa [abs_of_nonneg h.le]
  have least : |(0 : Rat)| ≤ 2 ^ k := by
    rw [abs_zero]
    exact (two_zpow_pos k).le
  have none : binary64.near 0 = 0 := Format.Holds.near holds_zero
  have rounded := within_ofExact_near h least bound (by omega) high
  rw [none] at rounded
  exact rounded.mono le_rfl (by linarith [(abs_le.1 (near_error bound low)).2])

theorem hasValue_ofExact (h : x.HasValue v) (le : |v| ≤ 2 ^ k) (low : -1074 ≤ k) (high : k < 1024) :
    (ofExact x).exact.HasValue (binary64.near v) :=
  within_ofExact_near h le le low high

theorem holds_of_small {i : Int} (small : i.natAbs < 2 ^ 53) : binary64.Holds |(i : Rat)| :=
  Format.holds_int small (by decide) (by decide)

theorem hasValue_ofNat {n : Nat} (small : n < 2 ^ 53) : (ofNat n).exact.HasValue n := by
  have holds : binary64.Holds |(n : Rat)| := holds_of_small (i := n) (by omega)
  exact within_ofExact (Exact.within_ofRat n) holds holds

theorem hasValue_zero : (0 : Double).exact.HasValue 0 := by
  have zero : (ofNat 0).exact.HasValue (0 : Nat) := hasValue_ofNat (by decide)
  rwa [Nat.cast_zero] at zero

theorem hasValue_one : (1 : Double).exact.HasValue 1 := by
  have one : (ofNat 1).exact.HasValue (1 : Nat) := hasValue_ofNat (by decide)
  rwa [Nat.cast_one] at one

theorem hasValue_two : (2 : Double).exact.HasValue 2 := by
  have two : (ofNat 2).exact.HasValue (2 : Nat) := hasValue_ofNat (by decide)
  rwa [Nat.cast_ofNat] at two

theorem hasValue_floor (h : d.exact.HasValue v) (small : ⌊v⌋.natAbs < 2 ^ 53) : d.floor.exact.HasValue ⌊v⌋ :=
  within_ofExact h.floor (holds_of_small small) (holds_of_small small)

theorem hasValue_ceil (h : d.exact.HasValue v) (small : ⌈v⌉.natAbs < 2 ^ 53) : d.ceil.exact.HasValue ⌈v⌉ :=
  within_ofExact h.ceil (holds_of_small small) (holds_of_small small)

theorem toInt32_of_hasValue {i : Int} (h : d.exact.HasValue i) (low : -0x80000000 ≤ i) (high : i ≤ 0x7FFFFFFF) :
    d.toInt32 = i := by
  obtain ⟨least, most⟩ := Exact.Within.clampTo h low high
  exact le_antisymm most least

theorem toUInt32_round_le (h : d.exact.Within 0 b) (small : b ≤ 1024) : (d.round.toUInt32.toNat : Rat) ≤ b + 1 / 2 := by
  have nonneg : 0 ≤ ⌊b + 1 / 2⌋ := Int.floor_nonneg.2 (by linarith [h.le])
  have most : ⌊b + 1 / 2⌋ ≤ 1024 := Int.lt_add_one_iff.1 (Int.floor_lt.2 (by push_cast; linarith))
  have zero : ⌈(0 : Rat) - 1 / 2⌉ = 0 := by norm_num
  have near := h.round_near
  rw [zero] at near
  have rounded : d.round.exact.Within (0 : Int) ⌊b + 1 / 2⌋ :=
    within_ofExact near (holds_of_small (by decide)) (holds_of_small (by omega))
  obtain ⟨low, high⟩ := rounded.clampTo (le_refl 0) (show _ ≤ 0xFFFFFFFF by omega)
  have clamped : (d.round.toUInt32.toNat : Int) = d.round.exact.clampTo 0 0xFFFFFFFF := by
    rw [toUInt32, UInt32.toNat_ofNat_of_lt' (show _ < 2 ^ 32 by omega)]
    omega
  calc (d.round.toUInt32.toNat : Rat)
    _ = ((d.round.exact.clampTo 0 0xFFFFFFFF : Int) : Rat) := by exact_mod_cast clamped
    _ ≤ (⌊b + 1 / 2⌋ : Rat) := Int.cast_le.2 high
    _ ≤ b + 1 / 2 := Int.floor_le _

end Double
end CycleChart.Binary
