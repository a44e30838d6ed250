import CycleChart.Binary.Double

namespace CycleChart.Binary

def logScale : Nat := Nat.pow 2 192

/-- Sum of `count` terms of `z + z ^ 3 / 3 + z ^ 5 / 5 + ...` from `z ^ odd` on, in units of the scale. -/
def oddSeries (square : Nat) : (count odd power : Nat) → Nat
  | 0, _, _ => 0
  | count + 1, odd, power =>
    power / odd + oddSeries square count (odd + 2) (power * square / logScale)

/-- The logarithm of `(den + num) / (den - num)`, in units of the scale, for quotients up to a third. -/
def twiceArtanh (num den : Nat) : Nat :=
  let z := logScale * num / den
  2 * oddSeries (z * z / logScale) 64 1 z

/-- Natural logarithm of a positive number, in units of the scale. -/
def scaledLog (q : Rat) : Int :=
  let e := log2 q
  let m := q / twoPow e
  e * twiceArtanh 1 3 + twiceArtanh (m.num.toNat - m.den) (m.num.toNat + m.den)

namespace Double

def log (a : Double) : Double :=
  ofRat (scaledLog a.exact.value / (logScale : Rat))

/-- The whole part of the logarithm to the base ten, as the quotient of two natural logarithms gives it. -/
def decade (a : Double) : Int := (a.log / log 10).floor.toInt32

end Double
end CycleChart.Binary
