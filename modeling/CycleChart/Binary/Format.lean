import CycleChart.Binary.Exact

namespace CycleChart.Binary

/-- A binary format. Magnitudes are multiples of two to the `lowest`, and infinite from two to the `highest` on. -/
structure Format where
  precision : Nat
  lowest : Int
  highest : Int
deriving DecidableEq

def binary32 : Format := ⟨24, -149, 128⟩
def binary64 : Format := ⟨53, -1074, 1024⟩

def twoPow (k : Int) : Rat :=
  if 0 ≤ k then (Nat.pow 2 k.toNat : Rat) else 1 / (Nat.pow 2 (-k).toNat : Rat)

/-- The exponent of the greatest power of two that is not above `q`, for a positive `q`. -/
def log2 (q : Rat) : Int :=
  let k : Int := (q.num.toNat.log2 : Int) - (q.den.log2 : Int)
  if twoPow k ≤ q then k else k - 1

/-- The whole number nearest to `q`, a half going to the even neighbour. -/
def nearestEven (q : Rat) : Nat :=
  let whole := q.num.toNat / q.den
  let twice := 2 * (q.num.toNat % q.den)
  if twice < q.den then whole
  else if q.den < twice then whole + 1
  else whole + whole % 2

namespace Format

/-- Exponent of the spacing of the format around the magnitude `q`. -/
def unit (f : Format) (q : Rat) : Int :=
  if q = 0 then f.lowest else max (log2 q - (f.precision - 1)) f.lowest

/-- How many units the magnitude `q` has, to the nearest. -/
def units (f : Format) (q : Rat) : Nat :=
  nearestEven (q / twoPow (f.unit q))

def nearest (f : Format) : Exact → Exact
  | .nan => .nan
  | .infinite s => .infinite s
  | .finite s q =>
    let rounded := (f.units q : Rat) * twoPow (f.unit q)
    if twoPow f.highest ≤ rounded then .infinite s else .finite s rounded

end Format
end CycleChart.Binary
