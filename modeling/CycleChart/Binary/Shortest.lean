import CycleChart.Binary.Double

namespace CycleChart.Binary

def tenPow (k : Int) : Rat :=
  if 0 ≤ k then (Nat.pow 10 k.toNat : Rat) else 1 / (Nat.pow 10 (-k).toNat : Rat)

/-- The exponent of the greatest power of ten that is not above `q`, for a positive `q`. -/
def log10 (q : Rat) : Int :=
  if 1 ≤ q then ((Nat.toDigits 10 q.floor.toNat).length : Int) - 1
  else -((Nat.toDigits 10 ((1 / q).ceil.toNat - 1)).length : Int)

/-- Whether the double nearest to `r` is the double `q`, both positive. -/
def readsBack (q r : Rat) : Bool :=
  let unit := binary64.unit q
  let count := binary64.units q
  let above := q + twoPow unit / 2
  let below :=
    if count = 0x10000000000000 ∧ binary64.lowest < unit then q - twoPow unit / 4 else q - twoPow unit / 2
  if count % 2 = 0 then below ≤ r && r ≤ above else below < r && r < above

/-- The number of units of ten to the `exponent` that reads back as `q` and lies nearest to it. -/
def onGrid? (q : Rat) (exponent : Int) : Option Nat :=
  let scaled := q / tenPow exponent
  let down := scaled.floor.toNat
  let up := down + 1
  let isDown := readsBack q (down * tenPow exponent)
  let isUp := readsBack q (up * tenPow exponent)
  if isDown && (!isUp || scaled - down < up - scaled || (scaled - down = up - scaled && down % 2 = 0)) then
    some down
  else if isUp then some up
  else none

/-- The fewest digits that read back as `q`, and the exponent of the last of them. -/
def shortestFrom (q : Rat) (top : Int) : (digits left : Nat) → Nat × Int
  | _, 0 => ((q / tenPow (top - 16)).floor.toNat, top - 16)
  | digits, left + 1 =>
    match onGrid? q (top - digits) with
    | some n => (n, top - digits)
    | none => shortestFrom q top (digits + 1) left

def shortest (q : Rat) : Nat × Int := shortestFrom q (log10 q) 0 17

def stripZeros : (fuel n : Nat) → (exponent : Int) → Nat × Int
  | 0, n, e => (n, e)
  | fuel + 1, n, e => if n ≠ 0 ∧ n % 10 = 0 then stripZeros fuel (n / 10) (e + 1) else (n, e)

/-- A positive magnitude in the fewest digits, plain from `0.00001` up to sixteen digits before the point. -/
def magnitudeText (q : Rat) : String :=
  let (n, e) := shortest q
  let (n, e) := stripZeros 18 n e
  let digits := Nat.toDigits 10 n
  let size : Int := digits.length
  let top := e + size - 1
  let zeros (k : Int) : List Char := List.replicate k.toNat '0'
  let text :=
    if top < -5 ∨ 15 < top then
      let head := digits.take 1 ++ (if digits.length = 1 then [] else '.' :: digits.drop 1)
      let sign := if top < 0 then '-' else '+'
      head ++ 'e' :: sign :: Nat.toDigits 10 top.natAbs
    else if top < 0 then '0' :: '.' :: zeros (-top - 1) ++ digits
    else if 0 ≤ e then digits ++ zeros e ++ ['.', '0']
    else digits.take (top + 1).toNat ++ '.' :: digits.drop (top + 1).toNat
  String.ofList text

/-- A double in the fewest digits that read back. -/
def Double.text (d : Double) : String :=
  match d.exact with
  | .nan => "NaN"
  | .infinite s => if s then "-inf" else "inf"
  | .finite s q =>
    let sign := if s then "-" else ""
    if q = 0 then sign ++ "0.0" else sign ++ magnitudeText q

end CycleChart.Binary
