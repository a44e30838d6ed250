import CycleChart.Binary.Double
import CycleChart.Text.Grouped

namespace CycleChart.Text

open Binary

def threeDigits (n : Nat) : List Char :=
  [Nat.digitChar (n / 100 % 10), Nat.digitChar (n / 10 % 10), Nat.digitChar (n % 10)]

/-- A magnitude with three places, the last one to the nearest and a half to the even digit. -/
def threePlaces : Exact → List Char
  | .finite _ q =>
    let thousandths := nearestEven (q * 1000)
    Nat.toDigits 10 (thousandths / 1000) ++ '.' :: threeDigits (thousandths % 1000)
  | .infinite _ => ['i', 'n', 'f']
  | .nan => ['N', 'a', 'N']

def dropZeroPoint : List Char → List Char
  | '0' :: '.' :: digits => digits
  | text => text

def dropTrailingZeros (digits : List Char) : List Char :=
  (digits.reverse.dropWhile (· = '0')).reverse

/-- A value with at most three places and its whole part in groups of three. Values below zero, and what is not a
number, read as zero. -/
def axisLabel (value : Double) : String :=
  let value := (value.max 0 * 1000).round / 1000
  let whole := grouped value.trunc.toUInt64.toNat
  let fraction := value.fraction
  if fraction.isZero then whole
  else
    let digits := dropTrailingZeros (dropZeroPoint (threePlaces fraction.exact))
    whole ++ "." ++ String.ofList digits

end CycleChart.Text
