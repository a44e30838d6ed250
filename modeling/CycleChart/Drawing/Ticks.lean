import CycleChart.Binary.Logarithm

namespace CycleChart.Drawing

open Binary (Double)

/-- The spacing of doubles above one. -/
def tolerance : Double := .ofRat (1 / 0x10000000000000)

/-- What is left of `a` after whole steps of `b`. A whole step that is left by rounding is nothing. -/
def leftOver (a b : Double) : Double :=
  let rest := a - (a / b).floor * b
  let short := if (rest - b).lt 0 then -(rest - b) else rest - b
  if short.lt tolerance then 0 else rest

def tenTo (k : Int) : Double := if 0 ≤ k then .ofNat (Nat.pow 10 k.toNat) else 1 / .ofNat (Nat.pow 10 (-k).toNat)

/-- The finest part of a step that still makes few enough marks, and whether all parts do. -/
def refine (stop : Double) (limit : Nat) (coarse : Double) :
    (parts : List Double) → (fine : Double) → Double × Bool
  | [], fine => (fine, true)
  | d :: parts, fine =>
    let right := stop - leftOver stop (coarse / d)
    let marks := 1 + right / coarse * d
    if limit < marks.round.toUInt64.toNat then (fine, false) else refine stop limit coarse parts (coarse / d)

/-- Makes a step finer, to a tenth at a time, as long as it makes few enough marks. -/
def refineStep (stop : Double) (limit : Nat) : (fuel : Nat) → (step : Double) → Double
  | 0, step => step
  | fuel + 1, step =>
    match refine stop limit step [2, 5, 10] step with
    | (_, true) => refineStep stop limit fuel (step / 10)
    | (fine, false) => fine

/-- The distance of the marks. Each round makes ten times as many of them, so `limit` rounds are enough. -/
def tickStep (stop : Double) (limit : Nat) : Double :=
  let step := tenTo stop.decade
  let step := if limit < 1 + (stop / step).floor.toUInt64.toNat then step * 10 else step
  refineStep stop limit limit step

def marksFrom (right step : Double) : (fuel : Nat) → (mark : Double) → List Double
  | 0, _ => []
  | fuel + 1, mark =>
    if (right - mark).lt (-tolerance) then [] else mark :: marksFrom right step fuel (mark + step)

/-- Round values on an axis from zero to `stop`, at most about `limit` of them. -/
def ticks (stop : Double) (limit : Nat) : List Double :=
  let step := tickStep stop limit
  marksFrom (stop - leftOver stop step) step (2 * limit) 0

end CycleChart.Drawing
