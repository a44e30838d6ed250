namespace CycleChart.Binary

/-- A number as it is before rounding. The sign of a finite number also tells the two zeros apart. -/
inductive Exact where
  | nan
  | infinite (negative : Bool)
  | finite (negative : Bool) (magnitude : Rat)
deriving DecidableEq

namespace Exact

/-- Signed value of a finite number, zero for the others. -/
def value : Exact → Rat
  | finite true q => -q
  | finite false q => q
  | _ => 0

def ofRat (q : Rat) : Exact :=
  if q < 0 then finite true (-q) else finite false q

def zero : Exact := finite false 0

def neg : Exact → Exact
  | nan => nan
  | infinite s => infinite (!s)
  | finite s q => finite (!s) q

/-- A zero sum of two finite numbers is negative only if both of them are. -/
def add : Exact → Exact → Exact
  | nan, _ => nan
  | _, nan => nan
  | infinite s, infinite t => if s = t then infinite s else nan
  | infinite s, finite _ _ => infinite s
  | finite _ _, infinite t => infinite t
  | finite s p, finite t q =>
    let sum := (finite s p).value + (finite t q).value
    if sum = 0 then finite (s && t) 0 else ofRat sum

def sub (x y : Exact) : Exact := add x (neg y)

def mul : Exact → Exact → Exact
  | nan, _ => nan
  | _, nan => nan
  | infinite s, infinite t => infinite (s != t)
  | infinite s, finite t q => if q = 0 then nan else infinite (s != t)
  | finite s p, infinite t => if p = 0 then nan else infinite (s != t)
  | finite s p, finite t q => finite (s != t) (p * q)

def div : Exact → Exact → Exact
  | nan, _ => nan
  | _, nan => nan
  | infinite _, infinite _ => nan
  | infinite s, finite t _ => infinite (s != t)
  | finite s _, infinite t => finite (s != t) 0
  | finite s p, finite t q =>
    if q = 0 then (if p = 0 then nan else infinite (s != t)) else finite (s != t) (p / q)

instance : Add Exact := ⟨add⟩
instance : Sub Exact := ⟨sub⟩
instance : Mul Exact := ⟨mul⟩
instance : Div Exact := ⟨div⟩
instance : Neg Exact := ⟨neg⟩

/-- Nothing is below or above what is not a number. -/
def lt : Exact → Exact → Bool
  | nan, _ => false
  | _, nan => false
  | infinite s, infinite t => s && !t
  | infinite s, finite _ _ => s
  | finite _ _, infinite t => !t
  | finite s p, finite t q => decide ((finite s p).value < (finite t q).value)

def isNaN : Exact → Bool
  | nan => true
  | _ => false

/-- The nearest whole number, a half going away from zero. -/
def round : Exact → Exact
  | finite s q => finite s ((q + 1 / 2).floor : Rat)
  | x => x

def trunc : Exact → Exact
  | finite s q => finite s (q.floor : Rat)
  | x => x

def floor : Exact → Exact
  | finite true q => finite true (q.ceil : Rat)
  | finite false q => finite false (q.floor : Rat)
  | x => x

def ceil : Exact → Exact
  | finite true q => finite true (q.floor : Rat)
  | finite false q => finite false (q.ceil : Rat)
  | x => x

/-- The integer next toward zero, kept between `low` and `high`. What is not a number counts as zero. -/
def clampTo (low high : Int) : Exact → Int
  | nan => 0
  | infinite s => if s then low else high
  | finite true q => max low (min high (-q.floor))
  | finite false q => max low (min high q.floor)

end Exact
end CycleChart.Binary
