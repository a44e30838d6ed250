import CycleChart.Binary.Format

namespace CycleChart.Binary

/-- A binary64 number, held as its bits. -/
structure Double where
  bits : UInt64
deriving DecidableEq

namespace Double

def fractionCount : Nat := 0x10000000000000
def infinityBits : Nat := 2047 * fractionCount
def signWeight : Nat := 0x8000000000000000

def exact (d : Double) : Exact :=
  let negative : Bool := signWeight ≤ d.bits.toNat
  let exponent := d.bits.toNat / fractionCount % 2048
  let fraction := d.bits.toNat % fractionCount
  if exponent = 2047 then
    if fraction = 0 then .infinite negative else .nan
  else if exponent = 0 then .finite negative (fraction * twoPow binary64.lowest)
  else .finite negative ((fractionCount + fraction : Nat) * twoPow ((exponent : Int) - 1075))

/-- The double nearest to an exact number. Its bits count units: those of all smaller binades, then those of the
magnitude. -/
def ofExact (x : Exact) : Double :=
  let signed (negative : Bool) (magnitude : Nat) : Double :=
    ⟨UInt64.ofNat ((if negative then signWeight else 0) + min magnitude infinityBits)⟩
  match x with
  | .nan => ⟨UInt64.ofNat (infinityBits + fractionCount / 2)⟩
  | .infinite s => signed s infinityBits
  | .finite s q =>
    signed s ((binary64.unit q - binary64.lowest).toNat * fractionCount + binary64.units q)

def ofRat (q : Rat) : Double := ofExact (.ofRat q)
def ofNat (n : Nat) : Double := ofRat n
def ofInt (n : Int) : Double := ofRat n

instance (n : Nat) : OfNat Double n := ⟨ofNat n⟩

instance : OfScientific Double where
  ofScientific mantissa negative exponent :=
    let power : Rat := (Nat.pow 10 exponent : Rat)
    ofRat (if negative then mantissa / power else mantissa * power)

instance : Inhabited Double := ⟨0⟩

instance : Add Double := ⟨fun a b => ofExact (a.exact + b.exact)⟩
instance : Sub Double := ⟨fun a b => ofExact (a.exact - b.exact)⟩
instance : Mul Double := ⟨fun a b => ofExact (a.exact * b.exact)⟩
instance : Div Double := ⟨fun a b => ofExact (a.exact / b.exact)⟩
instance : Neg Double := ⟨fun a => ofExact (-a.exact)⟩

def isNaN (a : Double) : Bool := a.exact.isNaN

/-- Strictly below, as numbers. The two zeros are equal. -/
def lt (a b : Double) : Bool := a.exact.lt b.exact

def le (a b : Double) : Bool := !a.isNaN && !b.isNaN && !b.lt a

def isZero (a : Double) : Bool := !a.isNaN && !a.lt 0 && !(0 : Double).lt a

/-- The greater of two numbers. An operand that is not a number is passed over. -/
def max (a b : Double) : Double :=
  if a.isNaN then b else if b.isNaN then a else if a.lt b then b else a

/-- The number kept between `low` and `high`. What is not a number stays. -/
def clamp (a low high : Double) : Double :=
  if a.lt low then low else if high.lt a then high else a

def round (a : Double) : Double := ofExact a.exact.round
def trunc (a : Double) : Double := ofExact a.exact.trunc
def floor (a : Double) : Double := ofExact a.exact.floor
def ceil (a : Double) : Double := ofExact a.exact.ceil

def fraction (a : Double) : Double := a - a.trunc

/-- The whole part, kept within the integers of 64 bits without sign. -/
def toUInt64 (a : Double) : UInt64 := UInt64.ofNat (a.exact.clampTo 0 0xFFFFFFFFFFFFFFFF).toNat

def toUInt32 (a : Double) : UInt32 := UInt32.ofNat (a.exact.clampTo 0 0xFFFFFFFF).toNat

def toInt32 (a : Double) : Int := a.exact.clampTo (-0x80000000) 0x7FFFFFFF

end Double
end CycleChart.Binary
