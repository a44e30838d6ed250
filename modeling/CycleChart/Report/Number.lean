import CycleChart.Report.Token

namespace CycleChart.Reading

open Binary (Double)

inductive Number where
  | natural (n : Nat)
  | negative (i : Int)
  | decimal (d : Double)

def maxCount : Nat := 0xFFFFFFFFFFFFFFFF

def digitValue (c : Char) : Nat := c.toNat - 48

/-- Appends digits to a number as long as the result fits a count. Gives how many did not fit. -/
def absorb (n : Nat) : List Char → Nat × Nat
  | [] => (n, 0)
  | c :: digits =>
    let next := n * 10 + digitValue c
    if next ≤ maxCount then absorb next digits else (n, digits.length + 1)

/-- A number times a power of ten, in steps of 308 if that is too small. There is none if the result is too great. -/
def scale? (d : Double) (exponent : Int) : Option Double :=
  if 308 < exponent then if d.isZero then some d else none
  else if 0 ≤ exponent then
    let product := d * .ofNat (Nat.pow 10 exponent.toNat)
    if product.exact = .infinite false then none else some product
  else if -308 ≤ exponent then some (d / .ofNat (Nat.pow 10 (-exponent).toNat))
  else if d.isZero then some d
  else scale? (d / 1e308) (exponent + 308)
termination_by (-exponent).toNat

def decimal? (positive : Bool) (significand : Nat) (exponent : Int) : Option Double :=
  (scale? (.ofNat significand) exponent).map fun d => if positive then d else -d

/-- An integer token. What a count of 64 bits or its negative cannot hold, and the negative zero, is a decimal. -/
def integer (positive : Bool) (n : Nat) : Number :=
  if positive then .natural n
  else if n = 0 ∨ 0x8000000000000000 < n then .decimal (-.ofNat n)
  else .negative (-n)

def takeDigits (s : List Char) : List Char × List Char :=
  (s.takeWhile Char.isDigit, s.dropWhile Char.isDigit)

def decimalAt (positive : Bool) (significand : Nat) (exponent : Int) (rest : List Char) :
    Except Halt (Number × List Char) :=
  match decimal? positive significand exponent with
  | some d => .ok (.decimal d, rest)
  | none => stopAt .numberOutOfRange rest 0

/-- The value of exponent digits, or what follows the first digit with which they are too great to matter. -/
def exponentValue (n : Nat) : List Char → Nat ⊕ List Char
  | [] => .inl n
  | c :: digits =>
    let next := n * 10 + digitValue c
    if next ≤ 0x7FFFFFFF then exponentValue next digits else .inr digits

/-- Whether an exponent goes upward, and what follows its sign. -/
def takeSign : List Char → Bool × List Char
  | '+' :: t => (true, t)
  | '-' :: t => (false, t)
  | t => (true, t)

theorem length_takeSign (s : List Char) : (takeSign s).2.length ≤ s.length := by
  unfold takeSign
  split <;> simp

/-- The exponent of a number, after its letter. -/
def readExponent (positive : Bool) (significand : Nat) (start : Int) (s : List Char) :
    Except Halt (Number × List Char) :=
  let (upward, s) := takeSign s
  let (digits, rest) := takeDigits s
  match digits with
  | [] => if s = [] then stopAt .endInValue [] 0 else stopAt .invalidNumber s 1
  | digits =>
    match exponentValue 0 digits with
    | .inl n => decimalAt positive significand (start + (if upward then (n : Int) else -n)) rest
    | .inr left =>
      if significand ≠ 0 ∧ upward then stopAt .numberOutOfRange (left ++ rest) 0
      else .ok (.decimal (if positive then 0 else -0), rest)

/-- The fraction of a number, after its point. -/
def readFraction (positive : Bool) (significand extra : Nat) (s : List Char) :
    Except Halt (Number × List Char) :=
  let (digits, rest) := takeDigits s
  match digits with
  | [] => if s = [] then stopAt .endInValue [] 0 else stopAt .invalidNumber s 1
  | digits =>
    let (significand, left) := absorb significand digits
    let exponent : Int := (extra : Int) - ((digits.length : Int) - left)
    match rest with
    | 'e' :: t => readExponent positive significand exponent t
    | 'E' :: t => readExponent positive significand exponent t
    | t => decimalAt positive significand exponent t

/-- A number, after its sign. -/
def readNumber (positive : Bool) (s : List Char) : Except Halt (Number × List Char) :=
  let (digits, rest) := takeDigits s
  match digits with
  | [] => if s = [] then stopAt .endInValue [] 0 else stopAt .invalidNumber s 1
  | '0' :: c :: more => stopAt .invalidNumber (c :: more ++ rest) 1
  | digits =>
    let (significand, extra) := absorb 0 digits
    match rest with
    | '.' :: t => readFraction positive significand extra t
    | 'e' :: t => readExponent positive significand extra t
    | 'E' :: t => readExponent positive significand extra t
    | t => if extra = 0 then .ok (integer positive significand, t) else decimalAt positive significand extra t

theorem length_takeDigits (s : List Char) :
    (takeDigits s).1.length + (takeDigits s).2.length = s.length := by
  rw [takeDigits, ← List.length_append, List.takeWhile_append_dropWhile]

theorem length_decimalAt {positive : Bool} {significand : Nat} {exponent : Int} {s r : List Char}
    {n : Number} (h : decimalAt positive significand exponent s = .ok (n, r)) : r = s := by
  unfold decimalAt at h
  split at h
  · simp only [Except.ok.injEq, Prod.mk.injEq] at h
    exact h.2.symm
  · simp [stopAt] at h

theorem length_readExponent {positive : Bool} {significand : Nat} {start : Int} {s r : List Char}
    {n : Number} (h : readExponent positive significand start s = .ok (n, r)) :
    r.length ≤ s.length := by
  unfold readExponent at h
  have signed := length_takeSign s
  have cut := length_takeDigits (takeSign s).2
  simp only at h
  split at h
  · split at h <;> simp [stopAt] at h
  · split at h
    · have := length_decimalAt h
      subst this
      omega
    · split at h
      · simp [stopAt] at h
      · simp only [Except.ok.injEq, Prod.mk.injEq] at h
        rw [← h.2]
        omega

theorem length_readFraction {positive : Bool} {significand extra : Nat} {s r : List Char}
    {n : Number} (h : readFraction positive significand extra s = .ok (n, r)) :
    r.length ≤ s.length := by
  unfold readFraction at h
  have cut := length_takeDigits s
  simp only at h
  split at h
  · split at h <;> simp [stopAt] at h
  · split at h
    · rename_i rest
      have := length_readExponent h
      rw [rest] at cut
      simp only [List.length_cons] at cut
      omega
    · rename_i rest
      have := length_readExponent h
      rw [rest] at cut
      simp only [List.length_cons] at cut
      omega
    · have := length_decimalAt h
      subst this
      omega

theorem length_readNumber {positive : Bool} {s r : List Char} {n : Number}
    (h : readNumber positive s = .ok (n, r)) : r.length ≤ s.length := by
  unfold readNumber at h
  have cut := length_takeDigits s
  simp only at h
  split at h
  · split at h <;> simp [stopAt] at h
  · simp [stopAt] at h
  · split at h
    · rename_i rest
      have := length_readFraction h
      rw [rest] at cut
      simp only [List.length_cons] at cut
      omega
    · rename_i rest
      have := length_readExponent h
      rw [rest] at cut
      simp only [List.length_cons] at cut
      omega
    · rename_i rest
      have := length_readExponent h
      rw [rest] at cut
      simp only [List.length_cons] at cut
      omega
    · split at h
      · simp only [Except.ok.injEq, Prod.mk.injEq] at h
        rw [← h.2]
        omega
      · have := length_decimalAt h
        subst this
        omega

end CycleChart.Reading
