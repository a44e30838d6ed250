import CycleChart.Report.Token

namespace CycleChart.Json

/-- What a stretch of a string stands for: a character, or the number of an escape, which may be half of a pair. -/
inductive Piece where
  | char (c : Char)
  | unit (n : Nat)
deriving DecidableEq

def IsHigh (n : Nat) : Prop := 0xD800 ≤ n ∧ n ≤ 0xDBFF

def IsLow (n : Nat) : Prop := 0xDC00 ≤ n ∧ n ≤ 0xDFFF

instance (n : Nat) : Decidable (IsHigh n) := inferInstanceAs (Decidable (_ ∧ _))
instance (n : Nat) : Decidable (IsLow n) := inferInstanceAs (Decidable (_ ∧ _))

/-- The character that a pair of escapes stands for. -/
def paired (high low : Nat) : Char := Char.ofNat (0x10000 + (high - 0xD800) * 1024 + (low - 0xDC00))

/-- The characters of a string. There are none if half of a pair stands alone. -/
def chars? : List Piece → Option (List Char)
  | [] => some []
  | .char c :: ps => (chars? ps).map (c :: ·)
  | .unit n :: ps =>
    if IsLow n then none
    else if IsHigh n then
      match ps with
      | .unit m :: qs => if IsLow m then (chars? qs).map (paired n m :: ·) else none
      | _ => none
    else (chars? ps).map (Char.ofNat n :: ·)

def text? (ps : List Piece) : Option String := (chars? ps).map String.ofList

/-- The escapes of one letter. -/
def escapes : List (Char × Char) :=
  [('"', '"'), ('\\', '\\'), ('/', '/'), ('b', '\x08'), ('f', '\x0c'), ('n', '\n'), ('r', '\r'), ('t', '\t')]

/-- A digit to the base sixteen, in either case. -/
def IsHex (c : Char) (n : Nat) : Prop := n < 16 ∧ (c = Nat.digitChar n ∨ c = (Nat.digitChar n).toUpper)

instance (c : Char) (n : Nat) : Decidable (IsHex c n) := inferInstanceAs (Decidable (_ ∧ _))

/-- What may stand between the quotes of a string. -/
inductive Spells : List Piece → List Char → Prop where
  | nil : Spells [] []
  | raw {c : Char} {ps : List Piece} {s : List Char} (printed : 0x20 ≤ c.toNat) (plain : c ≠ '"' ∧ c ≠ '\\')
      (rest : Spells ps s) : Spells (.char c :: ps) (c :: s)
  | escape {e c : Char} {ps : List Piece} {s : List Char} (listed : (e, c) ∈ escapes) (rest : Spells ps s) :
      Spells (.char c :: ps) ('\\' :: e :: s)
  | numbered {a b c d : Char} {i j k l : Nat} {ps : List Piece} {s : List Char}
      (digits : IsHex a i ∧ IsHex b j ∧ IsHex c k ∧ IsHex d l) (rest : Spells ps s) :
      Spells (.unit (((i * 16 + j) * 16 + k) * 16 + l) :: ps) ('\\' :: 'u' :: a :: b :: c :: d :: s)

def IsDigits (s : List Char) : Prop := s ≠ [] ∧ ∀ c ∈ s, c.isDigit

def IsWhole (s : List Char) : Prop := IsDigits s ∧ (s.head? = some '0' → s = ['0'])

def IsFraction (s : List Char) : Prop := s = [] ∨ ∃ digits, s = '.' :: digits ∧ IsDigits digits

def IsExponent (s : List Char) : Prop :=
  s = [] ∨ ∃ letter sign digits, s = letter :: (sign ++ digits) ∧ (letter = 'e' ∨ letter = 'E') ∧
    (sign = [] ∨ sign = ['+'] ∨ sign = ['-']) ∧ IsDigits digits

instance (s : List Char) : Decidable (IsDigits s) :=
  @instDecidableAnd _ _ _ (List.decidableBAll _ _)
instance (s : List Char) : Decidable (IsWhole s) := inferInstanceAs (Decidable (_ ∧ _))

/-- A number as it is written. The fraction has its point and the exponent its letter, unless they are empty. -/
structure Numeral where
  negative : Bool
  whole : List Char
  fraction : List Char
  exponent : List Char
  isWhole : IsWhole whole
  isFraction : IsFraction fraction
  isExponent : IsExponent exponent

namespace Numeral

def text (n : Numeral) : List Char :=
  (if n.negative then ['-'] else []) ++ n.whole ++ n.fraction ++ n.exponent

def value (digits : List Char) : Nat := digits.foldl (fun n c => n * 10 + (c.toNat - '0'.toNat)) 0

/-- The number of a literal without sign, fraction and exponent, if it takes 64 bits at most. -/
def count? (n : Numeral) : Option UInt64 :=
  if n.negative = false ∧ n.fraction = [] ∧ n.exponent = [] ∧ value n.whole < 0x10000000000000000 then
    some (.ofNat (value n.whole))
  else none

end Numeral
end Json

/-- A value as it is written. Members stay in order and may repeat a name. -/
inductive Json where
  | null
  | boolean (b : Bool)
  | number (n : Json.Numeral)
  | string (s : List Json.Piece)
  | list (items : List Json)
  | object (members : List (List Json.Piece × Json))

namespace Json

/-- The spaces between tokens. -/
def IsSpaces (s : List Char) : Prop := ∀ c ∈ s, c ∈ [' ', '\t', '\n', '\r']

instance (s : List Char) : Decidable (IsSpaces s) := List.decidableBAll _ _

/-- The parts of a text: a value, a value with the spaces around it, a named value, and what stands between
brackets. -/
inductive Part where
  | value (v : Json)
  | spaced (v : Json)
  | member (k : List Piece) (v : Json)
  | items (vs : List Json)
  | members (ms : List (List Piece × Json))

/-- The grammar: which part a text forms. -/
inductive Forms : Part → List Char → Prop where
  | null : Forms (.value .null) ['n', 'u', 'l', 'l']
  | true : Forms (.value (.boolean true)) ['t', 'r', 'u', 'e']
  | false : Forms (.value (.boolean false)) ['f', 'a', 'l', 's', 'e']
  | number (n : Numeral) : Forms (.value (.number n)) n.text
  | string {ps : List Piece} {s : List Char} (body : Spells ps s) :
      Forms (.value (.string ps)) ('"' :: (s ++ ['"']))
  | list {vs : List Json} {s : List Char} (inside : Forms (.items vs) s) :
      Forms (.value (.list vs)) ('[' :: (s ++ [']']))
  | object {ms : List (List Piece × Json)} {s : List Char} (inside : Forms (.members ms) s) :
      Forms (.value (.object ms)) ('\x7b' :: (s ++ ['\x7d']))
  | spaced {v : Json} {a s b : List Char} (before : IsSpaces a) (inside : Forms (.value v) s) (after : IsSpaces b) :
      Forms (.spaced v) (a ++ (s ++ b))
  | member {k : List Piece} {v : Json} {a name b s : List Char} (before : IsSpaces a) (spelled : Spells k name)
      (after : IsSpaces b) (value : Forms (.spaced v) s) :
      Forms (.member k v) (a ++ '"' :: (name ++ '"' :: (b ++ ':' :: s)))
  | noItem {s : List Char} (space : IsSpaces s) : Forms (.items []) s
  | lastItem {v : Json} {s : List Char} (only : Forms (.spaced v) s) : Forms (.items [v]) s
  | nextItem {v w : Json} {vs : List Json} {s t : List Char} (first : Forms (.spaced v) s)
      (rest : Forms (.items (w :: vs)) t) : Forms (.items (v :: w :: vs)) (s ++ ',' :: t)
  | noMember {s : List Char} (space : IsSpaces s) : Forms (.members []) s
  | lastMember {k : List Piece} {v : Json} {s : List Char} (only : Forms (.member k v) s) :
      Forms (.members [(k, v)]) s
  | nextMember {k : List Piece} {v : Json} {m : List Piece × Json} {ms : List (List Piece × Json)}
      {s t : List Char} (first : Forms (.member k v) s) (rest : Forms (.members (m :: ms)) t) :
      Forms (.members ((k, v) :: m :: ms)) (s ++ ',' :: t)

/-- A text is well formed if it is a value with spaces around it. -/
def IsTextOf (text : String) (v : Json) : Prop := Forms (.spaced v) text.toList

end Json
end CycleChart
