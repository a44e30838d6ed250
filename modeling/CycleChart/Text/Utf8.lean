namespace CycleChart.Text

/-- What a run of bytes reads as: a character, or bytes that begin no character and cannot be part of one. -/
inductive Piece where
  | char (c : Char)
  | broken (bytes : List UInt8)
deriving DecidableEq

/-- How many bytes a character has that starts with the byte, zero if none does. -/
def widthOf (lead : UInt8) : Nat :=
  if lead < 0x80 then 1
  else if 0xC2 ≤ lead ∧ lead ≤ 0xDF then 2
  else if 0xE0 ≤ lead ∧ lead ≤ 0xEF then 3
  else if 0xF0 ≤ lead ∧ lead ≤ 0xF4 then 4
  else 0

def isTrail (b : UInt8) : Bool := 0x80 ≤ b && b ≤ 0xBF

/-- Overlong forms, surrogates and numbers above the last character end at the second byte. -/
def isSecond (lead b : UInt8) : Bool :=
  isTrail b &&
    (if lead = 0xE0 then 0xA0 ≤ b
     else if lead = 0xED then b ≤ 0x9F
     else if lead = 0xF0 then 0x90 ≤ b
     else if lead = 0xF4 then b ≤ 0x8F
     else true)

def six (b : UInt8) : Nat := b.toNat % 64

/-- Reads bytes as UTF-8. What is broken comes in maximal pieces. -/
def pieces : List UInt8 → List Piece
  | [] => []
  | a :: s =>
    match widthOf a, s with
    | 1, s => .char (Char.ofNat a.toNat) :: pieces s
    | 2, b :: s' =>
      if isSecond a b then .char (Char.ofNat (a.toNat % 32 * 64 + six b)) :: pieces s'
      else .broken [a] :: pieces (b :: s')
    | 3, b :: s' =>
      if isSecond a b then
        match s' with
        | c :: s'' =>
          if isTrail c then
            .char (Char.ofNat ((a.toNat % 16 * 64 + six b) * 64 + six c)) :: pieces s''
          else .broken [a, b] :: pieces (c :: s'')
        | [] => [.broken [a, b]]
      else .broken [a] :: pieces (b :: s')
    | 4, b :: s' =>
      if isSecond a b then
        match s' with
        | c :: s'' =>
          if isTrail c then
            match s'' with
            | d :: s''' =>
              if isTrail d then
                .char (Char.ofNat (((a.toNat % 8 * 64 + six b) * 64 + six c) * 64 + six d)) ::
                  pieces s'''
              else .broken [a, b, c] :: pieces (d :: s''')
            | [] => [.broken [a, b, c]]
          else .broken [a, b] :: pieces (c :: s'')
        | [] => [.broken [a, b]]
      else .broken [a] :: pieces (b :: s')
    | _, s => .broken [a] :: pieces s
termination_by bytes => bytes.length

def Piece.shown : Piece → Char
  | .char c => c
  | .broken _ => '\ufffd'

/-- The text of some bytes, each broken piece shown as a replacement character. -/
def readable (bytes : List UInt8) : String :=
  String.ofList ((pieces bytes).map Piece.shown)

def Piece.char? : Piece → Option Char
  | .char c => some c
  | .broken _ => none

def decode? (bytes : List UInt8) : Option String :=
  ((pieces bytes).mapM Piece.char?).map String.ofList

end CycleChart.Text
