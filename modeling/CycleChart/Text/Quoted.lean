import CycleChart.Text.Unprintable
import CycleChart.Text.Utf8

namespace CycleChart.Text

def escape (c : Char) : List Char :=
  if c = '\x00' then ['\\', '0']
  else if c = '\t' then ['\\', 't']
  else if c = '\r' then ['\\', 'r']
  else if c = '\n' then ['\\', 'n']
  else if c = '"' then ['\\', '"']
  else if c = '\\' then ['\\', '\\']
  else if isUnprintable c then ['\\', 'u', '\x7b'] ++ Nat.toDigits 16 c.toNat ++ ['\x7d']
  else [c]

def escapeByte (b : UInt8) : List Char :=
  ['\\', 'x', (Nat.digitChar (b.toNat / 16)).toUpper, (Nat.digitChar (b.toNat % 16)).toUpper]

def Piece.quoted : Piece → List Char
  | .char c => escape c
  | .broken bytes => bytes.flatMap escapeByte

/-- Text in double quotes, with escapes. -/
def quoted (s : String) : String :=
  String.ofList ('"' :: s.toList.flatMap escape ++ ['"'])

/-- Bytes in double quotes, read as UTF-8 as far as they are. -/
def quotedBytes (bytes : List UInt8) : String :=
  String.ofList ('"' :: (pieces bytes).flatMap Piece.quoted ++ ['"'])

end CycleChart.Text
