import CycleChart.Report.Reason

namespace CycleChart.Reading

def isSpace (c : Char) : Bool := c = ' ' || c = '\t' || c = '\n' || c = '\r'

def skipSpace (s : List Char) : List Char := s.dropWhile isSpace

theorem length_skipSpace_le (s : List Char) : (skipSpace s).length ≤ s.length :=
  (List.dropWhile_sublist isSpace).length_le

def readWord : List Char → List Char → Except Halt (List Char)
  | [], s => .ok s
  | _ :: _, [] => stopAt .endInValue [] 0
  | w :: word, c :: s => if c = w then readWord word s else stopAt .wordExpected (c :: s) 1

theorem length_readWord {word s r : List Char} (h : readWord word s = .ok r) :
    r.length ≤ s.length := by
  induction word generalizing s with
  | nil => simp [readWord] at h; simp [h]
  | cons w word ih =>
    cases s with
    | nil => simp [readWord, stopAt] at h
    | cons c s =>
      simp only [readWord] at h
      split at h
      · exact Nat.le_succ_of_le (ih h)
      · simp [stopAt] at h

def hexDigit? (c : Char) : Option Nat :=
  if '0' ≤ c ∧ c ≤ '9' then some (c.toNat - 48)
  else if 'a' ≤ c ∧ c ≤ 'f' then some (c.toNat - 87)
  else if 'A' ≤ c ∧ c ≤ 'F' then some (c.toNat - 55)
  else none

def fourHex? (a b c d : Char) : Option Nat := do
  let a ← hexDigit? a
  let b ← hexDigit? b
  let c ← hexDigit? c
  let d ← hexDigit? d
  return ((a * 16 + b) * 16 + c) * 16 + d

/-- Reads the four digits of a numbered escape. They are four bytes, whatever these are. -/
def readHex (s : List Char) : Except Halt (Nat × List Char) :=
  match s with
  | a :: b :: c :: d :: r =>
    match fourHex? a b c d with
    | some n => .ok (n, r)
    | none => stopAt .invalidEscape s 4
  | _ => if (bytesOf s).length < 4 then stopAt .endInString [] 0 else stopAt .invalidEscape s 4

theorem length_readHex {s r : List Char} {n : Nat} (h : readHex s = .ok (n, r)) :
    r.length ≤ s.length := by
  unfold readHex at h
  split at h
  · split at h
    · simp only [Except.ok.injEq, Prod.mk.injEq] at h
      simp only [List.length_cons, ← h.2]
      omega
    · simp [stopAt] at h
  · split at h <;> simp [stopAt] at h

/-- The second half of a pair of numbered escapes, after the first. -/
def readTrail (first : Nat) (s : List Char) : Except Halt (Char × List Char) :=
  match s with
  | [] => stopAt .endInString [] 0
  | ['\\'] => stopAt .endInString [] 0
  | '\\' :: 'u' :: t =>
    match readHex t with
    | .error halt => .error halt
    | .ok (second, r) =>
      if 0xDC00 ≤ second ∧ second ≤ 0xDFFF then
        .ok (Char.ofNat (0x10000 + (first - 0xD800) * 1024 + (second - 0xDC00)), r)
      else stopAt .loneSurrogate r 0
  | '\\' :: t => stopAt .missingSurrogate t 1
  | t => stopAt .missingSurrogate t 1

theorem length_readTrail {first : Nat} {s r : List Char} {c : Char}
    (h : readTrail first s = .ok (c, r)) : r.length ≤ s.length := by
  unfold readTrail at h
  split at h
  · simp [stopAt] at h
  · simp [stopAt] at h
  · split at h
    · simp at h
    · rename_i hex
      split at h
      · simp only [Except.ok.injEq, Prod.mk.injEq] at h
        have := length_readHex hex
        simp only [List.length_cons, ← h.2]
        omega
      · simp [stopAt] at h
  · simp [stopAt] at h
  · simp [stopAt] at h

/-- A numbered escape. Numbers above the first plane take two, which have to come together. -/
def readNumbered (s : List Char) : Except Halt (Char × List Char) :=
  match readHex s with
  | .error halt => .error halt
  | .ok (n, r) =>
    if 0xDC00 ≤ n ∧ n ≤ 0xDFFF then stopAt .loneSurrogate r 0
    else if 0xD800 ≤ n ∧ n ≤ 0xDBFF then readTrail n r
    else .ok (Char.ofNat n, r)

theorem length_readNumbered {s r : List Char} {c : Char} (h : readNumbered s = .ok (c, r)) :
    r.length ≤ s.length := by
  unfold readNumbered at h
  split at h
  · simp at h
  · rename_i hex
    have shorter := length_readHex hex
    split at h
    · simp [stopAt] at h
    · split at h
      · exact Nat.le_trans (length_readTrail h) shorter
      · simp only [Except.ok.injEq, Prod.mk.injEq] at h
        exact h.2 ▸ shorter

/-- The character that a one-letter escape stands for. -/
def plainEscape? : Char → Option Char
  | '"' => some '"'
  | '\\' => some '\\'
  | '/' => some '/'
  | 'b' => some '\x08'
  | 'f' => some '\x0c'
  | 'n' => some '\n'
  | 'r' => some '\r'
  | 't' => some '\t'
  | _ => none

/-- An escape, after its backslash. -/
def readEscape : List Char → Except Halt (Char × List Char)
  | [] => stopAt .endInString [] 0
  | c :: s =>
    if c = 'u' then readNumbered s
    else
      match plainEscape? c with
      | some plain => .ok (plain, s)
      | none => stopAt .invalidEscape (c :: s) 1

theorem length_readEscape {s r : List Char} {c : Char} (h : readEscape s = .ok (c, r)) :
    r.length ≤ s.length := by
  cases s with
  | nil => simp [readEscape, stopAt] at h
  | cons d s =>
    simp only [readEscape] at h
    split at h
    · exact Nat.le_succ_of_le (length_readNumbered h)
    · split at h
      · simp only [Except.ok.injEq, Prod.mk.injEq] at h
        simp [← h.2]
      · simp [stopAt] at h

/-- A string after its opening quote. `front` holds what was read of it, last character first. -/
def readString (front : List Char) (s : List Char) : Except Halt (String × List Char) :=
  match s with
  | [] => stopAt .endInString [] 0
  | c :: s =>
    if c = '"' then .ok (String.ofList front.reverse, s)
    else if c = '\\' then
      match _h : readEscape s with
      | .error halt => .error halt
      | .ok (d, r) => readString (d :: front) r
    else if c.toNat < 0x20 then stopAt .controlCharacter (c :: s) 1
    else readString (c :: front) s
termination_by s.length
decreasing_by
  · have := length_readEscape _h
    simp only [List.length_cons]
    omega
  · simp

theorem length_readString {front s r : List Char} {text : String}
    (h : readString front s = .ok (text, r)) : r.length < s.length := by
  fun_induction readString front s with
  | case1 => simp [stopAt] at h
  | case2 front s =>
    simp only [Except.ok.injEq, Prod.mk.injEq] at h
    simp [← h.2]
  | case3 => simp at h
  | case4 front s d rest escape _ ih =>
    have := length_readEscape escape
    have := ih h
    simp only [List.length_cons]
    omega
  | case5 => simp [stopAt] at h
  | case6 front c s _ _ _ ih =>
    have := ih h
    simp only [List.length_cons]
    omega

end CycleChart.Reading
