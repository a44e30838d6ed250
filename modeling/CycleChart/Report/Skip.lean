import CycleChart.Report.Number

namespace CycleChart.Reading

/-- Passes over an escape, after its backslash. Numbered escapes need not make a character. -/
def skipEscape : List Char → Except Halt (List Char)
  | [] => stopAt .endInString [] 0
  | c :: s =>
    if c = 'u' then (readHex s).map (·.2)
    else if (plainEscape? c).isSome then .ok s
    else stopAt .invalidEscape (c :: s) 1

theorem length_skipEscape {s r : List Char} (h : skipEscape s = .ok r) : r.length ≤ s.length := by
  cases s with
  | nil => simp [skipEscape, stopAt] at h
  | cons c s =>
    simp only [skipEscape] at h
    split at h
    · cases hex : readHex s with
      | error => simp [hex, Except.map] at h
      | ok p =>
        simp only [hex, Except.map, Except.ok.injEq] at h
        have := length_readHex (n := p.1) (r := p.2) hex
        simp only [List.length_cons, ← h]
        omega
    · split at h
      · simp only [Except.ok.injEq] at h
        simp [← h]
      · simp [stopAt] at h

/-- Passes over a string, after its opening quote. -/
def skipString (s : List Char) : Except Halt (List Char) :=
  match s with
  | [] => stopAt .endInString [] 0
  | c :: s =>
    if c = '"' then .ok s
    else if c = '\\' then
      match _h : skipEscape s with
      | .error halt => .error halt
      | .ok r => skipString r
    else if c.toNat < 0x20 then stopAt .controlCharacter (c :: s) 0
    else skipString s
termination_by s.length
decreasing_by
  · have := length_skipEscape _h
    simp only [List.length_cons]
    omega
  · simp

theorem length_skipString {s r : List Char} (h : skipString s = .ok r) : r.length < s.length := by
  fun_induction skipString s with
  | case1 => simp [stopAt] at h
  | case2 s =>
    simp only [Except.ok.injEq] at h
    simp [← h]
  | case3 => simp at h
  | case4 s rest escape _ ih =>
    have := length_skipEscape escape
    have := ih h
    simp only [List.length_cons]
    omega
  | case5 => simp [stopAt] at h
  | case6 c s _ _ _ ih =>
    have := ih h
    simp only [List.length_cons]
    omega

def skipExponent (s : List Char) : Except Halt (List Char) :=
  let (_, s) := takeSign s
  let (digits, rest) := takeDigits s
  if digits = [] then stopAt .invalidNumber s 1 else .ok rest

def skipFraction (s : List Char) : Except Halt (List Char) :=
  let (digits, rest) := takeDigits s
  if digits = [] then stopAt .invalidNumber s 1
  else
    match rest with
    | 'e' :: t => skipExponent t
    | 'E' :: t => skipExponent t
    | t => .ok t

def skipNumber (s : List Char) : Except Halt (List Char) :=
  let (digits, rest) := takeDigits s
  match digits with
  | [] => stopAt .invalidNumber s 1
  | '0' :: c :: more => stopAt .invalidNumber (c :: more ++ rest) 1
  | _ =>
    match rest with
    | '.' :: t => skipFraction t
    | 'e' :: t => skipExponent t
    | 'E' :: t => skipExponent t
    | t => .ok t

theorem length_skipExponent {s r : List Char} (h : skipExponent s = .ok r) :
    r.length ≤ s.length := by
  unfold skipExponent at h
  have signed := length_takeSign s
  have cut := length_takeDigits (takeSign s).2
  simp only at h
  split at h
  · simp [stopAt] at h
  · simp only [Except.ok.injEq] at h
    subst h
    omega

theorem length_skipFraction {s r : List Char} (h : skipFraction s = .ok r) :
    r.length ≤ s.length := by
  unfold skipFraction at h
  have cut := length_takeDigits s
  simp only at h
  split at h
  · simp [stopAt] at h
  · split at h
    · rename_i rest
      have := length_skipExponent h
      rw [rest] at cut
      simp only [List.length_cons] at cut
      omega
    · rename_i rest
      have := length_skipExponent h
      rw [rest] at cut
      simp only [List.length_cons] at cut
      omega
    · simp only [Except.ok.injEq] at h
      subst h
      omega

theorem length_skipNumber {s r : List Char} (h : skipNumber s = .ok r) : r.length < s.length := by
  unfold skipNumber at h
  have cut := length_takeDigits s
  simp only at h
  split at h
  · simp [stopAt] at h
  · simp [stopAt] at h
  · rename_i some _
    have := List.length_pos_iff.2 some
    split at h
    · rename_i rest
      have := length_skipFraction h
      rw [rest] at cut
      simp only [List.length_cons] at cut
      omega
    · rename_i rest
      have := length_skipExponent h
      rw [rest] at cut
      simp only [List.length_cons] at cut
      omega
    · rename_i rest
      have := length_skipExponent h
      rw [rest] at cut
      simp only [List.length_cons] at cut
      omega
    · simp only [Except.ok.injEq] at h
      subst h
      omega

/-- Passes over a value that is no list and no object. -/
def skipScalar : List Char → Except Halt (List Char)
  | [] => stopAt .endInValue [] 0
  | c :: s =>
    if c = 'n' then readWord ['u', 'l', 'l'] s
    else if c = 't' then readWord ['r', 'u', 'e'] s
    else if c = 'f' then readWord ['a', 'l', 's', 'e'] s
    else if c = '"' then skipString s
    else if c = '-' then skipNumber s
    else if c.isDigit then skipNumber (c :: s)
    else stopAt .valueExpected (c :: s) 1

theorem length_skipScalar {s r : List Char} (h : skipScalar s = .ok r) : r.length < s.length := by
  cases s with
  | nil => simp [skipScalar, stopAt] at h
  | cons c s =>
    simp only [skipScalar] at h
    split at h
    · exact Nat.lt_succ_of_le (length_readWord h)
    · split at h
      · exact Nat.lt_succ_of_le (length_readWord h)
      · split at h
        · exact Nat.lt_succ_of_le (length_readWord h)
        · split at h
          · exact Nat.lt_succ_of_lt (length_skipString h)
          · split at h
            · exact Nat.lt_succ_of_lt (length_skipNumber h)
            · split at h
              · exact length_skipNumber h
              · simp [stopAt] at h

def readColon (s : List Char) : Except Halt (List Char) :=
  match skipSpace s with
  | [] => stopAt .endInObject [] 0
  | c :: t => if c = ':' then .ok t else stopAt .colonExpected (c :: t) 1

theorem length_readColon {s r : List Char} (h : readColon s = .ok r) : r.length < s.length := by
  unfold readColon at h
  have := length_skipSpace_le s
  split at h
  · simp [stopAt] at h
  · rename_i spaced
    rw [spaced] at this
    simp only [List.length_cons] at this
    split at h
    · simp only [Except.ok.injEq] at h
      subst h
      omega
    · simp [stopAt] at h

/-- The two kinds of value that hold values. -/
inductive Bracket where
  | list
  | object
deriving DecidableEq

namespace Bracket

def closing : Bracket → Char
  | list => ']'
  | object => '\x7d'

def endReason : Bracket → Reason
  | list => .endInList
  | object => .endInObject

def commaReason : Bracket → Reason
  | list => .commaOrBracket
  | object => .commaOrBrace

end Bracket

/-- Passes over what stands before the value of an item: nothing in a list, a name and a colon in an object. -/
def skipName (b : Bracket) (s : List Char) : Except Halt (List Char) :=
  match b with
  | .list => .ok s
  | .object =>
    match skipSpace s with
    | [] => stopAt .endInObject [] 0
    | c :: t =>
      if c = '"' then
        match skipString t with
        | .error halt => .error halt
        | .ok r => readColon r
      else stopAt .keyExpected (c :: t) 1

theorem length_skipName {b : Bracket} {s r : List Char} (h : skipName b s = .ok r) :
    r.length ≤ s.length := by
  unfold skipName at h
  have := length_skipSpace_le s
  split at h
  · simp only [Except.ok.injEq] at h
    simp [h]
  · split at h
    · simp [stopAt] at h
    · rename_i spaced
      rw [spaced] at this
      simp only [List.length_cons] at this
      split at h
      · split at h
        · simp at h
        · rename_i name
          have := length_skipString name
          have := length_readColon h
          omega
      · simp [stopAt] at h

/-- What comes next: a value, the first item of a bracket or its end, or what follows a value. -/
inductive Stage where
  | value
  | opened (b : Bracket)
  | closed

def Stage.rank : Stage → Nat
  | opened _ => 1
  | _ => 0

/-- Passes over a value of any depth. `around` holds the brackets that are open, innermost first. -/
def skip (stage : Stage) (around : List Bracket) (s : List Char) : Except Halt (List Char) :=
  match stage with
  | .value =>
    match _spaced : skipSpace s with
    | [] => stopAt .endInValue [] 0
    | c :: t =>
      if c = '[' then skip (.opened .list) around t
      else if c = '\x7b' then skip (.opened .object) around t
      else
        match _scalar : skipScalar (c :: t) with
        | .error halt => .error halt
        | .ok r => skip .closed around r
  | .opened b =>
    match _spaced : skipSpace s with
    | [] => stopAt b.endReason [] 0
    | c :: t =>
      if c = b.closing then skip .closed around t
      else
        match _name : skipName b (c :: t) with
        | .error halt => .error halt
        | .ok r => skip .value (b :: around) r
  | .closed =>
    match around with
    | [] => .ok s
    | b :: around =>
      match _spaced : skipSpace s with
      | [] => stopAt b.endReason [] 0
      | c :: t =>
        if c = ',' then
          match _name : skipName b t with
          | .error halt => .error halt
          | .ok r => skip .value (b :: around) r
        else if c = b.closing then skip .closed around t
        else stopAt b.commaReason (c :: t) 1
termination_by 2 * s.length + stage.rank
decreasing_by
  all_goals
    have shorter := length_skipSpace_le s
    rw [_spaced] at shorter
    simp only [List.length_cons] at shorter
    simp only [Stage.rank]
  · omega
  · omega
  · have := length_skipScalar _scalar
    simp only [List.length_cons] at this
    omega
  · omega
  · have := length_skipName _name
    simp only [List.length_cons] at this
    omega
  · have := length_skipName _name
    omega
  · omega

theorem length_skip {stage : Stage} {around : List Bracket} {s r : List Char}
    (h : skip stage around s = .ok r) : r.length ≤ s.length := by
  fun_induction skip stage around s with
  | case1 => simp [stopAt] at h
  | case2 around s t spaced ih =>
    have shorter := length_skipSpace_le s
    rw [spaced] at shorter
    have := ih h
    simp only [List.length_cons] at shorter
    omega
  | case3 around s t spaced _ ih =>
    have shorter := length_skipSpace_le s
    rw [spaced] at shorter
    have := ih h
    simp only [List.length_cons] at shorter
    omega
  | case4 => simp at h
  | case5 around s c t spaced _ _ rest scalar ih =>
    have shorter := length_skipSpace_le s
    rw [spaced] at shorter
    have := length_skipScalar scalar
    have := ih h
    omega
  | case6 => simp [stopAt] at h
  | case7 around s b t spaced ih =>
    have shorter := length_skipSpace_le s
    rw [spaced] at shorter
    have := ih h
    simp only [List.length_cons] at shorter
    omega
  | case8 => simp at h
  | case9 around s b c t spaced _ rest name ih =>
    have shorter := length_skipSpace_le s
    rw [spaced] at shorter
    have := length_skipName name
    have := ih h
    omega
  | case10 =>
    simp only [Except.ok.injEq] at h
    simp [h]
  | case11 => simp [stopAt] at h
  | case12 => simp at h
  | case13 s b around t rest name spaced ih =>
    have shorter := length_skipSpace_le s
    rw [spaced] at shorter
    have := length_skipName name
    have := ih h
    simp only [List.length_cons] at shorter
    omega
  | case14 s b around t spaced _ ih =>
    have shorter := length_skipSpace_le s
    rw [spaced] at shorter
    have := ih h
    simp only [List.length_cons] at shorter
    omega
  | case15 => simp [stopAt] at h

def skipValue (s : List Char) : Except Halt (List Char) := skip .value [] s

end CycleChart.Reading
