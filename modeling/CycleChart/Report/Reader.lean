import CycleChart.Report.Basic
import CycleChart.Report.Skip

namespace CycleChart.Reading

/-- Names a value of another kind. One that is itself broken is named by its own fault, and a bracket is not looked
into. -/
def mismatch (expected : Expected) : List Char → Halt
  | [] => ⟨.valueExpected, [], 0⟩
  | c :: s =>
    let named (found : Found) (rest : List Char) : Halt := ⟨.wrongType found expected, rest, 0⟩
    let word (letters : List Char) (found : Found) : Halt :=
      match readWord letters s with
      | .error halt => halt
      | .ok r => named found r
    let number (positive : Bool) (t : List Char) : Halt :=
      match readNumber positive t with
      | .error halt => halt
      | .ok (.natural n, r) => named (.integer n) r
      | .ok (.negative i, r) => named (.integer i) r
      | .ok (.decimal d, r) => named (.decimal d) r
    if c = 'n' then word ['u', 'l', 'l'] .null
    else if c = 't' then word ['r', 'u', 'e'] (.boolean true)
    else if c = 'f' then word ['a', 'l', 's', 'e'] (.boolean false)
    else if c = '-' then number false s
    else if c.isDigit then number true (c :: s)
    else if c = '"' then
      match readString [] s with
      | .error halt => halt
      | .ok (text, r) => named (.text text) r
    else if c = '[' then named .sequence (c :: s)
    else if c = '\x7b' then named .map (c :: s)
    else ⟨.valueExpected, c :: s, 1⟩

def countOf (positive : Bool) (s : List Char) : Except Halt (UInt64 × List Char) :=
  match readNumber positive s with
  | .error halt => .error halt
  | .ok (.natural n, r) => .ok (UInt64.ofNat n, r)
  | .ok (.negative i, r) => stopAt (.negativeCount i) r 0
  | .ok (.decimal d, r) => stopAt (.wrongType (.decimal d) .count) r 0

def readCount (s : List Char) : Except Halt (UInt64 × List Char) :=
  match skipSpace s with
  | [] => stopAt .endInValue [] 0
  | c :: t =>
    if c = '-' then countOf false t
    else if c.isDigit then countOf true (c :: t)
    else .error (mismatch .count (c :: t))

/-- The next name in an object, or nothing if the object ends here. -/
def readName (first : Bool) (s : List Char) : Except Halt (Option String × List Char) :=
  let named (t : List Char) : Except Halt (Option String × List Char) :=
    match readString [] t with
    | .error halt => .error halt
    | .ok (name, r) => .ok (some name, r)
  match skipSpace s with
  | [] => stopAt .endInObject [] 0
  | c :: t =>
    if c = '\x7d' then .ok (none, t)
    else if first then
      if c = '"' then named t else stopAt .keyExpected (c :: t) 1
    else if c = ',' then
      match skipSpace t with
      | [] => stopAt .endInValue [] 0
      | d :: u =>
        if d = '"' then named u
        else if d = '\x7d' then stopAt .trailingComma (d :: u) 1
        else stopAt .keyExpected (d :: u) 1
    else stopAt .commaOrBrace (c :: t) 1

theorem length_countOf {positive : Bool} {s r : List Char} {n : UInt64}
    (h : countOf positive s = .ok (n, r)) : r.length ≤ s.length := by
  unfold countOf at h
  split at h
  · simp at h
  · rename_i number
    simp only [Except.ok.injEq, Prod.mk.injEq] at h
    exact h.2 ▸ length_readNumber number
  · simp [stopAt] at h
  · simp [stopAt] at h

theorem length_readCount {s r : List Char} {n : UInt64} (h : readCount s = .ok (n, r)) :
    r.length ≤ s.length := by
  unfold readCount at h
  have shorter := length_skipSpace_le s
  split at h
  · simp [stopAt] at h
  · rename_i spaced
    rw [spaced] at shorter
    simp only [List.length_cons] at shorter
    split at h
    · have := length_countOf h
      omega
    · split at h
      · have := length_countOf h
        simp only [List.length_cons] at this
        omega
      · simp at h

theorem length_readName {first : Bool} {s r : List Char} {name : Option String}
    (h : readName first s = .ok (name, r)) : r.length < s.length := by
  unfold readName at h
  have shorter := length_skipSpace_le s
  simp only at h
  split at h
  · simp [stopAt] at h
  · rename_i c t spaced
    rw [spaced] at shorter
    simp only [List.length_cons] at shorter
    split at h
    · simp only [Except.ok.injEq, Prod.mk.injEq] at h
      rw [← h.2]
      omega
    · split at h
      · split at h
        · split at h
          · simp at h
          · rename_i text
            simp only [Except.ok.injEq, Prod.mk.injEq] at h
            have := length_readString text
            rw [← h.2]
            omega
        · simp [stopAt] at h
      · split at h
        · have further := length_skipSpace_le t
          split at h
          · simp [stopAt] at h
          · rename_i inner
            rw [inner] at further
            simp only [List.length_cons] at further
            split at h
            · split at h
              · simp at h
              · rename_i text
                simp only [Except.ok.injEq, Prod.mk.injEq] at h
                have := length_readString text
                rw [← h.2]
                omega
            · split at h <;> simp [stopAt] at h
        · simp [stopAt] at h

/-- The entries of an object of counts, after its bracket. The last count of a label stays. -/
def readEntries (first : Bool) (counts : LabelCounts) (s : List Char) :
    Except Halt (LabelCounts × List Char) :=
  match _named : readName first s with
  | .error halt => .error halt
  | .ok (none, r) => .ok (counts, r)
  | .ok (some label, r) =>
    match _colon : readColon r with
    | .error halt => .error halt
    | .ok t =>
      match _counted : readCount t with
      | .error halt => .error halt
      | .ok (n, u) => readEntries false (counts.insert label n) u
termination_by s.length
decreasing_by
  have := length_readName _named
  have := length_readColon _colon
  have := length_readCount _counted
  omega

theorem length_readEntries {first : Bool} {counts result : LabelCounts} {s r : List Char}
    (h : readEntries first counts s = .ok (result, r)) : r.length < s.length := by
  fun_induction readEntries first counts s with
  | case1 => simp at h
  | case2 first counts s rest named =>
    simp only [Except.ok.injEq, Prod.mk.injEq] at h
    exact h.2 ▸ length_readName named
  | case3 => simp at h
  | case4 => simp at h
  | case5 first counts s label rest named t colon n u counted ih =>
    have := length_readName named
    have := length_readColon colon
    have := length_readCount counted
    have := ih h
    omega

def readCounts (s : List Char) : Except Halt (LabelCounts × List Char) :=
  match skipSpace s with
  | [] => stopAt .endInValue [] 0
  | c :: t => if c = '\x7b' then readEntries true .empty t else .error (mismatch .map (c :: t))

theorem length_readCounts {s r : List Char} {counts : LabelCounts}
    (h : readCounts s = .ok (counts, r)) : r.length ≤ s.length := by
  unfold readCounts at h
  have shorter := length_skipSpace_le s
  split at h
  · simp [stopAt] at h
  · rename_i spaced
    rw [spaced] at shorter
    simp only [List.length_cons] at shorter
    split at h
    · have := length_readEntries h
      omega
    · simp at h

def readOptional {α : Type} (read : List Char → Except Halt (α × List Char)) (s : List Char) :
    Except Halt (Option α × List Char) :=
  match skipSpace s with
  | 'n' :: t => (readWord ['u', 'l', 'l'] t).map (none, ·)
  | t => (read t).map fun (a, r) => (some a, r)

theorem length_readOptional {α : Type} {read : List Char → Except Halt (α × List Char)}
    (hr : ∀ {s r a}, read s = .ok (a, r) → r.length ≤ s.length) {s r : List Char} {a : Option α}
    (h : readOptional read s = .ok (a, r)) : r.length ≤ s.length := by
  unfold readOptional at h
  have shorter := length_skipSpace_le s
  split at h
  · rename_i t spaced
    rw [spaced] at shorter
    simp only [List.length_cons] at shorter
    cases word : readWord ['u', 'l', 'l'] t with
    | error => simp [word, Except.map] at h
    | ok u =>
      simp only [word, Except.map, Except.ok.injEq, Prod.mk.injEq] at h
      have := length_readWord word
      rw [← h.2]
      omega
  · cases value : read (skipSpace s) with
    | error => simp [value, Except.map] at h
    | ok p =>
      simp only [value, Except.map, Except.ok.injEq, Prod.mk.injEq] at h
      have := hr (a := p.1) (r := p.2) value
      rw [← h.2]
      omega

def readMember (m : Member) (d : Draft) (s : List Char) : Except Halt (Draft × List Char) :=
  match m with
  | .counts =>
    match readOptional readCounts s with
    | .error halt => .error halt
    | .ok (counts, r) => .ok (⟨some counts, d.totals⟩, r)
  | .total t =>
    match readOptional readCount s with
    | .error halt => .error halt
    | .ok (n, r) => .ok (⟨d.counts, (t, n) :: d.totals⟩, r)

theorem length_readMember {m : Member} {d result : Draft} {s r : List Char}
    (h : readMember m d s = .ok (result, r)) : r.length ≤ s.length := by
  unfold readMember at h
  split at h
  · split at h
    · simp at h
    · rename_i value
      simp only [Except.ok.injEq, Prod.mk.injEq] at h
      exact h.2 ▸ length_readOptional length_readCounts value
  · split at h
    · simp at h
    · rename_i value
      simp only [Except.ok.injEq, Prod.mk.injEq] at h
      exact h.2 ▸ length_readOptional length_readCount value

/-- A repeated member is noticed at its second name, and reported after the end of the object if that follows. -/
def repeated (m : Member) (s : List Char) : Halt :=
  match skipSpace s with
  | '\x7d' :: t => ⟨.duplicate m, t, 0⟩
  | t => ⟨.duplicate m, t, 0⟩

/-- The members of a report, after its bracket. -/
def readMembers (first : Bool) (d : Draft) (s : List Char) : Except Halt (Draft × List Char) :=
  match _named : readName first s with
  | .error halt => .error halt
  | .ok (none, r) => .ok (d, r)
  | .ok (some name, r) =>
    match Member.named? name with
    | none =>
      match _colon : readColon r with
      | .error halt => .error halt
      | .ok t =>
        match _skipped : skipValue t with
        | .error halt => .error halt
        | .ok u => readMembers false d u
    | some m =>
      if d.has m then .error (repeated m r)
      else
        match _colon : readColon r with
        | .error halt => .error halt
        | .ok t =>
          match _member : readMember m d t with
          | .error halt => .error halt
          | .ok (next, u) => readMembers false next u
termination_by s.length
decreasing_by
  · have := length_readName _named
    have := length_readColon _colon
    have := length_skip _skipped
    omega
  · have := length_readName _named
    have := length_readColon _colon
    have := length_readMember _member
    omega

/-- The end of a report written as a list, after its last element. -/
def readListEnd (s : List Char) : Except Halt (List Char) :=
  match skipSpace s with
  | [] => stopAt .endInList [] 0
  | c :: t =>
    if c = ']' then .ok t
    else if c = ',' then
      match skipSpace t with
      | ']' :: u => stopAt .trailingComma (']' :: u) 1
      | u => stopAt .trailingCharacters u 1
    else stopAt .trailingCharacters (c :: t) 1

/-- The elements of a report written as a list, one for each member. `seen` have been read. -/
def readElements (seen : Nat) : List Member → Draft → List Char → Except Halt (Draft × List Char)
  | [], d, s => (readListEnd s).map (d, ·)
  | m :: members, d, s =>
    let element (t : List Char) : Except Halt (Draft × List Char) :=
      match readMember m d t with
      | .error halt => .error halt
      | .ok (next, r) => readElements (seen + 1) members next r
    match skipSpace s with
    | [] => stopAt .endInList [] 0
    | c :: t =>
      if c = ']' then stopAt (.wrongLength seen) t 0
      else if seen = 0 then element (c :: t)
      else if c = ',' then
        match skipSpace t with
        | [] => stopAt .endInValue [] 0
        | d :: u => if d = ']' then stopAt .trailingComma (d :: u) 1 else element (d :: u)
      else stopAt .commaOrBracket (c :: t) 1

/-- What a text says, once it says nothing else. -/
def readDraft (s : List Char) : Except Halt Draft :=
  let body : Except Halt (Draft × List Char) :=
    match skipSpace s with
    | [] => stopAt .endInValue [] 0
    | c :: t =>
      if c = '\x7b' then readMembers true .empty t
      else if c = '[' then readElements 0 Member.all .empty t
      else .error (mismatch .report (c :: t))
  match body with
  | .error halt => .error halt
  | .ok (d, r) =>
    match skipSpace r with
    | [] => .ok d
    | t => stopAt .trailingCharacters t 1

end CycleChart.Reading
