namespace CycleChart

/-- What is too large, or too many, for a picture. -/
inductive Overflow where
  | canvasHeight
  | labelWidth
  | canvasArea
  | coordinates
  | slots
  | contentSize
deriving DecidableEq

def ensure (cause : Overflow) (holds : Bool) : Except Overflow Unit := if holds then .ok () else .error cause

theorem ensure_eq_ok_iff {cause : Overflow} {holds : Bool} {u : Unit} : ensure cause holds = .ok u ↔ holds = true := by
  rw [ensure]
  split <;> simp [*]

theorem eq_of_ensure {cause e : Overflow} {holds : Bool} (h : ensure cause holds = .error e) : e = cause := by
  rw [ensure] at h
  split at h <;> cases h
  rfl

/-- The sum of two sizes, unless it needs more than 32 bits. -/
def addSizes (cause : Overflow) (a b : UInt32) : Except Overflow UInt32 :=
  if a.toNat + b.toNat < 0x100000000 then .ok (a + b) else .error cause

theorem addSizes_eq_ok_iff {cause : Overflow} {a b sum : UInt32} :
    addSizes cause a b = .ok sum ↔ sum.toNat = a.toNat + b.toNat := by
  have ha := a.toNat_lt
  have hb := b.toNat_lt
  have hs := sum.toNat_lt
  unfold addSizes
  split
  · rename_i fits
    have total : (a + b).toNat = a.toNat + b.toNat := by
      rw [UInt32.toNat_add]
      omega
    constructor
    · intro h
      cases h
      exact total
    · intro h
      rw [UInt32.toNat_inj.1 (total.trans h.symm)]
  · constructor
    · intro h
      cases h
    · intro h
      omega

end CycleChart
