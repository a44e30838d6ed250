namespace CycleChart.Text

/-- Puts a comma wherever a positive multiple of three digits follows. -/
def separate : List Char → List Char
  | [] => []
  | c :: cs => if cs ≠ [] ∧ cs.length % 3 = 0 then c :: ',' :: separate cs else c :: separate cs

/-- A number in digits, in groups of three from the right. -/
def grouped (n : Nat) : String := String.ofList (separate (Nat.toDigits 10 n))

end CycleChart.Text
