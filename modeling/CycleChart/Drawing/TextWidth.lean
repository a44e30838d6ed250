import CycleChart.Binary.Double

namespace CycleChart.Drawing

open Binary (Double Exact binary32)

/-- Some thousandths of a size, in single precision. -/
def thousandths (units : Rat) (size : Double) : Exact :=
  binary32.nearest (binary32.nearest (binary32.nearest size.exact / .ofRat 1000) * .ofRat units)

/-- Width of some characters in a line, each sum rounded to single precision. -/
def lineWidth (character space : Exact) : (count : Nat) → Exact
  | 0 => .zero
  | 1 => character
  | count + 2 =>
    binary32.nearest (binary32.nearest (lineWidth character space (count + 1) + character) + space)

/-- Width of a text in whole pixels. A character has 600 thousandths of its size. -/
def textWidth (size : Double) (text : String) : Int :=
  (lineWidth (thousandths 600 size) (thousandths 0 size) text.length).clampTo (-0x80000000) 0x7FFFFFFF

end CycleChart.Drawing
