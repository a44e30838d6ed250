import CycleChart.Binary.Double
import CycleChart.Overflow

namespace CycleChart

open Binary (Double)

/-- The measures of a chart. Lengths are in inches, margins and letters in points. -/
structure Figure where
  dpi : UInt32 := 300
  width : Double := 12
  height : Double := 7
  chartRatio : Double := 0.8
  margin : Double := 10
  titleSize : Double := 12
  labelSize : Double := 10
  summarySize : Double := 11
  lineSpacing : Double := 1.5
  padding : Double := 0.1

namespace Figure

def resolution (f : Figure) : Double := .ofNat f.dpi.toNat

/-- Whole pixels in a length in inches, at least none. -/
def inchesToPixels (f : Figure) (inches : Double) : UInt32 :=
  ((inches * f.resolution).round.max 0).toUInt32

def pointsToPixels (f : Figure) (points : Double) : Double := points * f.resolution / 72

/-- Width and height of the page, at least one pixel each. -/
def pixelSize (f : Figure) : UInt32 × UInt32 :=
  (max (f.inchesToPixels f.width) 1, max (f.inchesToPixels f.height) 1)

def marginPixels (f : Figure) : UInt32 := (f.pointsToPixels f.margin).round.toUInt32

def chartHeight (f : Figure) : UInt32 :=
  (.ofNat f.pixelSize.2.toNat * f.chartRatio.clamp 0 1 : Double).round.toUInt32

def lineHeight (f : Figure) : Double := f.pointsToPixels f.summarySize * f.lineSpacing.max 1

def summaryHeight (f : Figure) (lines : Nat) : UInt32 :=
  (.ofNat lines * f.lineHeight + f.pointsToPixels f.margin : Double).ceil.toUInt32

/-- Size of the canvas, which grows downward if the summary does not fit on the page. -/
def canvasSize (f : Figure) (lines : Nat) : Except Overflow (UInt32 × UInt32) := do
  let needed ← addSizes .canvasHeight f.chartHeight (f.summaryHeight lines)
  return (f.pixelSize.1, max f.pixelSize.2 needed)

/-- Width beside the bars for labels of up to so many characters, at most half the page. -/
def labelWidth (f : Figure) (characters : Nat) : Except Overflow UInt32 := do
  let letters := (.ofNat characters * f.pointsToPixels f.labelSize * 0.6 : Double).round.toUInt32
  let needed ← addSizes .labelWidth letters f.marginPixels
  return min needed (f.pixelSize.1 / 2)

def labelHeight (f : Figure) : UInt32 := (f.pointsToPixels f.labelSize * 3.5).round.toUInt32

def titleHeight (f : Figure) : Int := (f.pointsToPixels f.titleSize / 1.24).toInt32

end Figure
end CycleChart
