import CycleChart.Path.Basic

namespace CycleChart.Path

def isCurrent (p : Path) : Bool := p.components = [.current]

/-- One segment further. Nothing is kept of a lone dot. -/
def step (here : Path) (segment : List UInt8) : Path :=
  if here.isCurrent then ⟨segment⟩ else here.join ⟨segment⟩

def front (p : Path) : Path := ⟨if p.isRooted then [slash] else [dot]⟩

def further (p : Path) : List (List UInt8) := (segments p.bytes).drop (if p.isRooted then 1 else 0)

/-- A path as it is spelled segment by segment. From a lone dot an empty segment leads nowhere. -/
def spelled? (p : Path) : Option Path :=
  p.further.foldlM
    (fun here segment => if here.isCurrent ∧ segment = [] then none else some (here.step segment)) p.front

/-- A segment with an asterisk, a question mark or a square bracket is looked for among the names that are there. -/
def isSpecial (segment : List UInt8) : Bool := segment.any [0x2A, 0x3F, 0x5B, 0x5D].contains

def listedFrom (here : Path) : List (List UInt8) → List Path
  | [] => []
  | segment :: rest =>
    if isSpecial segment then here :: listedFrom (here.step segment) rest else listedFrom (here.step segment) rest

/-- The directories whose names are listed when a path is gone along segment by segment. -/
def listedOn (p : Path) : List Path := listedFrom p.front p.further

end CycleChart.Path
