import CycleChart.Canvas.Basic

namespace CycleChart.Png

/-- Four bytes, the most significant first. -/
def pushWord (bytes : ByteArray) (n : Nat) : ByteArray :=
  (((bytes.push (.ofNat (n / 0x1000000))).push (.ofNat (n / 0x10000))).push (.ofNat (n / 0x100))).push (.ofNat n)

def shiftBit (c : UInt32) : UInt32 := if c &&& 1 = 1 then (c >>> 1) ^^^ 0xEDB88320 else c >>> 1

def remainders : Array UInt32 :=
  Array.ofFn fun i : Fin 256 => Nat.fold 8 (fun _ _ c => shiftBit c) (.ofNat i.val)

/-- The cyclic redundancy check of some bytes. -/
def checksum (bytes : ByteArray) : UInt32 :=
  let table := remainders
  let step (c : UInt32) (b : UInt8) : UInt32 :=
    table.getD ((c ^^^ b.toUInt32) &&& 0xFF).toNat 0 ^^^ (c >>> 8)
  bytes.foldl step 0xFFFFFFFF ^^^ 0xFFFFFFFF

def chunk (name : String) (data : ByteArray) : ByteArray :=
  let body := name.toUTF8 ++ data
  pushWord (pushWord ByteArray.empty data.size ++ body) (checksum body).toNat

/-- The rows of a picture, each led by a zero. -/
def scanlines (c : Canvas) : ByteArray :=
  let width := c.width.toNat
  c.height.toNat.fold (fun y hy bytes =>
    width.fold (fun x hx bytes =>
      let pixel := c.pixelAt x y hx hy
      ((bytes.push pixel.red).push pixel.green).push pixel.blue)
      (bytes.push 0))
    ByteArray.empty

/-- The two running sums of some bytes. -/
def runningSums (bytes : ByteArray) : Nat :=
  let (low, high) := bytes.foldl (fun (low, high) b =>
    let low := (low + b.toNat) % 65521
    (low, (high + low) % 65521)) (1, 0)
  high * 65536 + low

def blockSize : Nat := 65535

def storedBlock (isLast : Bool) (block : ByteArray) : ByteArray :=
  let pushHalf (bytes : ByteArray) (n : Nat) : ByteArray := (bytes.push (.ofNat n)).push (.ofNat (n / 256))
  let head := ByteArray.empty.push (if isLast then 1 else 0)
  pushHalf (pushHalf head block.size) (blockSize - block.size) ++ block

/-- Data as a compressed stream whose blocks are all stored as they are. -/
def stream (data : ByteArray) : ByteArray :=
  let last := data.size / blockSize
  let blocks := Nat.fold (last + 1) (fun i _ bytes =>
    bytes ++ storedBlock (i = last) (data.extract (i * blockSize) ((i + 1) * blockSize)))
    ((ByteArray.empty.push 0x78).push 0x01)
  pushWord blocks (runningSums data)

def signature : ByteArray := ⟨#[0x89, 0x50, 0x4E, 0x47, 0x0D, 0x0A, 0x1A, 0x0A]⟩

/-- A picture in eight bits for each of three channels. -/
def encode (c : Canvas) : ByteArray :=
  let size := pushWord (pushWord ByteArray.empty c.width.toNat) c.height.toNat
  let format := ⟨#[8, 2, 0, 0, 0]⟩
  signature ++ chunk "IHDR" (size ++ format) ++ chunk "IDAT" (stream (scanlines c)) ++ chunk "IEND" ByteArray.empty

end CycleChart.Png
