namespace CallResolution.XXHash

def prime1 : UInt64 := 0x9E3779B185EBCA87
def prime2 : UInt64 := 0xC2B2AE3D27D4EB4F
def prime3 : UInt64 := 0x165667B19E3779F9
def prime4 : UInt64 := 0x85EBCA77C2B2AE63
def prime5 : UInt64 := 0x27D4EB2F165667C5

def rotateLeft (x r : UInt64) : UInt64 := (x <<< r) ||| (x >>> (64 - r))

def littleEndian (bytes : List UInt8) : UInt64 :=
  bytes.foldr (fun b acc ↦ (acc <<< 8) ||| b.toUInt64) 0

def words : List UInt8 → List UInt64 × List UInt8
  | a :: b :: c :: d :: e :: f :: g :: h :: rest =>
    let (ws, tail) := words rest
    (littleEndian [a, b, c, d, e, f, g, h] :: ws, tail)
  | tail => ([], tail)

def round (acc word : UInt64) : UInt64 := rotateLeft (acc + word * prime2) 31 * prime1

structure Lanes where
  v1 : UInt64
  v2 : UInt64
  v3 : UInt64
  v4 : UInt64

def Lanes.absorb (l : Lanes) : List UInt64 → Lanes × List UInt64
  | a :: b :: c :: d :: rest =>
    Lanes.absorb ⟨round l.v1 a, round l.v2 b, round l.v3 c, round l.v4 d⟩ rest
  | rest => (l, rest)

def mergeLane (acc lane : UInt64) : UInt64 := (acc ^^^ round 0 lane) * prime1 + prime4

def Lanes.merge (l : Lanes) : UInt64 :=
  [l.v1, l.v2, l.v3, l.v4].foldl mergeLane
    (rotateLeft l.v1 1 + rotateLeft l.v2 7 + rotateLeft l.v3 12 + rotateLeft l.v4 18)

def Lanes.start : Lanes := ⟨prime1 + prime2, prime2, 0, 0 - prime1⟩

def mixWord (acc word : UInt64) : UInt64 := rotateLeft (acc ^^^ round 0 word) 27 * prime1 + prime4

def mixByte (acc : UInt64) (b : UInt8) : UInt64 :=
  rotateLeft (acc ^^^ (b.toUInt64 * prime5)) 11 * prime1

def mixTail (acc : UInt64) : List UInt8 → UInt64
  | a :: b :: c :: d :: rest =>
    rest.foldl mixByte
      (rotateLeft (acc ^^^ (littleEndian [a, b, c, d] * prime1)) 23 * prime2 + prime3)
  | rest => rest.foldl mixByte acc

def avalanche (x : UInt64) : UInt64 :=
  let x := (x ^^^ (x >>> 33)) * prime2
  let x := (x ^^^ (x >>> 29)) * prime3
  x ^^^ (x >>> 32)

/-- The 64-bit xxHash of a byte list, with seed zero. -/
def ofBytes (bytes : List UInt8) : UInt64 :=
  let (ws, tail) := words bytes
  let (lanes, rest) := Lanes.start.absorb ws
  let acc := if bytes.length < 32 then prime5 else lanes.merge
  avalanche (mixTail (rest.foldl mixWord (acc + bytes.length.toUInt64)) tail)

def ofText (s : String) : UInt64 := ofBytes s.toUTF8.data.toList

end CallResolution.XXHash
