import CallResolution.Decimal.Shortest

namespace CallResolution.Decimal.Floating

def magnitudeBits (bits : UInt64) : UInt64 := bits &&& 0x7fffffffffffffff

def isNaN (bits : UInt64) : Bool := 0x7ff0000000000000 < magnitudeBits bits

def isNegative (bits : UInt64) : Bool := bits >>> 63 == 1

/-- Equality that is reflexive: all NaNs are equal, and so are the two zeros. -/
def same (a b : UInt64) : Bool :=
  a == b || (isNaN a && isNaN b) || (magnitudeBits a == 0 && magnitudeBits b == 0)

def render (bits : UInt64) : String :=
  if isNaN bits then "NaN"
  else
    (if isNegative bits then "-" else "") ++
      (if magnitudeBits bits = 0x7ff0000000000000 then "inf"
      else if magnitudeBits bits = 0 then "0"
      else (Binary.ofBits bits).shortest.positional)

end CallResolution.Decimal.Floating
