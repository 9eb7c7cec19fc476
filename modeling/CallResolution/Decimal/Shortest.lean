namespace CallResolution.Decimal

/-- The finite value `mantissa * 2 ^ exponent`. -/
structure Binary where
  mantissa : Nat
  exponent : Int
  /-- The gap to the next smaller value is half the gap to the next larger one. -/
  narrowBelow : Bool
deriving DecidableEq

def scale (a base : Nat) (exponent : Int) : Nat := a * Nat.pow base exponent.toNat

def Binary.ofBits (bits : UInt64) : Binary :=
  let e := ((bits >>> 52) &&& 0x7ff).toNat
  let f := (bits &&& 0xfffffffffffff).toNat
  if e = 0 then ⟨f, -1074, false⟩
  else ⟨0x10000000000000 + f, (e : Int) - 1075, f = 0 && 1 < e⟩

structure Digits where
  digits : Nat
  exponent : Int
deriving DecidableEq

def compareScaled (a : Nat) (i : Int) (b : Nat) (j : Int) : Ordering :=
  compare (scale (scale a 10 i) 2 (-j)) (scale (scale b 2 j) 10 (-i))

/-- The decimal lies among the reals that round to `x`, to nearest and ties to even. -/
def Binary.readsBack (x : Binary) (d : Digits) : Bool :=
  let low := compareScaled d.digits d.exponent
    (4 * x.mantissa - if x.narrowBelow then 1 else 2) (x.exponent - 2)
  let high := compareScaled d.digits d.exponent (4 * x.mantissa + 2) (x.exponent - 2)
  let closed := x.mantissa % 2 = 0
  (low = .gt || (closed && low = .eq)) && (high = .lt || (closed && high = .eq))

def Binary.magnitude (x : Binary) : Int :=
  let guess := ((x.mantissa.log2 : Int) + x.exponent) * 30103 / 100000
  if compareScaled 1 guess x.mantissa x.exponent = .gt then guess
  else if compareScaled 1 (guess + 1) x.mantissa x.exponent = .gt then guess + 1
  else guess + 2

/-- The nearer of the two neighbours of `x` on the grid `10 ^ e` that read back as `x`; the upper
one when both are equally near. -/
def Binary.onGrid (x : Binary) (e : Int) : Option Digits :=
  let num := scale (scale x.mantissa 2 x.exponent) 10 (-e)
  let den := scale (scale 1 2 (-x.exponent)) 10 e
  let below : Digits := ⟨num / den, e⟩
  let above : Digits := ⟨num / den + 1, e⟩
  match x.readsBack below, x.readsBack above with
  | true, true => some (if 2 * (num % den) < den then below else above)
  | true, false => some below
  | false, true => some above
  | false, false => none

def Binary.exact (x : Binary) : Digits :=
  ⟨scale (scale x.mantissa 2 x.exponent) 5 (-x.exponent), min x.exponent 0⟩

/-- The fewest digits that read back, and of those the nearest to the value. -/
def Binary.shortest (x : Binary) : Digits :=
  let k := x.magnitude
  ((List.range 17).findSome? fun n ↦ x.onGrid (k - 1 - (n : Nat))).getD x.exact

def dropZeros : List Char → Nat × List Char
  | '0' :: rest => let (n, ds) := dropZeros rest; (n + 1, ds)
  | ds => (0, ds)

def Digits.positional (d : Digits) : String :=
  let (zeros, reversed) := dropZeros (Nat.toDigits 10 d.digits).reverse
  let digits := reversed.reverse
  let e := d.exponent + zeros
  if 0 ≤ e then String.ofList (digits ++ List.replicate e.toNat '0')
  else
    let places := (-e).toNat
    if places < digits.length then
      let whole := digits.length - places
      String.ofList (digits.take whole ++ '.' :: digits.drop whole)
    else
      String.ofList ('0' :: '.' :: (List.replicate (places - digits.length) '0' ++ digits))

end CallResolution.Decimal
