namespace CallResolution.Text

def hexDigit (n : Nat) : Char := Nat.digitChar (n % 16)

def hex (n : Nat) : String := String.ofList (Nat.toDigits 16 n)

def hexPadded : Nat → Nat → List Char
  | 0, _ => []
  | width + 1, n => hexPadded width (n / 16) ++ [hexDigit n]

def hexWord (w : UInt64) : String := String.ofList ('0' :: 'x' :: hexPadded 16 w.toNat)

def hexValue? (c : Char) : Option Nat :=
  if '0' ≤ c && c ≤ '9' then some (c.toNat - 48)
  else if 'a' ≤ c && c ≤ 'f' then some (c.toNat - 87)
  else if 'A' ≤ c && c ≤ 'F' then some (c.toNat - 55)
  else none

/-- Reads hexadecimal digits after `0x`, keeping the lowest 64 bits. -/
def readHexWord? (s : String) : Option UInt64 :=
  match s.toList with
  | '0' :: 'x' :: cs => do
    return (← cs.foldlM (fun n c ↦ do return n * 16 + (← hexValue? c)) 0).toUInt64
  | _ => none

theorem length_hexPadded (width n : Nat) : (hexPadded width n).length = width := by
  induction width generalizing n with
  | zero => rfl
  | succ width ih => simp [hexPadded, ih]

end CallResolution.Text
