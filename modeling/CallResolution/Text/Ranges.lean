namespace CallResolution.Text

abbrev Ranges := List (Nat × Nat)

namespace Ranges

def covers (rs : Ranges) (c : Char) : Bool :=
  rs.any fun (first, last) ↦ first ≤ c.toNat && c.toNat ≤ last

def isAscending (rs : Ranges) : Bool :=
  rs.all (fun (first, last) ↦ first ≤ last) && (rs.zip rs.tail).all fun (r, s) ↦ r.2 + 1 < s.1

theorem covers_iff {rs : Ranges} {c : Char} :
    rs.covers c ↔ ∃ r ∈ rs, r.1 ≤ c.toNat ∧ c.toNat ≤ r.2 := by
  simp [covers]

theorem covers_eq_false_of_lt {rs : Ranges} {bound : Nat} (h : rs.all (bound ≤ ·.1)) {c : Char}
    (hc : c.toNat < bound) : rs.covers c = false := by
  rw [Bool.eq_false_iff, ne_eq, covers_iff]
  rintro ⟨r, hr, hle, -⟩
  have := of_decide_eq_true (List.all_eq_true.1 h r hr)
  omega

end Ranges

end CallResolution.Text
