import CallResolution.Text.Extending
import CallResolution.Text.Unassigned

namespace CallResolution.Text

def controls : Ranges := [(0x0, 0x1f), (0x7f, 0x9f)]

def separators : Ranges :=
  [(0xa0, 0xa0), (0x1680, 0x1680), (0x2000, 0x200a), (0x2028, 0x2029),
   (0x202f, 0x202f), (0x205f, 0x205f), (0x3000, 0x3000)]

def formats : Ranges :=
  [(0xad, 0xad), (0x600, 0x605), (0x61c, 0x61c), (0x6dd, 0x6dd), (0x70f, 0x70f), (0x890, 0x891),
   (0x8e2, 0x8e2), (0x180e, 0x180e), (0x200b, 0x200f), (0x202a, 0x202e), (0x2060, 0x2064),
   (0x2066, 0x206f), (0xfeff, 0xfeff), (0xfff9, 0xfffb), (0x110bd, 0x110bd), (0x110cd, 0x110cd),
   (0x13430, 0x1343f), (0x1bca0, 0x1bca3), (0x1d173, 0x1d17a), (0xe0001, 0xe0001),
   (0xe0020, 0xe007f)]

def privateUse : Ranges := [(0xe000, 0xf8ff), (0xf0000, 0xffffd), (0x100000, 0x10fffd)]

/-- The characters that leave no trace where nothing makes use of them, such as a filler:
`Default_Ignorable_Code_Point`. -/
def ignorable : Ranges :=
  [(0xad, 0xad), (0x34f, 0x34f), (0x61c, 0x61c), (0x115f, 0x1160), (0x17b4, 0x17b5),
   (0x180b, 0x180f), (0x200b, 0x200f), (0x202a, 0x202e), (0x2060, 0x206f), (0x3164, 0x3164),
   (0xfe00, 0xfe0f), (0xfeff, 0xfeff), (0xffa0, 0xffa0), (0xfff0, 0xfff8), (0x1bca0, 0x1bca3),
   (0x1d173, 0x1d17a), (0xe0000, 0xe0fff)]

/-- A character that can be seen and stands on its own. An ASCII character is in no table but that of
the controls. -/
def isPrintable (c : Char) : Bool :=
  !controls.covers c &&
    (c.toNat < 0x80 ||
      !(separators.covers c || formats.covers c || privateUse.covers c || ignorable.covers c ||
        unassigned.covers c || extending.covers c))

theorem isPrintable_iff {c : Char} :
    isPrintable c ↔
      ∀ rs ∈ [controls, separators, formats, privateUse, ignorable, unassigned, extending],
        rs.covers c = false := by
  by_cases h : c.toNat < 0x80
  · have beyond : ∀ rs ∈ [separators, formats, privateUse, ignorable, unassigned, extending],
        rs.all (0x80 ≤ ·.1) := by decide +kernel
    have free := fun rs hrs ↦ Ranges.covers_eq_false_of_lt (beyond rs hrs) h
    rw [List.forall_mem_cons]
    simp only [isPrintable, h, decide_true, Bool.true_or, Bool.and_true, Bool.not_eq_true']
    exact ⟨fun hc ↦ ⟨hc, free⟩, And.left⟩
  · simp [isPrintable, h, and_assoc]

end CallResolution.Text
