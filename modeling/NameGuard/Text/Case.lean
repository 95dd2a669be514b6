/-!
# Letter case

Words are compared and stored without regard to the case of the letters `A` to `Z`. All other
characters, letters of other alphabets among them, have no case here.

* `String.toLower` lowers exactly these letters;
* `sameWord` — equality up to case.
-/

set_option autoImplicit false

namespace NameGuard

/-- Whether two words are equal up to the case of the letters `A` to `Z`. -/
def sameWord (a b : String) : Bool :=
  a.toLower == b.toLower

theorem sameWord_iff (a b : String) : sameWord a b = true ↔ a.toLower = b.toLower := by
  simp [sameWord]

theorem toLower_toLower (c : Char) : c.toLower.toLower = c.toLower := by
  unfold Char.toLower
  split
  · rename_i h
    refine dif_neg ?_
    rintro ⟨_, h₃⟩
    have h₁ : 65 ≤ c.val.toNat := UInt32.le_iff_toNat_le.mp h.1
    have h₂ : c.val.toNat ≤ 90 := UInt32.le_iff_toNat_le.mp h.2
    have h₄ : (c.val + ('a'.val - 'A'.val)).toNat ≤ 90 := UInt32.le_iff_toNat_le.mp h₃
    have h₅ : (c.val + ('a'.val - 'A'.val)).toNat = (c.val.toNat + 32) % 2 ^ 32 :=
      UInt32.toNat_add _ _
    omega
  · rfl

end NameGuard
