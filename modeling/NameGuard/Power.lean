/-!
# Powers of two and of ten

The two bases of this library: binary64 numbers are multiples of powers of two, and their texts are
multiples of powers of ten.

* `twoPow`, `tenPow` — the powers;
* `twoPow_add` — a power of a sum is a product.
-/

set_option autoImplicit false

namespace NameGuard

def twoPow (n : Nat) : Nat := Nat.pow 2 n

def tenPow (n : Nat) : Nat := Nat.pow 10 n

@[simp] theorem twoPow_zero : twoPow 0 = 1 := rfl

theorem twoPow_pos (n : Nat) : 0 < twoPow n := Nat.pow_pos (by decide)

theorem twoPow_add (m n : Nat) : twoPow (m + n) = twoPow m * twoPow n := Nat.pow_add 2 m n

@[simp] theorem tenPow_zero : tenPow 0 = 1 := rfl

theorem tenPow_pos (n : Nat) : 0 < tenPow n := Nat.pow_pos (by decide)

end NameGuard
