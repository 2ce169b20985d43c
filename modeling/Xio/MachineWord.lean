import Mathlib.Algebra.Ring.Int.Defs
import Mathlib.Algebra.Ring.Nat

/-!
`size_t` and `ssize_t` of a 64-bit target. Words are natural numbers; the
operations wrap as unsigned arithmetic does. `sub` is written by cases rather
than as a remainder so that it needs no bound where nothing wraps.
-/

namespace Xio.MachineWord

def add (left right : Nat) : Nat := (left + right) % 2 ^ 64

def sub (left right : Nat) : Nat :=
  if right ≤ left then left - right else left + 2 ^ 64 - right

/-- Conversion of a `size_t` to `ssize_t`. -/
def signed (word : Nat) : Int :=
  if word < 2 ^ 63 then word else (word : Int) - 2 ^ 64

/-- Conversion of an `ssize_t` to `size_t`. -/
def unsigned (value : Int) : Nat := (value % 2 ^ 64).toNat

/-- Conversion of a `size_t` to `int`. -/
def int (word : Nat) : Int :=
  if word % 2 ^ 32 < 2 ^ 31 then (word % 2 ^ 32 : Nat) else (word % 2 ^ 32 : Nat) - 2 ^ 32

theorem add_exact {left right : Nat} (fits : left + right < 2 ^ 64) :
    add left right = left + right :=
  Nat.mod_eq_of_lt fits

theorem sub_exact {left right : Nat} (ordered : right ≤ left) :
    sub left right = left - right :=
  if_pos ordered

@[simp] theorem sub_self (word : Nat) : sub word word = 0 := by
  simp [sub]

theorem signed_exact {word : Nat} (small : word < 2 ^ 63) : signed word = word :=
  if_pos small

theorem unsigned_exact {word : Nat} (small : word < 2 ^ 64) : unsigned word = word := by
  have inside : (word : Int) % 2 ^ 64 = word := Int.emod_eq_of_lt (by omega) (by omega)
  rw [unsigned, inside, Int.toNat_natCast]

theorem int_exact {word : Nat} (small : word < 2 ^ 31) : int word = word := by
  have inside : word % 2 ^ 32 = word := Nat.mod_eq_of_lt (by omega)
  rw [int, inside, if_pos small]

theorem int_le (word : Nat) : int word ≤ word := by
  have smaller := Nat.mod_le word (2 ^ 32)
  simp only [int]
  split <;> omega

-- A difference that goes below zero comes back as a negative number.
theorem signed_sub_add (left right : Nat) (positive : 0 < right) (small : right ≤ 2 ^ 63) :
    signed (sub left (left + right)) = -right := by
  have wrapped : sub left (left + right) = 2 ^ 64 - right := by
    simp only [sub]
    split <;> omega
  rw [wrapped, signed, if_neg (by omega)]
  omega

end Xio.MachineWord
