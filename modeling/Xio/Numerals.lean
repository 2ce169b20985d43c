import Mathlib.Algebra.Ring.Nat
import Mathlib.Data.List.TakeWhile
import Mathlib.Tactic.Ring

/-!
Positional numerals read from left to right: each digit is added to the base times what
was read before. Digits need not be below the base, unless a bound is asked for.
-/

namespace Xio.Numerals

/-- The number that `digits` make behind `start`. -/
def accumulate (base : Nat) (digits : List Nat) (start : Nat) : Nat :=
  digits.foldl (fun value digit => base * value + digit) start

@[simp] theorem accumulate_nil (base start : Nat) : accumulate base [] start = start := rfl

@[simp] theorem accumulate_cons (base digit : Nat) (digits : List Nat) (start : Nat) :
    accumulate base (digit :: digits) start = accumulate base digits (base * start + digit) := rfl

-- Reading on never makes the number smaller, so a number that fits has fitted all along.
theorem le_accumulate (base : Nat) (digits : List Nat) (start : Nat) (positive : 0 < base) :
    start ≤ accumulate base digits start := by
  induction digits generalizing start with
  | nil => exact Nat.le_refl start
  | cons digit digits ih =>
      have scaled : start ≤ base * start := Nat.le_mul_of_pos_left start positive
      exact Nat.le_trans (Nat.le_trans scaled (Nat.le_add_right _ digit)) (ih _)

theorem accumulate_lt (base : Nat) (digits : List Nat) (start : Nat)
    (each : ∀ digit ∈ digits, digit < base) :
    accumulate base digits start < (start + 1) * base ^ digits.length := by
  induction digits generalizing start with
  | nil => simp
  | cons digit digits ih =>
      obtain ⟨small, smaller⟩ := List.forall_mem_cons.mp each
      have next : base * start + digit + 1 ≤ (start + 1) * base := by
        rw [Nat.add_mul, Nat.one_mul, Nat.mul_comm start base]
        omega
      calc accumulate base (digit :: digits) start
          < (base * start + digit + 1) * base ^ digits.length := ih _ smaller
        _ ≤ (start + 1) * base * base ^ digits.length := Nat.mul_le_mul_right _ next
        _ = (start + 1) * base ^ (digit :: digits).length := by
            rw [List.length_cons, Nat.pow_succ]
            ring

theorem accumulate_zeros {α : Type} (base : Nat) (value : α → Nat) (zero : α → Bool)
    (nothing : ∀ character, zero character = true → value character = 0) (text : List α) :
    accumulate base ((text.dropWhile zero).map value) 0 = accumulate base (text.map value) 0 := by
  induction text with
  | nil => rfl
  | cons first rest ih =>
      by_cases leading : zero first = true
      · rw [List.dropWhile_cons_of_pos leading, ih, List.map_cons, accumulate_cons,
          nothing first leading, Nat.mul_zero]
      · rw [List.dropWhile_cons_of_neg leading]

end Xio.Numerals
