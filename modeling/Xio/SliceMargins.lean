import Xio.Slices

/-!
`shl` and `shr` of a `BufferSlice`. A slice is an offset and a size, so its left margin is
the offset and its right margin their sum. `shl` moves the offset and leaves the size, and
with it moves the right margin too. Its assertion compares a `size_t` with 0.
-/

namespace Xio.BufferSlice

open MachineWord

/-- `none` is a failed assertion; a `size_t` is never below 0. -/
def shl (window : BufferSlice) (value : Int) : Option BufferSlice :=
  if 0 ≤ sub window.offset (unsigned value) then
    some { window with offset := sub window.offset (unsigned value) }
  else none

def shr (window : BufferSlice) (value : Int) : BufferSlice :=
  { window with size := add window.size (unsigned value) }

end Xio.BufferSlice

namespace Xio.SliceMargins

open Storage MachineWord Runs Slices

abbrev Amount := { value : Nat // value < 2 ^ 63 }

inductive Shift where
  | shl (value : Amount)
  | shr (value : Amount)

-- A failed assertion leaves the slice alone and is observed.
def step : Machine BufferSlice Shift Bool
  | window, .shl value =>
      match window.shl value.1 with
      | some moved => (moved, true)
      | none => (window, false)
  | window, .shr value => (window.shr value.1, true)

def Shift.left : Shift → Nat
  | .shl value => value.1
  | .shr _ => 0

def Shift.right : Shift → Nat
  | .shl _ => 0
  | .shr value => value.1

def leftBy (shifts : List Shift) : Nat := (shifts.map Shift.left).sum

def rightBy (shifts : List Shift) : Nat := (shifts.map Shift.right).sum

structure Extended (buffer : Buffer) (window : BufferSlice) (shifts : List Shift)
    (after : BufferSlice) : Prop where
  left_eq : after.offset = window.offset - leftBy shifts
  right_eq : after.offset + after.size = window.offset + window.size + rightBy shifts
  content : ∃ before behind, before.length = leftBy shifts ∧ behind.length = rightBy shifts ∧
    (after.view buffer).content = before ++ (window.view buffer).content ++ behind

theorem shl_eq (window : BufferSlice) (value : Amount) :
    window.shl value.1 = some { window with offset := sub window.offset value.1 } := by
  have word : unsigned (value.1 : Int) = value.1 :=
    unsigned_exact (Nat.lt_trans value.2 (by decide))
  rw [BufferSlice.shl, if_pos (Nat.zero_le _), word]

theorem step_eq (window : BufferSlice) (shift : Shift) (left : shift.left ≤ window.offset)
    (right : window.size + shift.right < 2 ^ 64) :
    step window shift = (⟨window.offset - shift.left, window.size + shift.right⟩, true) := by
  cases shift with
  | shl value =>
      have moved : sub window.offset value.1 = window.offset - value.1 := sub_exact left
      simp only [step, shl_eq, moved, Shift.left, Shift.right, Nat.add_zero]
  | shr value =>
      have word : unsigned (value.1 : Int) = value.1 :=
        unsigned_exact (Nat.lt_trans value.2 (by decide))
      have sum : add window.size value.1 = window.size + value.1 := add_exact right
      simp only [step, BufferSlice.shr, word, sum, Shift.left, Shift.right, Nat.sub_zero]

theorem final_eq (window : BufferSlice) (shifts : List Shift)
    (left : leftBy shifts ≤ window.offset) (right : window.size + rightBy shifts < 2 ^ 64) :
    final step window shifts = ⟨window.offset - leftBy shifts, window.size + rightBy shifts⟩ := by
  induction shifts generalizing window with
  | nil => rfl
  | cons shift rest ih =>
      simp only [leftBy, rightBy, List.map_cons, List.sum_cons] at left right ih ⊢
      rw [final, step_eq window shift (by omega) (by omega),
        ih _ (by simp only; omega) (by simp only; omega)]
      simp only [BufferSlice.mk.injEq]
      omega

theorem extended_iff (buffer : Buffer) (window : BufferSlice) (shifts : List Shift)
    (inside : Inside window buffer) (left : leftBy shifts ≤ window.offset)
    (right : window.offset + window.size + rightBy shifts ≤ buffer.size + leftBy shifts) :
    Extended buffer window shifts (final step window shifts) ↔ leftBy shifts = 0 := by
  have small := Nat.lt_of_le_of_lt inside.valid.fits inside.valid.bounded
  simp only [Environment.addressSpace] at small
  rw [final_eq window shifts left (by omega)]
  constructor
  · intro extended
    have margin := extended.right_eq
    simp only at margin
    omega
  · intro unmoved
    refine ⟨rfl, by simp only; omega, [], load buffer.bytes (window.offset + window.size)
      (rightBy shifts), unmoved.symm, load_length _ _ _, ?_⟩
    simp only [BufferSlice.view, BufferRef.content, unmoved, Nat.sub_zero, load_add,
      List.nil_append]

/-- The margins of a slice that is still in its buffer after the shifts have followed them
exactly if none went to the left, and an `shl` that leaves the buffer is never rejected. -/
theorem slice_margins_iff (buffer : Buffer) (window : BufferSlice) (shifts : List Shift)
    (value : Amount) (inside : Inside window buffer) (left : leftBy shifts ≤ window.offset)
    (right : window.offset + window.size + rightBy shifts ≤ buffer.size + leftBy shifts) :
    (Extended buffer window shifts (final step window shifts) ↔ leftBy shifts = 0) ∧
      ((window.offset < value.1 → window.shl value.1 = none) ↔ value.1 ≤ window.offset) := by
  refine ⟨extended_iff buffer window shifts inside left right, ?_⟩
  constructor
  · intro rejected
    by_contra beyond
    rw [shl_eq window value] at rejected
    cases rejected (by omega)
  · intro within beyond
    omega

theorem slice_margins_right :
    Extended abc.1 ⟨1, 1⟩ [.shr ⟨1, by decide⟩] (final step ⟨1, 1⟩ [.shr ⟨1, by decide⟩]) :=
  (slice_margins_iff abc.1 ⟨1, 1⟩ [.shr ⟨1, by decide⟩] ⟨0, by decide⟩ ⟨abc.2, by decide⟩
    (by decide) (by decide)).1.mpr rfl

/-- The `c` of `abc`, shifted one to the left, is `b` and not `bc`; shifted by three, it is
at an offset of nearly 2^64. -/
theorem shl_loses_right_margin :
    ((final step ⟨2, 1⟩ [.shl ⟨1, by decide⟩]).view abc.1).content = [98] ∧
      (BufferSlice.shl ⟨2, 1⟩ 3).map (·.offset) = some (2 ^ 64 - 1) := by
  decide

end Xio.SliceMargins
