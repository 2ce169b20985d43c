import Mathlib.Algebra.Ring.Nat
import Xio.Storage

/-!
What the library calls but does not define: the C allocator and the kernel. Both
are scripted. The script fixes the answer to every call in advance and is
arbitrary, so a statement about all scripts covers every pattern of failures and
partial transfers. The allocator also keeps the calls made to it, newest first.
-/

namespace Xio.Environment

open Storage

/-- No object of a 64-bit process reaches this many bytes; user address spaces
are smaller. -/
def addressSpace : Nat := 2 ^ 62

theorem addressSpace_pos : 0 < addressSpace := by decide

abbrev Object := { bytes : List UInt8 // bytes.length < addressSpace }

/-! Blocks are named by the number of the call that produced them, so a block
handed out is always a fresh one. -/
abbrev Block := Nat

inductive Call where
  | free (block : Option Block)
  | realloc (block : Option Block) (size : Nat) (granted : Bool)
  deriving DecidableEq

/-- A null result for a request of no bytes is not a failure. -/
def Call.refused : Call → Bool
  | .free _ => false
  | .realloc _ size granted => !granted && size != 0

structure Heap where
  grants : Nat → Nat → Bool
  fresh : Nat → Memory UInt8
  calls : List Call
  bounded : ∀ call size, grants call size = true → size < addressSpace

namespace Heap

def answer (heap : Heap) (size : Nat) : Bool := heap.grants heap.calls.length size

def free (heap : Heap) (block : Option Block) : Heap :=
  { heap with calls := .free block :: heap.calls }

def realloc (heap : Heap) (block : Option Block) (size : Nat) : Heap :=
  { heap with calls := .realloc block size (heap.answer size) :: heap.calls }

/-- The bytes behind the pointer a granted `realloc` returns: as many old ones as
both blocks hold, then whatever the new block contains. That the old block is still
live is for the caller to see; a block given back has no bytes to copy. -/
def resized (heap : Heap) (memory : Memory UInt8) (old size : Nat) : Memory UInt8 :=
  fun address => if address < min old size then memory address
    else heap.fresh heap.calls.length address

def Unrefused (heap : Heap) : Prop := ∀ call ∈ heap.calls, call.refused = false

instance (heap : Heap) : Decidable heap.Unrefused :=
  inferInstanceAs (Decidable (∀ call ∈ heap.calls, call.refused = false))

theorem answer_bounded (heap : Heap) (size : Nat) (granted : heap.answer size = true) :
    size < addressSpace :=
  heap.bounded heap.calls.length size granted

@[simp] theorem free_unrefused (heap : Heap) (block : Option Block) :
    (heap.free block).Unrefused ↔ heap.Unrefused := by
  simp [Unrefused, free, Call.refused]

theorem realloc_unrefused (heap : Heap) (block : Option Block) (size : Nat) :
    (heap.realloc block size).Unrefused ↔
      (heap.answer size = true ∨ size = 0) ∧ heap.Unrefused := by
  unfold Unrefused realloc
  simp only [List.forall_mem_cons]
  cases granted : heap.answer size <;> simp [Call.refused]

def GrantedSince (before after : Heap) : Prop :=
  ∀ made, after.calls = made ++ before.calls → ∀ call ∈ made, call.refused = false

theorem grantedSince_later {before middle after : Heap} {earlier later : List Call}
    (first : middle.calls = earlier ++ before.calls) (second : after.calls = later ++ middle.calls)
    (granted : before.GrantedSince after) : ∀ call ∈ later, call.refused = false := by
  intro call member
  have all : after.calls = (later ++ earlier) ++ before.calls := by
    rw [second, first, List.append_assoc]
  exact granted _ all call (List.mem_append_left _ member)

theorem grantedSince_earlier {before middle after : Heap} {later : List Call}
    (second : after.calls = later ++ middle.calls) (granted : before.GrantedSince after) :
    before.GrantedSince middle := by
  intro made first call member
  have all : after.calls = (later ++ made) ++ before.calls := by
    rw [second, first, List.append_assoc]
  exact granted _ all call (List.mem_append_right _ member)

theorem grantedSince_of_unrefused (before after : Heap) (unrefused : after.Unrefused) :
    before.GrantedSince after := by
  intro made all call member
  exact unrefused call (by rw [all]; exact List.mem_append_left _ member)

def exhausted : Heap where
  grants _ _ := false
  fresh _ _ := 0
  calls := []
  bounded _ _ granted := absurd granted Bool.false_ne_true

def generous : Heap where
  grants _ size := decide (size < addressSpace)
  fresh _ _ := 0
  calls := []
  bounded _ _ granted := of_decide_eq_true granted

end Heap

/-- `answers` scripts each system call: `none` is a failure, `some n` a transfer of
about `n` bytes. `arriving` is what a descriptor outside the model delivers. -/
structure Kernel where
  answers : Nat → Option Nat
  arriving : Nat → Memory UInt8
  calls : Nat

namespace Kernel

def next (kernel : Kernel) : Kernel := { kernel with calls := kernel.calls + 1 }

/-- A transfer limited to `available` bytes moves at least one byte when it can. -/
def transfer (kernel : Kernel) (available : Nat) : Option Nat :=
  (kernel.answers kernel.calls).map fun n =>
    if available = 0 then 0 else max 1 (min n available)

def receive (kernel : Kernel) (requested : Nat) : Option (List UInt8) :=
  (kernel.answers kernel.calls).map fun n =>
    load (kernel.arriving kernel.calls) 0 (min n requested)

theorem transfer_le (kernel : Kernel) (available n : Nat)
    (moved : kernel.transfer available = some n) : n ≤ available := by
  unfold transfer at moved
  cases answered : kernel.answers kernel.calls with
  | none => simp [answered] at moved
  | some wanted =>
      simp only [answered, Option.map_some, Option.some.injEq] at moved
      split at moved <;> omega

theorem transfer_pos (kernel : Kernel) (available n : Nat) (some_bytes : 0 < available)
    (moved : kernel.transfer available = some n) : 0 < n := by
  unfold transfer at moved
  cases answered : kernel.answers kernel.calls with
  | none => simp [answered] at moved
  | some wanted =>
      simp only [answered, Option.map_some, Option.some.injEq] at moved
      split at moved <;> omega

theorem receive_length_le (kernel : Kernel) (requested : Nat) (bytes : List UInt8)
    (read : kernel.receive requested = some bytes) : bytes.length ≤ requested := by
  unfold receive at read
  cases answered : kernel.answers kernel.calls with
  | none => simp [answered] at read
  | some wanted =>
      simp only [answered, Option.map_some, Option.some.injEq] at read
      subst bytes
      rw [load_length]
      exact Nat.min_le_right wanted requested

def willing : Kernel where
  answers _ := some (2 ^ 64)
  arriving _ _ := 0
  calls := 0

end Kernel

/-- The convention of `ssize_t` results: the number of bytes moved, or -1 and none moved. -/
def Reports (result : Int) (bytes : List UInt8) : Prop :=
  result = bytes.length ∨ result = -1 ∧ bytes = []

theorem Reports.toNat {result : Int} {bytes : List UInt8} (reports : Reports result bytes) :
    result.toNat = bytes.length := by
  rcases reports with counted | ⟨failed, nothing⟩
  · simp [counted]
  · simp [failed, nothing]

structure World where
  heap : Heap
  kernel : Kernel

end Xio.Environment
