import Xio.BufferAppend
import Xio.Find

/-!
The range checks of `include/xio/Buffer.h`: the assertions before a window is made or
copied. `ref` and `slice` compare the offset and then the sum of offset and count with the
size, `substr` and the copying constructor only the sum, and the sum is one of machine
words. The ranged `push_back` has the comparison the other way round.
-/

namespace Xio.BufferRef

open MachineWord

-- The assertion of `substr(offset, count)`.
def substrAsserts (view : BufferRef) (offset count : Nat) : Bool :=
  decide (add offset count ≤ view.size)

end Xio.BufferRef

namespace Xio.Ranges

open Storage MachineWord Environment MutableBuffer

structure Within (window view : BufferRef) : Prop where
  bytes_eq : window.bytes = view.bytes
  start_le : view.start ≤ window.start
  end_le : window.start + window.size ≤ view.start + view.size

/-- The sum of a range wraps around to something that is not larger than the size. -/
def Wraps (size offset count : Nat) : Prop :=
  2 ^ 64 ≤ offset + count ∧ offset + count - 2 ^ 64 ≤ size

theorem add_le_iff (size offset count : Nat) (start : offset < 2 ^ 64) (extent : count < 2 ^ 64)
    (word : size < 2 ^ 64) :
    add offset count ≤ size ↔ offset + count ≤ size ∨ Wraps size offset count := by
  simp only [add, Wraps]
  omega

theorem refCount_within_iff (view : BufferRef) (offset count : Nat) (start : offset < 2 ^ 64)
    (extent : count < 2 ^ 64) (word : view.size < 2 ^ 64) :
    (∀ window, view.refCount offset count = some window → Within window view) ↔
      ¬ (offset ≤ view.size ∧ count ≠ npos ∧ Wraps view.size offset count) := by
  have sums := add_le_iff view.size offset count start extent word
  constructor
  · rintro inside ⟨first, counted, wraps⟩
    have asserted : offset ≤ view.size ∧ (count = npos ∨ add offset count ≤ view.size) :=
      ⟨first, Or.inr (sums.mpr (Or.inr wraps))⟩
    have taken : view.refCount offset count = some ⟨view.bytes, view.start + offset, count⟩ := by
      rw [BufferRef.refCount, if_pos asserted, if_pos counted]
    have ends := (inside _ taken).end_le
    simp only [Wraps] at wraps ends
    omega
  · intro straight window taken
    simp only [BufferRef.refCount] at taken
    split at taken
    · rename_i asserted
      obtain ⟨first, extends_to⟩ := asserted
      rw [← Option.some.inj taken]
      by_cases rest : count = npos
      · rw [if_neg (not_not.mpr rest), sub_exact first]
        exact ⟨rfl, Nat.le_add_right _ _, by simp only; omega⟩
      · have within : offset + count ≤ view.size :=
          (sums.mp (extends_to.resolve_left rest)).resolve_right
            fun wraps => straight ⟨first, rest, wraps⟩
        rw [if_pos rest]
        exact ⟨rfl, Nat.le_add_right _ _, by simp only; omega⟩
    · cases taken

-- `slice` makes the same checks on its own size.
theorem slice_eq_refCount (buffer : Buffer) (offset count : Nat) :
    (buffer.slice offset count).map (·.view buffer) = (buffer.ref 0).refCount offset count := by
  have whole : (buffer.ref 0).size = buffer.size := sub_exact (Nat.zero_le _)
  have start : (buffer.ref 0).start = 0 := rfl
  simp only [Buffer.slice, BufferRef.refCount, whole, start, Nat.zero_add]
  split
  · rename_i asserted
    by_cases rest : count = npos
    · simp only [if_neg (not_not.mpr rest)]
      rfl
    · simp only [if_pos rest]
      rfl
  · rfl

theorem slice_within_iff (buffer : Buffer) (offset count : Nat) (start : offset < 2 ^ 64)
    (extent : count < 2 ^ 64) (word : buffer.size < 2 ^ 64) :
    (∀ window, buffer.slice offset count = some window →
        window.offset + window.size ≤ buffer.size) ↔
      ¬ (offset ≤ buffer.size ∧ count ≠ npos ∧ Wraps buffer.size offset count) := by
  have whole : (buffer.ref 0).size = buffer.size := sub_exact (Nat.zero_le _)
  have same := slice_eq_refCount buffer offset count
  have through := refCount_within_iff (buffer.ref 0) offset count start extent
    (by rw [whole]; exact word)
  rw [whole, ← same] at through
  rw [← through]
  constructor
  · intro inside window taken
    obtain ⟨slice, sliced, rfl⟩ := Option.map_eq_some_iff.mp taken
    refine ⟨rfl, Nat.zero_le _, ?_⟩
    have ends := inside slice sliced
    simp only [BufferSlice.view, whole]
    exact Nat.le_trans ends (Nat.le_add_left _ _)
  · intro inside slice sliced
    have ends := (inside (slice.view buffer) (by rw [sliced]; rfl)).end_le
    rw [whole] at ends
    have start : (buffer.ref 0).start = 0 := rfl
    rw [start, Nat.zero_add] at ends
    exact ends

theorem sum_asserted_iff (size offset count : Nat) (start : offset < 2 ^ 64)
    (extent : count < 2 ^ 64) (word : size < 2 ^ 64) :
    (add offset count ≤ size → offset + count ≤ size) ↔ ¬ Wraps size offset count := by
  rw [add_le_iff size offset count start extent word]
  constructor
  · intro inside wraps
    have straight := inside (Or.inr wraps)
    simp only [Wraps] at wraps
    omega
  · intro straight asserted
    exact asserted.resolve_right straight

/-- What a range check lets through lies inside, exactly where the sum of offset and count
does not wrap around to a small number. -/
theorem range_assertions_iff (view : BufferRef) (buffer : Buffer) (offset count : Nat) (heap : Heap)
    (start : offset < 2 ^ 64) (extent : count < 2 ^ 64) (word : view.size < 2 ^ 64)
    (buffer_word : buffer.size < 2 ^ 64) :
    ((∀ window, view.refCount offset count = some window → Within window view) ↔
        ¬ (offset ≤ view.size ∧ count ≠ npos ∧ Wraps view.size offset count)) ∧
      ((∀ window, buffer.slice offset count = some window →
          window.offset + window.size ≤ buffer.size) ↔
        ¬ (offset ≤ buffer.size ∧ count ≠ npos ∧ Wraps buffer.size offset count)) ∧
      ((view.substrAsserts offset count = true → offset + count ≤ view.size) ↔
        ¬ Wraps view.size offset count) ∧
      (((Buffer.ofRange view offset count heap).isSome = true → offset + count ≤ view.size) ↔
        ¬ Wraps view.size offset count) := by
  have sum := sum_asserted_iff view.size offset count start extent word
  refine ⟨refCount_within_iff view offset count start extent word,
    slice_within_iff buffer offset count start extent buffer_word, ?_, ?_⟩
  · rw [BufferRef.substrAsserts, decide_eq_true_iff]
    exact sum
  · have copied : (Buffer.ofRange view offset count heap).isSome = true ↔
        add offset count ≤ view.size := by
      simp only [Buffer.ofRange]
      split <;> simp_all
    rw [copied]
    exact sum

def three : BufferRef := ⟨store (fun _ => 0) 0 [97, 98, 99], 0, 3⟩

theorem range_assertions_tail :
    (∀ window, three.refCount 1 2 = some window → Within window three) ∧
      (three.substrAsserts 1 2 = true → 1 + 2 ≤ three.size) := by
  have all := range_assertions_iff three .empty 1 2 Heap.generous (by decide) (by decide)
    (by decide) (by decide)
  have straight : ¬ Wraps three.size 1 2 := fun wraps => absurd wraps.1 (by decide)
  exact ⟨all.1.mpr fun passed => straight passed.2.2, all.2.2.1.mpr straight⟩

/-- Two less than `npos` bytes at the end of three are asserted, and so is one byte in front
of them. -/
theorem wrapped_ranges_pass :
    (three.refCount 3 (2 ^ 64 - 2)).map (·.size) = some (2 ^ 64 - 2) ∧
      (Slices.abc.1.slice 3 (2 ^ 64 - 2)).map (·.size) = some (2 ^ 64 - 2) ∧
      three.substrAsserts (2 ^ 64 - 1) 1 = true ∧
      (Buffer.ofRange three (2 ^ 64 - 1) 1 Heap.generous).isSome = true := by
  decide

/-! The ranged `push_back`. -/

variable {ensure : Ensure}

def Agrees (buffer : MutableBuffer ensure) (value : BufferRef) (offset length : Nat) (heap : Heap) :
    Prop :=
  ∃ window after, value.refCount offset length = some window ∧
    buffer.pushBackRange value offset length heap = some after ∧
    after.1.size = (buffer.pushBack window.content heap).1.size ∧
    after.1.content = (buffer.pushBack window.content heap).1.content

/-- Only bytes of `value` are copied: whatever else memory holds around them, the result
is the same. -/
def Confined (buffer : MutableBuffer ensure) (value : BufferRef) (offset length : Nat)
    (heap : Heap) : Prop :=
  ∀ memory, load memory value.start value.size = value.content →
    buffer.pushBackRange { value with bytes := memory } offset length heap =
      buffer.pushBackRange value offset length heap

/-- Room for so many more bytes: they fit, or the policy is to grow and `realloc` grants
what it is asked for, or is asked for nothing. -/
def Roomy (buffer : MutableBuffer ensure) (length : Nat) (heap : Heap) : Prop :=
  let wanted := add buffer.size length
  wanted ≤ buffer.capacity ∨ ensure = .mutableEnsure ∧
    (BufferAppend.asked buffer wanted = 0 ∨
      heap.answer (BufferAppend.asked buffer wanted) = true)

theorem reserve_ok_iff_roomy (buffer : MutableBuffer ensure) (length : Nat) (heap : Heap) :
    (buffer.reserve (add buffer.size length) heap).ok = true ↔ Roomy buffer length heap := by
  cases ensure with
  | immutableEnsure => simp [reserve, Roomy]
  | mutableEnsure =>
      rw [BufferAppend.reserve_ok_iff]
      simp [Roomy]

theorem agrees_iff (buffer : MutableBuffer ensure) (value : BufferRef) (offset length : Nat)
    (heap : Heap) (word : value.size < 2 ^ 64) (within : offset + length ≤ value.size) :
    Agrees buffer value offset length heap ↔ offset + length = value.size := by
  have sum : add offset length = offset + length := add_exact (by omega)
  have taken := BufferRef.refCount_inside value offset length word within
  constructor
  · rintro ⟨_, _, _, appended, _⟩
    simp only [pushBackRange, sum] at appended
    split at appended
    · omega
    · cases appended
  · intro whole
    have passed : value.size ≤ add offset length := by omega
    refine ⟨_, _, taken, by rw [pushBackRange, if_pos passed], ?_⟩
    simp only [pushBack, BufferRef.content, load_length, and_self]

-- A part of the content, in any memory that holds the content.
theorem load_part (memory : Memory UInt8) (value : BufferRef) (offset length : Nat)
    (within : offset + length ≤ value.size)
    (holds : load memory value.start value.size = value.content) :
    load memory (value.start + offset) length = (value.content.drop offset).take length := by
  rw [← holds, load_drop, load_take, Nat.min_eq_left (by omega)]

theorem exists_other_memory (value : BufferRef) (position : Nat) (behind : value.size ≤ position) :
    ∃ memory : Memory UInt8, load memory value.start value.size = value.content ∧
      memory (value.start + position) ≠ value.bytes (value.start + position) := by
  have two : ∀ byte : UInt8, ∃ other, other ≠ byte := by
    intro byte
    by_cases zero : byte = 0
    · exact ⟨1, by rw [zero]; decide⟩
    · exact ⟨0, Ne.symm zero⟩
  obtain ⟨other, differs⟩ := two (value.bytes (value.start + position))
  refine ⟨Function.update value.bytes (value.start + position) other, ?_, ?_⟩
  · apply load_congr
    intro address _ inside
    exact Function.update_of_ne (by omega) ..
  · rw [Function.update_self]
    exact differs

theorem append_ok_injective (reserved : Reserved ensure) (left right : List UInt8)
    (ok : reserved.ok = true) (lengths : left.length = right.length)
    (same : append reserved left = append reserved right) : left = right := by
  simp only [append, if_pos ok, lengths] at same
  have bytes := congrArg (fun after : MutableBuffer ensure × Heap =>
    load after.1.bytes reserved.buffer.size left.length) same
  simp only [load_store_self] at bytes
  rw [lengths, load_store_self] at bytes
  exact bytes

theorem confined_iff (buffer : MutableBuffer ensure) (value : BufferRef) (offset length : Nat)
    (heap : Heap) :
    Confined buffer value offset length heap ↔
      (value.size ≤ add offset length → Roomy buffer length heap →
        length = 0 ∨ offset + length ≤ value.size) := by
  constructor
  · intro confined passed roomy
    by_contra beyond
    obtain ⟨something, behind⟩ := not_or.mp beyond
    obtain ⟨memory, holds, differs⟩ :=
      exists_other_memory value (offset + (length - 1)) (by omega)
    have same := confined memory holds
    simp only [pushBackRange, if_pos passed, if_neg something, Option.some.injEq] at same
    have windows := append_ok_injective _ _ _ ((reserve_ok_iff_roomy buffer length heap).mpr roomy)
      (by rw [load_length, load_length]) same
    -- the last byte of the window is the one in which the memories differ
    have last := congrArg (fun window => window[length - 1]?) windows
    simp only [load_getElem?, if_pos (Nat.sub_one_lt something), Option.some.injEq,
      Nat.add_assoc] at last
    exact differs last
  · intro contained memory holds
    simp only [pushBackRange]
    by_cases passed : value.size ≤ add offset length
    · rw [if_pos passed, if_pos passed]
      by_cases nothing : length = 0
      · rw [if_pos nothing, if_pos nothing]
      rw [if_neg nothing, if_neg nothing]
      by_cases ok : (buffer.reserve (add buffer.size length) heap).ok = true
      · have within := (contained passed
          ((reserve_ok_iff_roomy buffer length heap).mp ok)).resolve_left nothing
        rw [load_part memory value offset length within holds,
          load_part value.bytes value offset length within rfl]
      · rw [append, append, if_neg ok, if_neg ok]
    · rw [if_neg passed, if_neg passed]

/-- The ranged append against the append of a part. Of the ranges inside the value its
assertion lets only those through that reach to the end, and outside it lets through all
that do: then the result depends on memory behind the value, if anything is copied and
there is room. -/
theorem ranged_append_iff (buffer : MutableBuffer ensure) (value : BufferRef) (offset length : Nat)
    (heap : Heap) (word : value.size < 2 ^ 64) :
    (offset + length ≤ value.size →
        (Agrees buffer value offset length heap ↔ offset + length = value.size)) ∧
      (Confined buffer value offset length heap ↔
        (value.size ≤ add offset length → Roomy buffer length heap →
          length = 0 ∨ offset + length ≤ value.size)) :=
  ⟨agrees_iff buffer value offset length heap word, confined_iff buffer value offset length heap⟩

theorem ranged_append_tail :
    Agrees (.empty : Buffer) three 1 2 Heap.generous ∧
      Confined (.empty : Buffer) three 1 2 Heap.generous := by
  have both := ranged_append_iff (.empty : Buffer) three 1 2 Heap.generous (by decide)
  exact ⟨(both.1 (by decide)).mpr (by decide), both.2.mpr fun _ _ => Or.inr (by decide)⟩

/-- The first byte of three cannot be appended; seven bytes from the third on can, and six
of them are whatever lies behind. -/
theorem proper_range_refused :
    ¬ Agrees (.empty : Buffer) three 0 1 Heap.generous ∧
      ¬ Confined (.empty : Buffer) three 2 7 Heap.generous := by
  constructor
  · rw [agrees_iff _ three 0 1 _ (by decide) (by decide)]
    decide
  · rw [confined_iff]
    intro contained
    have room : Roomy (.empty : Buffer) 7 Heap.generous := Or.inr ⟨rfl, Or.inr (by decide)⟩
    exact absurd (contained (by decide) room) (by decide)

end Xio.Ranges
