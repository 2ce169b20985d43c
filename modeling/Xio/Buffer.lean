import Mathlib.Data.Nat.Digits.Lemmas
import Xio.MachineWord
import Xio.Environment

/-!
`MutableBuffer<ensure>` and `Buffer` of `include/xio/Buffer.h` with
`Buffer::setCapacity` of `lib/Buffer.cpp`. A buffer owns its storage, so the bytes
behind `data_` live in the buffer itself; `data` only names the block. Freed
storage keeps its name, as the source does not null the pointer. The formatted
text of `snprintf` is an argument: formatting itself is not modelled.
-/

namespace Xio

open Storage MachineWord Environment

inductive Ensure where
  | immutableEnsure
  | mutableEnsure
  deriving DecidableEq

structure BufferRef where
  bytes : Memory UInt8
  start : Nat
  size : Nat

def BufferRef.content (view : BufferRef) : List UInt8 := load view.bytes view.start view.size

structure MutableBuffer (ensure : Ensure) where
  data : Option Block
  bytes : Memory UInt8
  size : Nat
  capacity : Nat

abbrev FixedBuffer := MutableBuffer .immutableEnsure
abbrev Buffer := MutableBuffer .mutableEnsure

structure Reserved (ensure : Ensure) where
  ok : Bool
  buffer : MutableBuffer ensure
  heap : Heap

namespace Buffer

def chunkSize : Nat := 4096

-- The padding of a regrowth. The sum wraps for requests in the last chunk below 2^64.
def padded (value : Nat) : Nat :=
  sub (add (sub value 1) chunkSize) (sub value 1 % chunkSize)

def reallocate (buffer : Buffer) (value : Nat) (heap : Heap) : Reserved .mutableEnsure :=
  if heap.answer value then
    ⟨true,
      { data := some heap.calls.length
        bytes := heap.resized buffer.bytes buffer.capacity value
        size := buffer.size
        capacity := value },
      heap.realloc buffer.data value⟩
  else if value = 0 then ⟨true, { buffer with capacity := 0 }, heap.realloc buffer.data value⟩
  else ⟨false, buffer, heap.realloc buffer.data value⟩

def setCapacity (buffer : Buffer) (value : Nat) (heap : Heap) : Reserved .mutableEnsure :=
  if value = 0 ∧ buffer.capacity ≠ 0 then
    -- free(data_): neither data_ nor size_ is reset
    ⟨true, { buffer with capacity := 0 }, heap.free buffer.data⟩
  else if buffer.capacity < value then
    reallocate buffer (if buffer.capacity = 0 then value else padded value) heap
  else if value < buffer.capacity then
    reallocate { buffer with size := if value < buffer.size then value else buffer.size } value heap
  else ⟨true, buffer, heap⟩

end Buffer

namespace MutableBuffer

variable {ensure : Ensure}

def empty : MutableBuffer ensure := ⟨none, fun _ => 0, 0, 0⟩

def content (buffer : MutableBuffer ensure) : List UInt8 := load buffer.bytes 0 buffer.size

-- `ref(offset)`: the view up to the end of the content.
def ref (buffer : MutableBuffer ensure) (offset : Nat) : BufferRef :=
  ⟨buffer.bytes, offset, sub buffer.size offset⟩

def clear (buffer : MutableBuffer ensure) : MutableBuffer ensure := { buffer with size := 0 }

def resize (buffer : MutableBuffer ensure) (value : Nat) : Bool × MutableBuffer ensure :=
  if buffer.capacity < value then (false, buffer) else (true, { buffer with size := value })

/-- `reserve` runs the template argument: a fixed buffer compares, a managed one grows. -/
def reserve : {ensure : Ensure} → MutableBuffer ensure → Nat → Heap → Reserved ensure
  | .immutableEnsure, buffer, value, heap => ⟨decide (value ≤ buffer.capacity), buffer, heap⟩
  | .mutableEnsure, buffer, value, heap =>
      if buffer.capacity < value ∨ value = 0 then Buffer.setCapacity buffer value heap
      else ⟨true, buffer, heap⟩

-- The copy shared by every `push_back`: to `end()` after a successful `reserve`.
def append (reserved : Reserved ensure) (value : List UInt8) : MutableBuffer ensure × Heap :=
  if reserved.ok then
    ({ reserved.buffer with
        bytes := store reserved.buffer.bytes reserved.buffer.size value
        size := add reserved.buffer.size value.length }, reserved.heap)
  else (reserved.buffer, reserved.heap)

/-- `push_back(const void*, size_t)`. The overloads for `BufferRef`, `std::string`
and literals carry the same guard and the same copy. -/
def pushBack (buffer : MutableBuffer ensure) (value : List UInt8) (heap : Heap) :
    MutableBuffer ensure × Heap :=
  if value.length = 0 then (buffer, heap)
  else append (buffer.reserve (add buffer.size value.length) heap) value

def pushBackChar (buffer : MutableBuffer ensure) (value : UInt8) (heap : Heap) :
    MutableBuffer ensure × Heap :=
  append (buffer.reserve (add buffer.size 1) heap) [value]

def decimal (value : Nat) : List UInt8 :=
  if value = 0 then [48]
  else (Nat.digits 10 value).reverse.map fun digit => UInt8.ofNat (48 + digit)

-- The signed and unsigned integer overloads: `snprintf` with `%d`, `%u` and their long forms.
def pushBackInt (buffer : MutableBuffer ensure) (value : Int) (heap : Heap) :
    MutableBuffer ensure × Heap :=
  buffer.pushBack (if value < 0 then 45 :: decimal value.natAbs else decimal value.natAbs) heap

/-- `push_back(const BufferRef&, offset, length)`; `none` is a failed assertion. -/
def pushBackRange (buffer : MutableBuffer ensure) (value : BufferRef) (offset length : Nat)
    (heap : Heap) : Option (MutableBuffer ensure × Heap) :=
  if value.size ≤ add offset length then
    some (if length = 0 then (buffer, heap)
      else append (buffer.reserve (add buffer.size length) heap)
        (load value.bytes (value.start + offset) length))
  else none

def swap (left right : MutableBuffer ensure) : MutableBuffer ensure × MutableBuffer ensure :=
  (right, left)

/-- The `int` that `snprintf` returns for a formatted text; `none` is an output error,
and a text longer than `INT_MAX` is one too. -/
def formatted : Option (List UInt8) → Int
  | none => -1
  | some text => if text.length < 2 ^ 31 then text.length else -1

/-- What `snprintf` leaves at `start`: as much of the text as fits and a terminator. -/
def printed (memory : Memory UInt8) (start room : Nat) (text : Option (List UInt8)) :
    Memory UInt8 :=
  if room = 0 then memory
  else store memory start ((text.getD []).take (room - 1) ++ [0])

def snprintf (buffer : MutableBuffer ensure) (text : Option (List UInt8)) : MutableBuffer ensure :=
  { buffer with
    bytes := printed buffer.bytes buffer.size (sub buffer.capacity buffer.size) text }

-- `buflen + 1` with current C libraries, twice the capacity with those that return -1.
def retryLength (length : Int) (capacity : Nat) : Nat :=
  if -1 < length then length.toNat + 1 else add capacity capacity

-- The retry loop of `printf`. Each round formats once and grows at most once.
def printfLoop (text : Option (List UInt8)) :
    Nat → MutableBuffer ensure → Heap → MutableBuffer ensure × Heap
  | 0, buffer, heap => (buffer, heap)
  | rounds + 1, buffer, heap =>
      let written := buffer.snprintf text
      let length := formatted text
      if -1 ≤ length ∧ length < signed (sub buffer.capacity buffer.size) then
        -- size_ + buflen in size_t: a length of -1 subtracts one
        ((written.resize (if length < 0 then sub written.size 1
            else add written.size length.toNat)).2, heap)
      else
        let grown := written.reserve
          (add written.capacity (retryLength length written.capacity)) heap
        if grown.ok then printfLoop text rounds grown.buffer grown.heap
        else ({ grown.buffer with
            bytes := store grown.buffer.bytes (sub grown.buffer.capacity 1) [0] }, grown.heap)

def printf (buffer : MutableBuffer ensure) (format : List UInt8) (text : Option (List UInt8))
    (rounds : Nat) (heap : Heap) : MutableBuffer ensure × Heap :=
  let reserved := buffer.reserve (add (add buffer.size format.length) 1) heap
  printfLoop text rounds reserved.buffer reserved.heap

end MutableBuffer

namespace Buffer

open MutableBuffer

def ofCapacity (capacity : Nat) (heap : Heap) : Buffer × Heap :=
  let reserved := (empty : Buffer).reserve capacity heap
  (reserved.buffer, reserved.heap)

-- `Buffer(const char*)`: the pointer converts to `std::string` for `push_back`.
def ofChars (value : List UInt8) (heap : Heap) : Buffer × Heap :=
  (empty : Buffer).pushBack value heap

-- `Buffer(const std::string&)` copies the terminator too and then cuts it off.
def ofString (value : List UInt8) (heap : Heap) : Buffer × Heap :=
  let copied := (empty : Buffer).pushBack (value ++ [0]) heap
  ((copied.1.resize value.length).2, copied.2)

def ofBuffer (value : Buffer) (heap : Heap) : Buffer × Heap :=
  (empty : Buffer).pushBack value.content heap

def ofRange (value : BufferRef) (offset count : Nat) (heap : Heap) : Option (Buffer × Heap) :=
  if add offset count ≤ value.size then
    some ((empty : Buffer).pushBack (load value.bytes (value.start + offset) count) heap)
  else none

-- `operator=` from a `BufferRef`, a `std::string` or a C string.
def assign (buffer : Buffer) (value : List UInt8) (heap : Heap) : Buffer × Heap :=
  buffer.clear.pushBack value heap

-- `operator=(Buffer&&)` of two distinct buffers: the target, then the emptied source.
def assignMove (buffer value : Buffer) (heap : Heap) : Buffer × Buffer × Heap :=
  let released := buffer.reserve 0 heap
  ({ released.buffer with
      data := value.data
      bytes := value.bytes
      size := value.size
      capacity := value.capacity },
    { value with data := none, size := 0, capacity := 0 }, released.heap)

-- `b = std::move(b)`: the fields are copied onto themselves and then zeroed.
def assignMoveSelf (buffer : Buffer) (heap : Heap) : Buffer × Heap :=
  let released := buffer.reserve 0 heap
  ({ released.buffer with data := none, size := 0, capacity := 0 }, released.heap)

def cStr (buffer : Buffer) (heap : Heap) : Buffer × Heap :=
  let reserved := buffer.reserve (add buffer.size 1) heap
  (if reserved.ok then
    { reserved.buffer with bytes := store reserved.buffer.bytes reserved.buffer.size [0] }
  else reserved.buffer, reserved.heap)

end Buffer

theorem MutableBuffer.decimal_ne_nil (value : Nat) : decimal value ≠ [] := by
  simp only [decimal]
  split
  · simp
  · rename_i nonzero
    simp only [ne_eq, List.map_eq_nil_iff, List.reverse_eq_nil_iff]
    exact Nat.digits_ne_nil_iff_ne_zero.mpr nonzero

theorem MutableBuffer.ref_content {ensure : Ensure} (buffer : MutableBuffer ensure) :
    (buffer.ref 0).content = buffer.content := by
  simp only [ref, BufferRef.content, content, sub_exact (Nat.zero_le _), Nat.sub_zero]

/-! Facts about one capacity change. `Valid` is what every caller that subtracts
the size from the capacity relies on; `Kept` is the frame of a reallocation. -/

structure MutableBuffer.Valid {ensure : Ensure} (buffer : MutableBuffer ensure) : Prop where
  fits : buffer.size ≤ buffer.capacity
  bounded : buffer.capacity < addressSpace

/-- `data_` is null or there is storage behind it. Freed storage leaves a buffer that is not
anchored: it points to a block that its next request for room hands to `realloc`. -/
def MutableBuffer.Anchored {ensure : Ensure} (buffer : MutableBuffer ensure) : Prop :=
  buffer.data = none ∨ buffer.capacity ≠ 0

instance {ensure : Ensure} (buffer : MutableBuffer ensure) : Decidable buffer.Anchored :=
  inferInstanceAs (Decidable (buffer.data = none ∨ buffer.capacity ≠ 0))

structure MutableBuffer.Kept {ensure : Ensure} (before after : MutableBuffer ensure) : Prop where
  size_eq : after.size = before.size
  bytes_eq : ∀ address < before.size, after.bytes address = before.bytes address

abbrev SoundBuffer := { buffer : Buffer // buffer.Valid }

namespace Buffer

open MutableBuffer

structure Grows (before : Buffer) (value : Nat) (heap : Heap)
    (after : Reserved .mutableEnsure) : Prop where
  valid : after.buffer.Valid
  kept : before.Kept after.buffer
  room : after.ok = true → value ≤ after.buffer.capacity
  unrefused : after.heap.Unrefused ↔ after.ok = true ∧ heap.Unrefused

theorem empty_valid : (empty : Buffer).Valid :=
  ⟨Nat.le_refl 0, addressSpace_pos⟩

theorem kept_refl {ensure : Ensure} (buffer : MutableBuffer ensure) : buffer.Kept buffer :=
  ⟨rfl, fun _ _ => rfl⟩

theorem padded_bounds (value : Nat) (positive : 0 < value) (small : value ≤ 2 ^ 64 - chunkSize) :
    value ≤ padded value ∧ padded value < value + chunkSize := by
  unfold chunkSize at small
  have last : sub value 1 = value - 1 := sub_exact positive
  have sum : add (value - 1) chunkSize = value - 1 + chunkSize :=
    add_exact (by unfold chunkSize; omega)
  unfold padded
  rw [last, sum, sub_exact (by unfold chunkSize; omega)]
  unfold chunkSize
  omega

theorem reallocate_grows (buffer : Buffer) (value : Nat) (heap : Heap)
    (valid : buffer.Valid) (room : buffer.size ≤ value) :
    Grows buffer value heap (reallocate buffer value heap) := by
  unfold reallocate
  split
  · rename_i granted
    have bounded := heap.answer_bounded value granted
    refine ⟨⟨room, bounded⟩, ⟨rfl, ?_⟩, fun _ => Nat.le_refl value, ?_⟩
    · intro address inside
      have copied : address < min buffer.capacity value := by
        have := valid.fits
        omega
      simp [Heap.resized, copied]
    · simp [Heap.realloc_unrefused, granted]
  · rename_i denied
    split
    · rename_i zero
      subst value
      exact ⟨⟨room, addressSpace_pos⟩, ⟨rfl, fun _ _ => rfl⟩, fun _ => Nat.le_refl 0,
        by simp [Heap.realloc_unrefused]⟩
    · rename_i nonzero
      exact ⟨valid, kept_refl buffer, by simp, by simp [Heap.realloc_unrefused, denied, nonzero]⟩

theorem setCapacity_grows (buffer : Buffer) (value : Nat) (heap : Heap)
    (valid : buffer.Valid) (room : buffer.size ≤ value) (small : value ≤ 2 ^ 64 - chunkSize) :
    Grows buffer value heap (setCapacity buffer value heap) := by
  unfold setCapacity
  split
  · rename_i released
    have nothing : buffer.size = 0 := by omega
    exact ⟨⟨Nat.le_of_eq nothing, addressSpace_pos⟩, ⟨rfl, fun _ _ => rfl⟩,
      fun _ => Nat.le_of_eq released.1, by simp⟩
  split
  · rename_i larger
    split
    · exact reallocate_grows buffer value heap valid room
    · -- a regrowth asks for the padded size, which covers the request
      have cover := (padded_bounds value (by omega) small).1
      have grown := reallocate_grows buffer (padded value) heap valid (Nat.le_trans room cover)
      exact ⟨grown.valid, grown.kept, fun ok => Nat.le_trans cover (grown.room ok),
        grown.unrefused⟩
  split
  · have uncut : (if value < buffer.size then value else buffer.size) = buffer.size :=
      if_neg (by omega)
    rw [uncut]
    exact reallocate_grows buffer value heap valid room
  · exact ⟨valid, kept_refl buffer, fun _ => by show value ≤ buffer.capacity; omega, by simp⟩

theorem reserve_grows (buffer : Buffer) (value : Nat) (heap : Heap)
    (valid : buffer.Valid) (nonzero : value = 0 → buffer.size = 0)
    (small : value ≤ 2 ^ 64 - chunkSize) :
    Grows buffer value heap (buffer.reserve value heap) := by
  have fits := valid.fits
  unfold MutableBuffer.reserve
  simp only
  split
  · apply setCapacity_grows buffer value heap valid _ small
    by_cases zero : value = 0
    · have := nonzero zero
      omega
    · omega
  · exact ⟨valid, kept_refl buffer, fun _ => by show value ≤ buffer.capacity; omega, by simp⟩

theorem empty_anchored : (empty : Buffer).Anchored := Or.inl rfl

theorem anchored_of_storage {buffer later : Buffer} (anchored : buffer.Anchored)
    (data : later.data = buffer.data) (capacity : later.capacity = buffer.capacity) :
    later.Anchored := by
  simpa only [Anchored, data, capacity] using anchored

theorem reallocate_anchored (buffer : Buffer) (value : Nat) (heap : Heap)
    (anchored : buffer.Anchored) (nonzero : value ≠ 0) :
    (reallocate buffer value heap).buffer.Anchored := by
  simp only [reallocate, if_neg nonzero]
  split
  · exact Or.inr nonzero
  · exact anchored

/-- Only a request for no room parts a buffer from its storage, apart from one that the
padding wraps to 0. -/
theorem reserve_anchored (buffer : Buffer) (value : Nat) (heap : Heap) (anchored : buffer.Anchored)
    (keeps : value ≠ 0 ∨ buffer.capacity = 0)
    (small : buffer.capacity = 0 ∨ value ≤ 2 ^ 64 - chunkSize) :
    (buffer.reserve value heap).buffer.Anchored := by
  simp only [MutableBuffer.reserve, setCapacity]
  split
  · rw [if_neg (by omega)]
    split
    · rename_i larger
      apply reallocate_anchored buffer _ heap anchored
      split
      · omega
      · rename_i regrowth
        have cover := (padded_bounds value (by omega) (small.resolve_left regrowth)).1
        omega
    · rw [if_neg (by omega)]
      exact anchored
  · exact anchored

-- A buffer that owns nothing yet asks for exactly what it needs, so no padding can wrap.
theorem ofCapacity_grows (capacity : Nat) (heap : Heap) :
    Grows empty capacity heap ((empty : Buffer).reserve capacity heap) := by
  by_cases nothing : capacity = 0
  · exact reserve_grows empty capacity heap empty_valid (fun _ => rfl) (by omega)
  · have positive : 0 < capacity := by omega
    have grown := reallocate_grows empty capacity heap empty_valid (Nat.zero_le _)
    simpa [MutableBuffer.reserve, setCapacity, empty, positive] using grown

theorem content_of_kept {ensure : Ensure} {before after : MutableBuffer ensure}
    (kept : before.Kept after) :
    after.content = before.content := by
  simp only [content, kept.size_eq]
  apply load_congr
  intro address _ inside
  exact kept.bytes_eq address (by omega)

/-- What one append leaves behind: the old bytes, and either all of the value
behind them or nothing. -/
structure Appends (before : Buffer) (value : List UInt8) (heap : Heap)
    (after : Buffer × Heap) : Prop where
  valid : after.1.Valid
  bytes_eq : ∀ address < before.size, after.1.bytes address = before.bytes address
  whole : after.1.size = before.size ∨ after.1.size = before.size + value.length
  copied : after.1.size = before.size + value.length →
    load after.1.bytes before.size value.length = value
  unrefused : after.2.Unrefused →
    heap.Unrefused ∧ after.1.size = before.size + value.length

theorem store_appends (buffer : Buffer) (value : List UInt8) (asked : Nat) (heap : Heap)
    (reserved : Reserved .mutableEnsure) (grown : Grows buffer asked heap reserved)
    (room : buffer.size + value.length ≤ reserved.buffer.capacity) :
    Appends buffer value heap (⟨reserved.buffer.data,
      store reserved.buffer.bytes buffer.size value, buffer.size + value.length,
      reserved.buffer.capacity⟩, reserved.heap) := by
  refine ⟨⟨room, grown.valid.bounded⟩, ?_, Or.inr rfl, fun _ => load_store_self _ _ _, ?_⟩
  · intro address inside
    show store reserved.buffer.bytes buffer.size value address = buffer.bytes address
    rw [store_outside _ _ _ _ (Or.inl inside)]
    exact grown.kept.bytes_eq address inside
  · intro unrefused
    exact ⟨(grown.unrefused.mp unrefused).2, rfl⟩

theorem append_appends (buffer : Buffer) (value : List UInt8) (heap : Heap)
    (reserved : Reserved .mutableEnsure) (nonempty : value.length ≠ 0)
    (grown : Grows buffer (buffer.size + value.length) heap reserved) :
    Appends buffer value heap (append reserved value) := by
  have bounded := grown.valid.bounded
  have sized := grown.kept.size_eq
  simp only [append]
  split
  · rename_i ok
    have room := grown.room ok
    have sum : add reserved.buffer.size value.length = buffer.size + value.length := by
      rw [sized]
      exact add_exact (by simp only [addressSpace] at bounded; omega)
    rw [sum, sized]
    exact store_appends buffer value _ heap reserved grown room
  · rename_i failed
    refine ⟨grown.valid, grown.kept.bytes_eq, Or.inl sized, ?_, ?_⟩
    · intro longer
      rw [sized] at longer
      omega
    · intro unrefused
      exact absurd (grown.unrefused.mp unrefused).1 failed

def Requestable (buffer : Buffer) (length : Nat) : Prop :=
  buffer.size + length ≤ 2 ^ 64 - chunkSize

-- Bytes held in memory never push a request near the top of the word.
theorem requestable_of_inMemory (buffer : Buffer) (length : Nat) (valid : buffer.Valid)
    (inMemory : length < addressSpace) : buffer.Requestable length := by
  have fits := valid.fits
  have bounded := valid.bounded
  simp only [addressSpace] at bounded inMemory
  simp only [Requestable, chunkSize]
  omega

theorem reserve_more (buffer : Buffer) (length : Nat) (heap : Heap) (valid : buffer.Valid)
    (requestable : buffer.Requestable length) :
    Grows buffer (buffer.size + length) heap (buffer.reserve (add buffer.size length) heap) := by
  simp only [Requestable] at requestable
  have sum : add buffer.size length = buffer.size + length :=
    add_exact (by simp only [chunkSize] at requestable; omega)
  rw [sum]
  exact reserve_grows buffer _ heap valid (by omega) requestable

theorem append_anchored (reserved : Reserved .mutableEnsure) (value : List UInt8)
    (anchored : reserved.buffer.Anchored) : (append reserved value).1.Anchored := by
  simp only [append]
  split <;> exact anchored

theorem reserve_more_anchored (buffer : Buffer) (length : Nat) (heap : Heap)
    (anchored : buffer.Anchored) (requestable : buffer.Requestable length)
    (keeps : buffer.size + length ≠ 0 ∨ buffer.capacity = 0) :
    (buffer.reserve (add buffer.size length) heap).buffer.Anchored := by
  simp only [Requestable] at requestable
  have sum : add buffer.size length = buffer.size + length :=
    add_exact (by simp only [chunkSize] at requestable; omega)
  rw [sum]
  exact reserve_anchored buffer _ heap anchored keeps (Or.inr requestable)

theorem pushBack_anchored (buffer : Buffer) (value : List UInt8) (heap : Heap)
    (anchored : buffer.Anchored) (requestable : buffer.Requestable value.length) :
    (buffer.pushBack value heap).1.Anchored := by
  simp only [MutableBuffer.pushBack]
  split
  · exact anchored
  · exact append_anchored _ value
      (reserve_more_anchored buffer _ heap anchored requestable (Or.inl (by omega)))

theorem pushBackChar_anchored (buffer : Buffer) (value : UInt8) (heap : Heap) (valid : buffer.Valid)
    (anchored : buffer.Anchored) : (buffer.pushBackChar value heap).1.Anchored :=
  append_anchored _ [value] (reserve_more_anchored buffer 1 heap anchored
    (requestable_of_inMemory buffer 1 valid (by decide)) (Or.inl (Nat.succ_ne_zero _)))

theorem resize_storage (buffer : Buffer) (value : Nat) :
    (buffer.resize value).2.data = buffer.data ∧
      (buffer.resize value).2.capacity = buffer.capacity := by
  simp only [resize]
  split <;> exact ⟨rfl, rfl⟩

theorem reserve_append_appends (buffer : Buffer) (value : List UInt8) (heap : Heap)
    (valid : buffer.Valid) (nonempty : value.length ≠ 0)
    (requestable : buffer.Requestable value.length) :
    Appends buffer value heap
      (append (buffer.reserve (add buffer.size value.length) heap) value) :=
  append_appends buffer value heap _ nonempty (reserve_more buffer _ heap valid requestable)

theorem pushBack_appends (buffer : Buffer) (value : List UInt8) (heap : Heap)
    (valid : buffer.Valid) (inMemory : value.length < addressSpace) :
    Appends buffer value heap (buffer.pushBack value heap) := by
  by_cases nothing : value.length = 0
  · simp only [MutableBuffer.pushBack, nothing, ↓reduceIte]
    refine ⟨valid, fun _ _ => rfl, Or.inl rfl, ?_, fun unrefused => ⟨unrefused, by simp [nothing]⟩⟩
    intro _
    simp [List.length_eq_zero_iff.mp nothing]
  · simp only [MutableBuffer.pushBack, nothing, ↓reduceIte]
    exact reserve_append_appends buffer value heap valid nothing
      (requestable_of_inMemory buffer value.length valid inMemory)

theorem pushBackChar_appends (buffer : Buffer) (value : UInt8) (heap : Heap)
    (valid : buffer.Valid) :
    Appends buffer [value] heap (buffer.pushBackChar value heap) :=
  reserve_append_appends buffer [value] heap valid (Nat.succ_ne_zero 0)
    (requestable_of_inMemory buffer 1 valid (by decide))

-- With the room already there nothing can fail.
theorem pushBack_room (buffer : Buffer) (value : List UInt8) (heap : Heap) (valid : buffer.Valid)
    (room : buffer.size + value.length ≤ buffer.capacity) :
    (buffer.pushBack value heap).1.size = buffer.size + value.length := by
  have bounded := valid.bounded
  have sum : add buffer.size value.length = buffer.size + value.length :=
    add_exact (by simp only [addressSpace] at bounded; omega)
  simp only [MutableBuffer.pushBack]
  by_cases nothing : value.length = 0
  · rw [if_pos nothing, nothing, Nat.add_zero]
  · have enough : ¬ (buffer.capacity < buffer.size + value.length ∨
        buffer.size + value.length = 0) := by omega
    simp only [if_neg nothing, sum, MutableBuffer.reserve, if_neg enough, append, ↓reduceIte]

theorem content_of_appends {buffer : Buffer} {value : List UInt8} {heap : Heap}
    {after : Buffer × Heap} (appends : Appends buffer value heap after)
    (whole : after.1.size = buffer.size + value.length) :
    after.1.content = buffer.content ++ value := by
  unfold content
  rw [whole, load_add, Nat.zero_add, appends.copied whole]
  congr 1
  apply load_congr
  intro address _ inside
  exact appends.bytes_eq address (by omega)

theorem reserve_pushBack (buffer : Buffer) (value : List UInt8) (count : Nat) (heap : Heap)
    (valid : buffer.Valid) (counted : value.length = count) (inMemory : count < addressSpace) :
    let reserved := buffer.reserve (add buffer.size count) heap
    let pushed := reserved.buffer.pushBack value reserved.heap
    (reserved.ok = true → pushed.1.content = buffer.content ++ value) ∧
      (pushed.2.Unrefused → reserved.ok = true) := by
  intro reserved pushed
  subst counted
  have grown := reserve_more buffer value.length heap valid
    (requestable_of_inMemory buffer _ valid inMemory)
  have appends := pushBack_appends reserved.buffer value reserved.heap grown.valid inMemory
  constructor
  · intro ok
    have whole := pushBack_room reserved.buffer value reserved.heap grown.valid
      (by rw [grown.kept.size_eq]; exact grown.room ok)
    rw [content_of_appends appends whole, content_of_kept grown.kept]
  · intro unrefused
    exact (grown.unrefused.mp (appends.unrefused unrefused).1).1

end Buffer

end Xio
