import Mathlib.Logic.Function.Basic
import Xio.Runs
import Xio.Buffer

/-!
The representation invariant `size_ <= capacity_` over whole runs. The state is a
pool of buffers, since `swap`, copies and moves relate two of them, together with
the allocator. A failed assertion ends the program, so its step leaves the pool
as it was. A `printf` may stop after any number of rounds: each intermediate
state of its loop is a state of the run too.
-/

namespace Xio.BufferInvariant

open Storage MachineWord Environment Runs MutableBuffer

abbrev Integer := { value : Int // value.natAbs < 2 ^ 64 }

inductive Constructor where
  | default
  | capacity (value : Nat)
  | chars (value : Object)
  | string (value : Object)
  | copy (source : Nat)
  | range (value : BufferRef) (offset count : Nat)

inductive Op where
  | construct (i : Nat) (constructor : Constructor)
  | pushBack (i : Nat) (value : Object)
  | pushBackChar (i : Nat) (value : UInt8)
  | pushBackInt (i : Nat) (value : Integer)
  | pushBackRange (i : Nat) (value : BufferRef) (offset length : Nat)
  | reserve (i value : Nat)
  | setCapacity (i value : Nat)
  | resize (i value : Nat)
  | clear (i : Nat)
  | swap (i j : Nat)
  | assign (i : Nat) (value : Object)
  | assignMove (i j : Nat)
  | cStr (i : Nat)
  | printf (i : Nat) (format : Object) (text : Option (List UInt8)) (rounds : Nat)

structure Pool where
  buffers : Nat → Buffer
  heap : Heap

def initial (heap : Heap) : Pool := ⟨fun _ => empty, heap⟩

def Pool.put (pool : Pool) (i : Nat) (written : Buffer × Heap) : Pool :=
  ⟨Function.update pool.buffers i written.1, written.2⟩

def construct (pool : Pool) : Constructor → Option (Buffer × Heap)
  | .default => some (empty, pool.heap)
  | .capacity value => some (Buffer.ofCapacity value pool.heap)
  | .chars value => some (Buffer.ofChars value.1 pool.heap)
  | .string value => some (Buffer.ofString value.1 pool.heap)
  | .copy source => some (Buffer.ofBuffer (pool.buffers source) pool.heap)
  | .range value offset count => Buffer.ofRange value offset count pool.heap

def perform (pool : Pool) : Op → Pool
  | .construct i constructor =>
      match construct pool constructor with
      | some made => pool.put i made
      | none => pool
  | .pushBack i value => pool.put i ((pool.buffers i).pushBack value.1 pool.heap)
  | .pushBackChar i value => pool.put i ((pool.buffers i).pushBackChar value pool.heap)
  | .pushBackInt i value => pool.put i ((pool.buffers i).pushBackInt value.1 pool.heap)
  | .pushBackRange i value offset length =>
      match (pool.buffers i).pushBackRange value offset length pool.heap with
      | some written => pool.put i written
      | none => pool
  | .reserve i value =>
      let reserved := (pool.buffers i).reserve value pool.heap
      pool.put i (reserved.buffer, reserved.heap)
  | .setCapacity i value =>
      let reserved := Buffer.setCapacity (pool.buffers i) value pool.heap
      pool.put i (reserved.buffer, reserved.heap)
  | .resize i value => pool.put i (((pool.buffers i).resize value).2, pool.heap)
  | .clear i => pool.put i ((pool.buffers i).clear, pool.heap)
  | .swap i j =>
      let swapped := MutableBuffer.swap (pool.buffers i) (pool.buffers j)
      (pool.put i (swapped.1, pool.heap)).put j (swapped.2, pool.heap)
  | .assign i value => pool.put i (Buffer.assign (pool.buffers i) value.1 pool.heap)
  | .assignMove i j =>
      if i = j then pool.put i (Buffer.assignMoveSelf (pool.buffers i) pool.heap)
      else
        let moved := Buffer.assignMove (pool.buffers i) (pool.buffers j) pool.heap
        (pool.put i (moved.1, moved.2.2)).put j (moved.2.1, moved.2.2)
  | .cStr i => pool.put i (Buffer.cStr (pool.buffers i) pool.heap)
  | .printf i format text rounds =>
      pool.put i ((pool.buffers i).printf format.1 text rounds pool.heap)

def step : Machine Pool Op Unit := fun pool op => (perform pool op, ())

def Fits (pool : Pool) : Prop := ∀ i, (pool.buffers i).size ≤ (pool.buffers i).capacity

/-- A capacity request that does not make `setCapacity` drop the storage under
stored bytes. The last chunk below 2^64 is out because its padding wraps to 0. -/
def Holding (buffer : Buffer) (value : Nat) : Prop :=
  buffer.size = 0 ∨ (0 < value ∧ value ≤ 2 ^ 64 - Buffer.chunkSize)

def Sound (pool : Pool) : Op → Prop
  | .reserve i value | .setCapacity i value => Holding (pool.buffers i) value
  | .pushBackRange i _ _ length => (pool.buffers i).size + length ≤ 2 ^ 64 - Buffer.chunkSize
  | _ => True

theorem setCapacity_valid (buffer : Buffer) (value : Nat) (heap : Heap)
    (valid : buffer.Valid) (holding : Holding buffer value) :
    (Buffer.setCapacity buffer value heap).buffer.Valid := by
  have fits := valid.fits
  simp only [Buffer.setCapacity]
  split
  · rename_i released
    rcases holding with nothing | ⟨positive, _⟩
    · exact ⟨Nat.le_of_eq nothing, addressSpace_pos⟩
    · omega
  split
  · rename_i larger
    apply (Buffer.reallocate_grows buffer _ heap valid _).valid
    split
    · omega
    · rcases holding with nothing | ⟨positive, small⟩
      · omega
      · have cover := (Buffer.padded_bounds value positive small).1
        omega
  split
  · rename_i shorter
    -- the used size is cut down before the block is shrunk
    have cut : (if value < buffer.size then value else buffer.size) ≤ value := by
      split <;> omega
    apply (Buffer.reallocate_grows _ value heap _ cut).valid
    exact ⟨Nat.le_trans cut (Nat.le_of_lt shorter), valid.bounded⟩
  · exact valid

theorem reserve_valid (buffer : Buffer) (value : Nat) (heap : Heap)
    (valid : buffer.Valid) (holding : Holding buffer value) :
    (buffer.reserve value heap).buffer.Valid := by
  simp only [MutableBuffer.reserve]
  split
  · exact setCapacity_valid buffer value heap valid holding
  · exact valid

theorem padded_wraps (value : Nat) (last : 2 ^ 64 - Buffer.chunkSize < value)
    (word : value < 2 ^ 64) : Buffer.padded value = 0 := by
  simp only [Buffer.chunkSize] at last
  have before : sub value 1 = value - 1 := sub_exact (by omega)
  have sum : add (value - 1) 4096 = value - 1 + 4096 - 2 ^ 64 := by
    simp only [add]
    omega
  have rest : (value - 1) % 4096 = value - 1 + 4096 - 2 ^ 64 := by omega
  simp only [Buffer.padded, Buffer.chunkSize, before, sum, rest, sub_self]

theorem reallocate_zero_capacity (buffer : Buffer) (heap : Heap) :
    (Buffer.reallocate buffer 0 heap).buffer.capacity = 0 ∧
      (Buffer.reallocate buffer 0 heap).buffer.size = buffer.size := by
  simp only [Buffer.reallocate, ↓reduceIte]
  split <;> exact ⟨rfl, rfl⟩

theorem append_valid (reserved : Reserved .mutableEnsure) (value : List UInt8)
    (valid : reserved.buffer.Valid)
    (room : reserved.ok = true →
      add reserved.buffer.size value.length ≤ reserved.buffer.capacity) :
    (append reserved value).1.Valid := by
  simp only [append]
  split
  · rename_i ok
    exact ⟨room ok, valid.bounded⟩
  · exact valid

-- A buffer without storage never pads, so any request is answered as it stands.
theorem pushBack_empty_valid (value : List UInt8) (heap : Heap) :
    ((empty : Buffer).pushBack value heap).1.Valid := by
  simp only [MutableBuffer.pushBack]
  split
  · exact Buffer.empty_valid
  · have grown := Buffer.ofCapacity_grows (add (empty : Buffer).size value.length) heap
    apply append_valid _ _ grown.valid
    intro ok
    rw [grown.kept.size_eq]
    exact grown.room ok

theorem resize_valid (buffer : Buffer) (value : Nat) (valid : buffer.Valid) :
    (buffer.resize value).2.Valid := by
  simp only [MutableBuffer.resize]
  split
  · exact valid
  · rename_i within
    exact ⟨Nat.le_of_not_lt within, valid.bounded⟩

theorem construct_valid (pool : Pool) (constructor : Constructor) (made : Buffer × Heap)
    (built : construct pool constructor = some made) : made.1.Valid := by
  cases constructor with
  | default =>
      cases built
      exact Buffer.empty_valid
  | capacity value =>
      cases built
      exact (Buffer.ofCapacity_grows value pool.heap).valid
  | chars value =>
      cases built
      exact pushBack_empty_valid value.1 pool.heap
  | string value =>
      cases built
      exact resize_valid _ _ (pushBack_empty_valid (value.1 ++ [0]) pool.heap)
  | copy source =>
      cases built
      exact pushBack_empty_valid _ pool.heap
  | range value offset count =>
      simp only [construct, Buffer.ofRange] at built
      split at built
      · cases built
        exact pushBack_empty_valid _ pool.heap
      · cases built

theorem decimal_length_le (value : Nat) (word : value < 2 ^ 64) : (decimal value).length ≤ 20 := by
  simp only [decimal]
  split
  · simp
  · simp only [List.length_map, List.length_reverse]
    exact (Nat.digits_length_le_iff (by decide) value).mpr (Nat.lt_trans word (by decide))

theorem pushBackInt_valid (buffer : Buffer) (value : Integer) (heap : Heap) (valid : buffer.Valid) :
    (buffer.pushBackInt value.1 heap).1.Valid := by
  have digits := decimal_length_le value.1.natAbs value.2
  apply (Buffer.pushBack_appends buffer _ heap valid _).valid
  simp only [addressSpace]
  split
  · simp only [List.length_cons]
    omega
  · omega

theorem pushBackRange_valid (buffer : Buffer) (value : BufferRef) (offset length : Nat)
    (heap : Heap) (valid : buffer.Valid)
    (small : buffer.size + length ≤ 2 ^ 64 - Buffer.chunkSize) (written : Buffer × Heap)
    (passed : buffer.pushBackRange value offset length heap = some written) : written.1.Valid := by
  simp only [MutableBuffer.pushBackRange] at passed
  split at passed
  · cases passed
    split
    · exact valid
    · rename_i nonempty
      have copied := load_length value.bytes (value.start + offset) length
      have appends := Buffer.reserve_append_appends buffer
        (load value.bytes (value.start + offset) length) heap valid (by omega)
        (by rw [copied]; exact small)
      rw [copied] at appends
      exact appends.valid
  · cases passed

theorem assignMove_valid (buffer value : Buffer) (heap : Heap) (valid : value.Valid) :
    (Buffer.assignMove buffer value heap).1.Valid ∧
      (Buffer.assignMove buffer value heap).2.1.Valid :=
  ⟨⟨valid.fits, valid.bounded⟩, ⟨Nat.le_refl 0, addressSpace_pos⟩⟩

theorem cStr_valid (buffer : Buffer) (heap : Heap) (valid : buffer.Valid) :
    (Buffer.cStr buffer heap).1.Valid := by
  have requestable := Buffer.requestable_of_inMemory buffer 1 valid (by decide)
  have reserved := (Buffer.reserve_more buffer 1 heap valid requestable).valid
  simp only [Buffer.cStr]
  split
  · exact ⟨reserved.fits, reserved.bounded⟩
  · exact reserved

theorem reserve_beyond_capacity_valid (buffer : Buffer) (more : Nat) (heap : Heap)
    (valid : buffer.Valid) (limited : more ≤ 2 ^ 63) :
    (buffer.reserve (add buffer.capacity more) heap).buffer.Valid := by
  have fits := valid.fits
  have bounded := valid.bounded
  simp only [addressSpace] at bounded
  rw [add_exact (by omega)]
  apply reserve_valid buffer _ heap valid
  simp only [Holding, Buffer.chunkSize]
  omega

-- A text length is an int, so a retry asks for less than 2^63 bytes more.
theorem retryLength_le (text : Option (List UInt8)) (capacity : Nat)
    (bounded : capacity < addressSpace) : retryLength (formatted text) capacity ≤ 2 ^ 63 := by
  have short : formatted text < 2 ^ 31 := by
    cases text with
    | none => simp [formatted]
    | some text =>
        simp only [formatted]
        split <;> omega
  simp only [addressSpace] at bounded
  simp only [retryLength]
  split
  · omega
  · rw [add_exact (by omega)]
    omega

theorem printfLoop_valid (text : Option (List UInt8)) (rounds : Nat) (buffer : Buffer)
    (heap : Heap) (valid : buffer.Valid) : (printfLoop text rounds buffer heap).1.Valid := by
  induction rounds generalizing buffer heap with
  | zero => exact valid
  | succ rounds ih =>
      have fits := valid.fits
      have bounded := valid.bounded
      have written : (buffer.snprintf text).Valid := ⟨fits, bounded⟩
      have limited := retryLength_le text buffer.capacity bounded
      have grown := reserve_beyond_capacity_valid (buffer.snprintf text) _ heap written limited
      simp only [printfLoop]
      split
      · exact resize_valid _ _ written
      split
      · exact ih _ _ grown
      · exact ⟨grown.fits, grown.bounded⟩

theorem printf_valid (buffer : Buffer) (format : Object) (text : Option (List UInt8))
    (rounds : Nat) (heap : Heap) (valid : buffer.Valid) :
    (buffer.printf format.1 text rounds heap).1.Valid := by
  have fits := valid.fits
  have bounded := valid.bounded
  have inMemory := format.2
  apply printfLoop_valid
  apply reserve_valid buffer _ heap valid
  simp only [addressSpace] at bounded inMemory
  have first := @add_exact buffer.size format.1.length (by omega)
  rw [first, add_exact (by omega)]
  exact Or.inr ⟨by omega, by simp only [Buffer.chunkSize]; omega⟩

theorem put_valid (pool : Pool) (i : Nat) (written : Buffer × Heap)
    (valid : ∀ i, (pool.buffers i).Valid) (made : written.1.Valid) :
    ∀ j, ((pool.put i written).buffers j).Valid :=
  (Function.forall_update_iff pool.buffers fun _ buffer => buffer.Valid).mpr
    ⟨made, fun j _ => valid j⟩

theorem perform_valid (pool : Pool) (op : Op) (valid : ∀ i, (pool.buffers i).Valid)
    (sound : Sound pool op) : ∀ i, ((perform pool op).buffers i).Valid := by
  cases op with
  | construct i constructor =>
      simp only [perform]
      split
      · rename_i made built
        exact put_valid pool i made valid (construct_valid pool constructor made built)
      · exact valid
  | pushBack i value =>
      exact put_valid pool i _ valid
        (Buffer.pushBack_appends (pool.buffers i) value.1 pool.heap (valid i) value.2).valid
  | pushBackChar i value =>
      exact put_valid pool i _ valid
        (Buffer.pushBackChar_appends (pool.buffers i) value pool.heap (valid i)).valid
  | pushBackInt i value =>
      exact put_valid pool i _ valid (pushBackInt_valid (pool.buffers i) value pool.heap (valid i))
  | pushBackRange i value offset length =>
      simp only [perform]
      split
      · rename_i written passed
        exact put_valid pool i written valid
          (pushBackRange_valid _ value offset length pool.heap (valid i) sound written passed)
      · exact valid
  | reserve i value =>
      exact put_valid pool i _ valid (reserve_valid _ value pool.heap (valid i) sound)
  | setCapacity i value =>
      exact put_valid pool i _ valid (setCapacity_valid _ value pool.heap (valid i) sound)
  | resize i value => exact put_valid pool i _ valid (resize_valid _ value (valid i))
  | clear i => exact put_valid pool i _ valid ⟨Nat.zero_le _, (valid i).bounded⟩
  | swap i j => exact put_valid _ j _ (put_valid pool i _ valid (valid j)) (valid i)
  | assign i value =>
      exact put_valid pool i _ valid
        (Buffer.pushBack_appends (pool.buffers i).clear value.1 pool.heap
          ⟨Nat.zero_le _, (valid i).bounded⟩ value.2).valid
  | assignMove i j =>
      simp only [perform]
      split
      · exact put_valid pool i _ valid ⟨Nat.le_refl 0, addressSpace_pos⟩
      · have moved := assignMove_valid (pool.buffers i) (pool.buffers j) pool.heap (valid j)
        exact put_valid _ j _ (put_valid pool i _ valid moved.1) moved.2
  | cStr i => exact put_valid pool i _ valid (cStr_valid _ pool.heap (valid i))
  | printf i format text rounds =>
      exact put_valid pool i _ valid (printf_valid _ format text rounds pool.heap (valid i))

/-- In every run whose capacity requests leave stored bytes their storage, the
used size never exceeds the capacity, in no buffer and in no state, whatever the
allocator answers. -/
theorem size_within_capacity (heap : Heap) (ops : List Op)
    (sound : Along step Sound (initial heap) ops) : Always step Fits (initial heap) ops := by
  have valid : Always step (fun pool => ∀ i, (pool.buffers i).Valid) (initial heap) ops :=
    always_of_along step Sound _ (fun pool op valid sound => perform_valid pool op valid sound)
      (initial heap) ops (fun _ => Buffer.empty_valid) sound
  exact always_mono step _ Fits (fun _ valid i => (valid i).fits) (initial heap) ops valid

theorem size_within_capacity_grown :
    Along step Sound (initial Heap.generous)
        [.construct 0 (.chars ⟨[120, 105, 111], by decide⟩), .reserve 0 64, .setCapacity 0 1] ∧
      Always step Fits (initial Heap.generous)
        [.construct 0 (.chars ⟨[120, 105, 111], by decide⟩), .reserve 0 64, .setCapacity 0 1] := by
  have sound : Along step Sound (initial Heap.generous)
      [.construct 0 (.chars ⟨[120, 105, 111], by decide⟩), .reserve 0 64, .setCapacity 0 1] :=
    ⟨trivial, Or.inr (by decide), Or.inr (by decide), trivial⟩
  exact ⟨sound, size_within_capacity Heap.generous _ sound⟩

theorem reserve_zero_overruns :
    ¬ Always step Fits (initial Heap.generous)
      [.construct 0 (.chars ⟨[120, 105, 111], by decide⟩), .reserve 0 0] := by
  intro always
  have last := always_final step Fits _ _ always 0
  revert last
  decide

end Xio.BufferInvariant
