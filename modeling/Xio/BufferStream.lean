import Xio.Pipe

/-!
`lib/BufferStream.cpp`. Written bytes go to the end of a `Buffer`, read bytes stay
in place behind `readOffset_` until a block read or `shift` consumes the last one.
The socket operations of the class are stubs that return 0 and are left out.
-/

namespace Xio

open Storage MachineWord Environment

structure BufferStream where
  data : Buffer
  readOffset : Nat

namespace BufferStream

def create (capacity : Nat) (heap : Heap) : BufferStream × Heap :=
  let made := Buffer.ofCapacity capacity heap
  (⟨made.1, 0⟩, made.2)

def writeOffset (stream : BufferStream) : Nat := stream.data.size

def capacity (stream : BufferStream) : Nat := stream.data.capacity

def size (stream : BufferStream) : Nat := sub stream.writeOffset stream.readOffset

-- data()[readOffset() .. writeOffset())
def unread (stream : BufferStream) : List UInt8 :=
  load stream.data.bytes stream.readOffset stream.size

def shift (stream : BufferStream) (n : Nat) : BufferStream :=
  if add stream.readOffset n < stream.writeOffset then
    { stream with readOffset := add stream.readOffset n }
  else ⟨stream.data.clear, 0⟩

structure Write where
  result : Int
  bytes : List UInt8
  stream : BufferStream
  world : World

def writeChars (stream : BufferStream) (value : List UInt8) (world : World) : Write :=
  let pushed := stream.data.pushBack value world.heap
  let n := sub pushed.1.size stream.data.size
  ⟨signed n, value.take n, { stream with data := pushed.1 }, { world with heap := pushed.2 }⟩

-- How much `write(Pipe*)` and `write(int)` ask for once they have reserved room.
def request (reserved : Reserved .mutableEnsure) (size : Nat) : Nat :=
  min (sub reserved.buffer.capacity reserved.buffer.size) size

def received (buffer : Buffer) (bytes : List UInt8) : Buffer :=
  let stored := { buffer with bytes := store buffer.bytes buffer.size bytes }
  if 0 < bytes.length then (stored.resize (add stored.size bytes.length)).2 else stored

def writeFd (stream : BufferStream) (size : Nat) (world : World) : Write :=
  let reserved := stream.data.reserve (add stream.data.size size) world.heap
  let after : World := ⟨reserved.heap, world.kernel.next⟩
  match world.kernel.receive (request reserved size) with
  | none => ⟨-1, [], { stream with data := reserved.buffer }, after⟩
  | some bytes =>
      ⟨bytes.length, bytes, { stream with data := received reserved.buffer bytes }, after⟩

-- The mode is ignored: the bytes are always read out of the source.
def writePipe (stream : BufferStream) (source : Pipe) (size : Nat) (world : World) :
    Write × Pipe :=
  let reserved := stream.data.reserve (add stream.data.size size) world.heap
  let moved := source.readChars (request reserved size) world.kernel
  (⟨moved.result, moved.bytes, { stream with data := received reserved.buffer moved.bytes },
    ⟨reserved.heap, moved.kernel⟩⟩, moved.pipe)

/-- `bytes` is what the call put into its sink. -/
structure Read where
  result : Int
  bytes : List UInt8
  stream : BufferStream

def readChars (stream : BufferStream) (size : Nat) : Read :=
  let n := min size stream.size
  ⟨signed n, load stream.data.bytes stream.readOffset n, stream.shift n⟩

def readBuffer (stream : BufferStream) (result : Buffer) (size : Nat) (heap : Heap) :
    Read × Buffer × Heap :=
  let n := min size stream.size
  let reserved := result.reserve (add result.size n) heap
  let pushed := reserved.buffer.pushBack (load stream.data.bytes stream.readOffset n) reserved.heap
  (⟨signed n, pushed.1.content.drop result.size, stream.shift n⟩, pushed.1, pushed.2)

-- `read(Pipe*)` and `read(int)` hand over `data()`, not `data() + readOffset()`.
def readPipe (stream : BufferStream) (sink : Pipe) (size : Nat) (kernel : Kernel) : Read × Moved :=
  let moved := sink.writeChars (load stream.data.bytes 0 (min stream.size size)) kernel
  (⟨moved.result, moved.bytes,
    { stream with readOffset := add stream.readOffset moved.bytes.length }⟩, moved)

def readFd (stream : BufferStream) (size : Nat) (kernel : Kernel) : Read :=
  match kernel.transfer (min stream.size size) with
  | none => ⟨-1, [], stream⟩
  | some n =>
      ⟨n, load stream.data.bytes 0 n, { stream with readOffset := add stream.readOffset n }⟩

def readByte (stream : BufferStream) : Read :=
  if stream.readOffset ≠ stream.writeOffset then
    let byte := stream.data.bytes stream.readOffset
    ⟨Pipe.promoted byte, [byte], { stream with readOffset := add stream.readOffset 1 }⟩
  else ⟨-1, [], stream⟩

structure Valid (stream : BufferStream) : Prop where
  data : stream.data.Valid
  ordered : stream.readOffset ≤ stream.data.size

theorem size_eq (stream : BufferStream) (valid : stream.Valid) :
    stream.size = stream.data.size - stream.readOffset :=
  sub_exact valid.ordered

@[simp] theorem unread_length (stream : BufferStream) : stream.unread.length = stream.size :=
  load_length _ _ _

theorem size_bounded (stream : BufferStream) (valid : stream.Valid) :
    stream.readOffset + stream.size < addressSpace := by
  have fits := valid.data.fits
  have bounded := valid.data.bounded
  have ordered := valid.ordered
  rw [size_eq stream valid]
  omega

theorem create_valid (capacity : Nat) (heap : Heap) :
    (create capacity heap).1.Valid ∧ (create capacity heap).1.unread = [] ∧
      ((create capacity heap).2.Unrefused → heap.Unrefused) := by
  have grown := Buffer.ofCapacity_grows capacity heap
  have nothing := grown.kept.size_eq
  refine ⟨⟨grown.valid, Nat.zero_le _⟩, ?_, fun unrefused => (grown.unrefused.mp unrefused).2⟩
  simp only [unread, size, writeOffset, create, Buffer.ofCapacity]
  rw [nothing]
  rfl

/-! What a call does to the storage. -/

theorem received_storage (buffer : Buffer) (bytes : List UInt8) :
    (received buffer bytes).data = buffer.data ∧
      (received buffer bytes).capacity = buffer.capacity := by
  simp only [received]
  split
  · exact Buffer.resize_storage _ _
  · exact ⟨rfl, rfl⟩

theorem shift_storage (stream : BufferStream) (n : Nat) :
    (stream.shift n).data.data = stream.data.data ∧
      (stream.shift n).data.capacity = stream.data.capacity := by
  simp only [shift]
  split <;> exact ⟨rfl, rfl⟩

theorem create_anchored (capacity : Nat) (heap : Heap) :
    (create capacity heap).1.data.Anchored :=
  Buffer.reserve_anchored .empty capacity heap Buffer.empty_anchored (Or.inr rfl) (Or.inl rfl)

theorem received_anchored (buffer : Buffer) (bytes : List UInt8) (anchored : buffer.Anchored) :
    (received buffer bytes).Anchored :=
  Buffer.anchored_of_storage anchored (received_storage _ _).1 (received_storage _ _).2

theorem shift_anchored (stream : BufferStream) (n : Nat) (anchored : stream.data.Anchored) :
    (stream.shift n).data.Anchored :=
  Buffer.anchored_of_storage anchored (stream.shift_storage n).1 (stream.shift_storage n).2

/-- A write that makes room for no bytes behind none frees the storage of the stream. -/
def KeepsStorage (stream : BufferStream) (size : Nat) : Prop :=
  stream.data.size + size ≠ 0 ∨ stream.data.capacity = 0

instance (stream : BufferStream) (size : Nat) : Decidable (stream.KeepsStorage size) :=
  inferInstanceAs (Decidable (_ ∨ _))

theorem writeFd_anchored (stream : BufferStream) (size : Nat) (world : World)
    (anchored : stream.data.Anchored) (requestable : stream.data.Requestable size)
    (keeps : stream.KeepsStorage size) : (stream.writeFd size world).stream.data.Anchored := by
  have grown := Buffer.reserve_more_anchored stream.data size world.heap anchored requestable keeps
  simp only [writeFd]
  split
  · exact grown
  · exact received_anchored _ _ grown

theorem writePipe_anchored (stream : BufferStream) (source : Pipe) (size : Nat) (world : World)
    (anchored : stream.data.Anchored) (requestable : stream.data.Requestable size)
    (keeps : stream.KeepsStorage size) :
    (stream.writePipe source size world).1.stream.data.Anchored :=
  received_anchored _ _
    (Buffer.reserve_more_anchored stream.data size world.heap anchored requestable keeps)

theorem readByte_anchored (stream : BufferStream) (anchored : stream.data.Anchored) :
    stream.readByte.stream.data.Anchored := by
  simp only [readByte]
  split <;> exact anchored

theorem readFd_anchored (stream : BufferStream) (size : Nat) (kernel : Kernel)
    (anchored : stream.data.Anchored) : (stream.readFd size kernel).stream.data.Anchored := by
  simp only [readFd]
  split <;> exact anchored

/-! What a call does to the unread bytes. -/

theorem advance_unread (stream : BufferStream) (valid : stream.Valid) (n : Nat)
    (within : n ≤ stream.size) :
    { stream with readOffset := add stream.readOffset n }.Valid ∧
      { stream with readOffset := add stream.readOffset n }.unread = stream.unread.drop n := by
  have bounded := size_bounded stream valid
  have sized := size_eq stream valid
  have ordered := valid.ordered
  have sum : add stream.readOffset n = stream.readOffset + n :=
    add_exact (by simp only [addressSpace] at bounded; omega)
  rw [sum]
  have advanced : { stream with readOffset := stream.readOffset + n }.Valid :=
    ⟨valid.data, by show stream.readOffset + n ≤ stream.data.size; omega⟩
  refine ⟨advanced, ?_⟩
  simp only [unread]
  rw [load_drop, size_eq _ advanced, sized]
  congr 1
  exact Nat.sub_add_eq stream.data.size stream.readOffset n

theorem clear_unread (stream : BufferStream) (valid : stream.Valid) :
    BufferStream.Valid ⟨stream.data.clear, 0⟩ ∧ BufferStream.unread ⟨stream.data.clear, 0⟩ = [] :=
  ⟨⟨⟨Nat.zero_le _, valid.data.bounded⟩, Nat.le_refl 0⟩, rfl⟩

theorem shift_unread (stream : BufferStream) (valid : stream.Valid) (n : Nat)
    (fits : stream.readOffset + n < 2 ^ 64) :
    (stream.shift n).Valid ∧ (stream.shift n).unread = stream.unread.drop n := by
  have bounded := size_bounded stream valid
  have sized := size_eq stream valid
  have ordered := valid.ordered
  have written : stream.writeOffset = stream.data.size := rfl
  have sum : add stream.readOffset n = stream.readOffset + n := add_exact fits
  simp only [shift]
  by_cases within : add stream.readOffset n < stream.writeOffset
  · rw [if_pos within]
    exact advance_unread stream valid n (by omega)
  · have all : stream.unread.drop n = [] := by
      apply List.drop_eq_nil_of_le
      rw [unread_length]
      omega
    rw [if_neg within, all]
    exact clear_unread stream valid

theorem shift_min (stream : BufferStream) (valid : stream.Valid) (size : Nat) :
    (stream.shift (min size stream.size)).Valid ∧
      (stream.shift (min size stream.size)).unread = stream.unread.drop size := by
  have bounded := size_bounded stream valid
  simp only [addressSpace] at bounded
  obtain ⟨valid', unread'⟩ := shift_unread stream valid (min size stream.size) (by omega)
  refine ⟨valid', unread'.trans ?_⟩
  rw [← unread_length, ← List.drop_eq_drop_min]

theorem signed_min (stream : BufferStream) (valid : stream.Valid) (size : Nat) :
    signed (min size stream.size) = (min size stream.size : Nat) := by
  have bounded := size_bounded stream valid
  simp only [addressSpace] at bounded
  exact signed_exact (by omega)

structure Delivers (before : BufferStream) (size : Nat) (read : Read) : Prop where
  valid : read.stream.Valid
  bytes_eq : read.bytes = before.unread.take size
  unread_eq : read.stream.unread = before.unread.drop size
  counted : read.result = read.bytes.length

theorem readChars_delivers (stream : BufferStream) (valid : stream.Valid) (size : Nat) :
    Delivers stream size (stream.readChars size) := by
  obtain ⟨valid', unread'⟩ := shift_min stream valid size
  refine ⟨valid', (load_take _ _ _ _).symm, unread', ?_⟩
  simp only [readChars, load_length]
  exact signed_min stream valid size

theorem readBuffer_appends (stream : BufferStream) (valid : stream.Valid) (result : Buffer)
    (sound : result.Valid) (size : Nat) (heap : Heap) :
    ((result.reserve (add result.size (min size stream.size)) heap).ok = true →
      (stream.readBuffer result size heap).2.1.content =
        result.content ++ stream.unread.take size) ∧
      ((stream.readBuffer result size heap).2.2.Unrefused →
        (result.reserve (add result.size (min size stream.size)) heap).ok = true) := by
  have bounded := size_bounded stream valid
  have pushed := Buffer.reserve_pushBack result
    (load stream.data.bytes stream.readOffset (min size stream.size)) (min size stream.size) heap
    sound (load_length _ _ _) (by omega)
  rw [unread, load_take]
  exact pushed

theorem readBuffer_delivers (stream : BufferStream) (valid : stream.Valid) (result : Buffer)
    (sound : result.Valid) (size : Nat) (heap : Heap)
    (ok : (result.reserve (add result.size (min size stream.size)) heap).ok = true) :
    Delivers stream size (stream.readBuffer result size heap).1 ∧
      (stream.readBuffer result size heap).2.1.content =
        result.content ++ (stream.readBuffer result size heap).1.bytes := by
  obtain ⟨valid', unread'⟩ := shift_min stream valid size
  have content := (readBuffer_appends stream valid result sound size heap).1 ok
  have bytes : (stream.readBuffer result size heap).1.bytes = stream.unread.take size := by
    have old : result.content.length = result.size := load_length _ _ _
    show List.drop result.size (stream.readBuffer result size heap).2.1.content = _
    rw [content, ← old, List.drop_left]
  refine ⟨⟨valid', bytes, unread', ?_⟩, ?_⟩
  · rw [bytes, List.length_take, unread_length]
    exact signed_min stream valid size
  · rw [content, bytes]

theorem readByte_unread (stream : BufferStream) (valid : stream.Valid) :
    stream.readByte.stream.Valid ∧ stream.readByte.bytes = stream.unread.take 1 ∧
      stream.readByte.stream.unread = stream.unread.drop 1 ∧
      stream.readByte.result = (stream.unread.head?.map Pipe.promoted).getD (-1) := by
  have sized := size_eq stream valid
  have ordered := valid.ordered
  have written : stream.writeOffset = stream.data.size := rfl
  by_cases pending : stream.readOffset ≠ stream.writeOffset
  · have front : stream.unread = stream.data.bytes stream.readOffset ::
        load stream.data.bytes (stream.readOffset + 1) (stream.size - 1) := by
      have split : stream.size = 1 + (stream.size - 1) := by omega
      rw [unread, split, load_add]
      simp [load]
    obtain ⟨valid', unread'⟩ := advance_unread stream valid 1 (by omega)
    simp only [readByte, if_pos pending]
    exact ⟨valid', by simp [front], unread', by simp [front]⟩
  · have nothing : stream.unread = [] := by
      apply List.length_eq_zero_iff.mp
      rw [unread_length]
      omega
    simp only [readByte, if_neg pending, nothing]
    exact ⟨valid, rfl, rfl, rfl⟩

/-- The reads that hand over the start of the storage: they count right whatever they hand over. -/
structure Sends (before : BufferStream) (size : Nat) (read : Read) : Prop where
  valid : read.stream.Valid
  limit : read.bytes.length ≤ min before.size size
  bytes_eq : read.bytes = load before.data.bytes 0 read.bytes.length
  unread_eq : read.stream.unread = before.unread.drop read.bytes.length
  reports : Reports read.result read.bytes

theorem readFd_sends (stream : BufferStream) (valid : stream.Valid) (size : Nat)
    (kernel : Kernel) : Sends stream size (stream.readFd size kernel) := by
  cases moved : kernel.transfer (min stream.size size) with
  | none =>
      simp only [readFd, moved]
      exact ⟨valid, Nat.zero_le _, rfl, rfl, Or.inr ⟨rfl, rfl⟩⟩
  | some n =>
      have limit := kernel.transfer_le _ _ moved
      obtain ⟨valid', unread'⟩ := advance_unread stream valid n (by omega)
      simp only [readFd, moved]
      exact ⟨valid', by simpa using limit, by simp, by simpa using unread', Or.inl (by simp)⟩

theorem readPipe_sends (stream : BufferStream) (valid : stream.Valid) (sink : Pipe) (size : Nat)
    (kernel : Kernel) : Sends stream size (stream.readPipe sink size kernel).1 := by
  obtain ⟨n, limit, bytes⟩ := Pipe.writeChars_bytes sink
    (load stream.data.bytes 0 (min stream.size size)) kernel
  rw [load_length] at limit
  rw [load_take, Nat.min_eq_left limit] at bytes
  have length : (stream.readPipe sink size kernel).1.bytes.length = n := by
    simp only [readPipe, bytes, load_length]
  obtain ⟨valid', unread'⟩ := advance_unread stream valid n (by omega)
  rw [← length] at valid' unread'
  refine ⟨valid', by omega, ?_, unread', Pipe.moveIn_reports _ _ _⟩
  rw [length]
  exact bytes

theorem sends_delivers (stream : BufferStream) (size : Nat) (read : Read)
    (sends : Sends stream size read)
    (start : stream.readOffset = 0 ∨ min stream.size size = 0) :
    read.bytes = stream.unread.take read.bytes.length := by
  have limit := sends.limit
  rcases start with fresh | idle
  · rw [unread, load_take, fresh, Nat.min_eq_left (by omega)]
    exact sends.bytes_eq
  · have nothing : read.bytes = [] := List.length_eq_zero_iff.mp (by omega)
    simp [nothing]

structure Accepts (before : BufferStream) (heap : Heap) (write : Write) : Prop where
  valid : write.stream.Valid
  unread_eq : write.stream.unread = before.unread ++ write.bytes
  reports : Reports write.result write.bytes
  unrefused : write.world.heap.Unrefused → heap.Unrefused

theorem append_unread (stream : BufferStream) (valid : stream.Valid) (after : Buffer)
    (value : List UInt8) (grown : after.Valid)
    (kept : ∀ address < stream.data.size, after.bytes address = stream.data.bytes address)
    (longer : after.size = stream.data.size + value.length)
    (copied : load after.bytes stream.data.size value.length = value) :
    { stream with data := after }.Valid ∧
      { stream with data := after }.unread = stream.unread ++ value := by
  have ordered := valid.ordered
  have before := size_eq stream valid
  have valid' : { stream with data := after }.Valid :=
    ⟨grown, by show stream.readOffset ≤ after.size; omega⟩
  refine ⟨valid', ?_⟩
  have sized : { stream with data := after }.size = stream.size + value.length := by
    rw [size_eq _ valid', before]
    show after.size - stream.readOffset = _
    omega
  have position : stream.readOffset + stream.size = stream.data.size := by omega
  simp only [unread]
  rw [sized, load_add, position, copied]
  congr 1
  apply load_congr
  intro address _ inside
  exact kept address (by omega)

theorem writeChars_accepts (stream : BufferStream) (valid : stream.Valid) (value : List UInt8)
    (inMemory : value.length < addressSpace) (world : World) :
    Accepts stream world.heap (stream.writeChars value world) ∧
      ((stream.writeChars value world).world.heap.Unrefused →
        (stream.writeChars value world).bytes = value ∧
          (stream.writeChars value world).result = value.length) := by
  have appends := Buffer.pushBack_appends stream.data value world.heap valid.data inMemory
  simp only [addressSpace] at inMemory
  rcases appends.whole with same | longer
  · have accepted : sub (stream.data.pushBack value world.heap).1.size stream.data.size = 0 := by
      rw [same, sub_self]
    obtain ⟨valid', unread'⟩ := append_unread stream valid _ [] appends.valid appends.bytes_eq
      same rfl
    simp only [writeChars, accepted, List.take_zero]
    refine ⟨⟨valid', unread', Or.inl rfl, fun unrefused => (appends.unrefused unrefused).1⟩, ?_⟩
    intro unrefused
    have whole := (appends.unrefused unrefused).2
    have nothing : value = [] := List.length_eq_zero_iff.mp (by omega)
    simp [nothing, signed]
  · have accepted : sub (stream.data.pushBack value world.heap).1.size stream.data.size =
        value.length := by
      rw [longer, sub_exact (Nat.le_add_right _ _), Nat.add_sub_cancel_left]
    obtain ⟨valid', unread'⟩ := append_unread stream valid _ value appends.valid appends.bytes_eq
      longer (appends.copied longer)
    simp only [writeChars, accepted, List.take_length, true_and]
    have counted : signed value.length = value.length := signed_exact (by omega)
    exact ⟨⟨valid', unread', Or.inl counted, fun unrefused => (appends.unrefused unrefused).1⟩,
      fun _ => counted⟩

theorem request_le (buffer : Buffer) (size : Nat) (heap : Heap) (reserved : Reserved .mutableEnsure)
    (grown : Buffer.Grows buffer (buffer.size + size) heap reserved) :
    buffer.size + request reserved size ≤ reserved.buffer.capacity ∧
      (reserved.ok = true → request reserved size = size) := by
  have sized := grown.kept.size_eq
  have fits := grown.valid.fits
  simp only [request, sub_exact fits]
  refine ⟨by omega, ?_⟩
  intro ok
  have room := grown.room ok
  omega

theorem received_appends (buffer : Buffer) (size : Nat) (heap : Heap)
    (reserved : Reserved .mutableEnsure) (bytes : List UInt8)
    (grown : Buffer.Grows buffer (buffer.size + size) heap reserved)
    (limit : bytes.length ≤ request reserved size) :
    Buffer.Appends buffer bytes heap (received reserved.buffer bytes, reserved.heap) ∧
      (received reserved.buffer bytes).size = buffer.size + bytes.length := by
  have sized := grown.kept.size_eq
  have bounded := grown.valid.bounded
  have room := (request_le buffer size heap reserved grown).1
  have sum : add reserved.buffer.size bytes.length = buffer.size + bytes.length := by
    rw [sized]
    exact add_exact (by simp only [addressSpace] at bounded; omega)
  have stored : received reserved.buffer bytes =
      ⟨reserved.buffer.data, store reserved.buffer.bytes buffer.size bytes,
        buffer.size + bytes.length, reserved.buffer.capacity⟩ := by
    simp only [received, MutableBuffer.resize, sum]
    by_cases some_bytes : 0 < bytes.length
    · have enough : ¬ reserved.buffer.capacity < buffer.size + bytes.length := by omega
      rw [if_pos some_bytes, if_neg enough, sized]
    · have nothing : bytes.length = 0 := by omega
      rw [if_neg some_bytes, sized, nothing, Nat.add_zero, ← sized]
  rw [stored]
  exact ⟨Buffer.store_appends buffer bytes _ heap reserved grown (by omega), rfl⟩

theorem received_unread (stream : BufferStream) (valid : stream.Valid) (size : Nat) (heap : Heap)
    (reserved : Reserved .mutableEnsure) (bytes : List UInt8)
    (grown : Buffer.Grows stream.data (stream.data.size + size) heap reserved)
    (limit : bytes.length ≤ request reserved size) :
    { stream with data := received reserved.buffer bytes }.Valid ∧
      { stream with data := received reserved.buffer bytes }.unread = stream.unread ++ bytes := by
  obtain ⟨appends, longer⟩ := received_appends stream.data size heap reserved bytes grown limit
  exact append_unread stream valid _ bytes appends.valid appends.bytes_eq longer
    (appends.copied longer)

theorem writeFd_accepts (stream : BufferStream) (valid : stream.Valid) (size : Nat)
    (requestable : stream.data.Requestable size) (world : World) :
    Accepts stream world.heap (stream.writeFd size world) ∧
      (stream.writeFd size world).world.kernel = world.kernel.next ∧
      ((stream.writeFd size world).world.heap.Unrefused →
        (stream.writeFd size world).bytes = (world.kernel.receive size).getD [] ∧
          (stream.writeFd size world).result =
            ((world.kernel.receive size).map fun bytes => (bytes.length : Int)).getD (-1)) := by
  have grown := Buffer.reserve_more stream.data size world.heap valid.data requestable
  have whole := fun unrefused => (request_le stream.data size world.heap _ grown).2
    (grown.unrefused.mp unrefused).1
  simp only [writeFd]
  cases arrived : world.kernel.receive
      (request (stream.data.reserve (add stream.data.size size) world.heap) size) with
  | none =>
      have same : received (stream.data.reserve (add stream.data.size size) world.heap).buffer [] =
          (stream.data.reserve (add stream.data.size size) world.heap).buffer := by
        simp [received]
      have filled := received_unread stream valid size world.heap _ [] grown (Nat.zero_le _)
      rw [same] at filled
      refine ⟨⟨filled.1, filled.2, Or.inr ⟨rfl, rfl⟩,
        fun unrefused => (grown.unrefused.mp unrefused).2⟩, rfl, ?_⟩
      intro unrefused
      rw [whole unrefused] at arrived
      simp [arrived]
  | some bytes =>
      have limit := world.kernel.receive_length_le _ _ arrived
      obtain ⟨valid', unread'⟩ := received_unread stream valid size world.heap _ bytes grown limit
      refine ⟨⟨valid', unread', Or.inl rfl,
        fun unrefused => (grown.unrefused.mp unrefused).2⟩, rfl, ?_⟩
      intro unrefused
      rw [whole unrefused] at arrived
      simp [arrived]

theorem writePipe_accepts (stream : BufferStream) (valid : stream.Valid) (source : Pipe)
    (size : Nat) (requestable : stream.data.Requestable size) (world : World) :
    Accepts stream world.heap (stream.writePipe source size world).1 ∧
      ((stream.writePipe source size world).1.world.heap.Unrefused →
        (stream.writePipe source size world).1.bytes =
            (source.readChars size world.kernel).bytes ∧
          (stream.writePipe source size world).1.result =
            (source.readChars size world.kernel).result ∧
          (stream.writePipe source size world).1.world.kernel =
            (source.readChars size world.kernel).kernel) := by
  have grown := Buffer.reserve_more stream.data size world.heap valid.data requestable
  have whole := fun unrefused => (request_le stream.data size world.heap _ grown).2
    (grown.unrefused.mp unrefused).1
  have moved := Pipe.moveOut_reports source
    (request (stream.data.reserve (add stream.data.size size) world.heap) size) world.kernel
  obtain ⟨valid', unread'⟩ := received_unread stream valid size world.heap _ _ grown moved.2
  refine ⟨⟨valid', unread', moved.1, fun unrefused => (grown.unrefused.mp unrefused).2⟩, ?_⟩
  intro unrefused
  simp only [writePipe, whole unrefused, and_self]

end BufferStream

end Xio
