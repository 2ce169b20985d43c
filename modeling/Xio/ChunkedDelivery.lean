import Xio.ChunkedRuns

/-!
The bytes a `ChunkedStream` delivers from memory. With text written and block reads
only, all chunks are `BufferStream`s. Each round of a read copies to the same `buf`, so
the bytes come out right as long as no read has to take from two chunks.
-/

namespace Xio.ChunkedDelivery

open Storage MachineWord Environment Runs ChunkedStream ChunkedRuns

/-- A read of `size` bytes drains the front chunk and goes on in the next one. -/
def Straddles : List Chunk → Nat → Prop
  | front :: second :: _, size => front.size ≠ 0 ∧ front.size < size ∧ second.size ≠ 0
  | _, _ => False

instance : (chunks : List Chunk) → (size : Nat) → Decidable (Straddles chunks size)
  | [], _ => isFalse id
  | [_], _ => isFalse id
  | front :: second :: _, size =>
      inferInstanceAs (Decidable (front.size ≠ 0 ∧ front.size < size ∧ second.size ≠ 0))

def AllBuffers (chunks : List Chunk) : Prop :=
  ∀ chunk ∈ chunks, ∃ stream, chunk = .bufferStream stream

structure Copies (chunks : List Chunk) (size : Nat) (sink : CharSink) (loop : Loop CharSink) :
    Prop where
  bytes_at : ∃ bytes, loop.sink.memory = store sink.memory sink.start bytes ∧
    loop.result = bytes.length ∧ bytes.length ≤ size ∧
      bytes ++ contents loop.chunks = contents chunks

theorem readLoop_stopped {Sink : Type} (take : Take Sink) (rounds size result : Nat)
    (chunks : List Chunk) (sink : Sink) (enough : rounds ≠ 0)
    (stopped : size = 0 ∨ ∀ front ∈ chunks.head?, front.size = 0) :
    readLoop take rounds chunks size result sink = ⟨true, result, chunks, sink⟩ := by
  cases rounds with
  | zero => exact absurd rfl enough
  | succ rounds =>
      cases chunks with
      | nil => rfl
      | cons front rest =>
          have exits : front.size = 0 ∨ size = 0 := by
            rcases stopped with nothing | drained
            · exact Or.inr nothing
            · exact Or.inl (drained front rfl)
          simp only [readLoop, if_pos exits]

theorem bufferStream_round (stream : BufferStream) (rest : List Chunk) (rounds size : Nat)
    (sink : CharSink) (valid : stream.Valid) (pending : stream.size ≠ 0) (wanted : size ≠ 0) :
    ∃ chunks, readLoop Chunk.readChars (rounds + 1) (.bufferStream stream :: rest) size 0 sink =
        readLoop Chunk.readChars rounds chunks (size - min size stream.size) (min size stream.size)
          { sink with memory := store sink.memory sink.start (stream.unread.take size) } ∧
      contents chunks = stream.unread.drop size ++ contents rest ∧
      (stream.size < size → chunks = rest) := by
  have delivers := stream.readChars_delivers valid size
  have counted : (stream.readChars size).result = (min size stream.size : Nat) := by
    rw [delivers.counted, delivers.bytes_eq, List.length_take, stream.unread_length]
  have running : ¬ ((Chunk.bufferStream stream).size = 0 ∨ size = 0) :=
    not_or.mpr ⟨pending, wanted⟩
  refine ⟨_, ?_, popped_contents (.bufferStream (stream.readChars size).stream) rest
    delivers.valid |>.trans (by rw [Chunk.unread, delivers.unread_eq]), ?_⟩
  · rw [readLoop_round _ rounds size 0 _ rest sink running]
    · simp only [Chunk.readChars, counted, Int.toNat_natCast, delivers.bytes_eq, Nat.zero_add]
      rw [sub_exact (Nat.min_le_left _ _)]
    · simp only [Chunk.readChars, counted]
      omega
  · intro short
    apply if_pos
    rw [Chunk.size, ← BufferStream.unread_length, delivers.unread_eq, List.length_drop,
      stream.unread_length]
    omega

-- After the first round the request is met, or nothing readable follows the popped chunk.
theorem readChars_copies (chunks : List Chunk) (size : Nat) (sink : CharSink)
    (valid : AllValid chunks) (buffers : AllBuffers chunks) (whole : ¬ Straddles chunks size) :
    Copies chunks size sink (readLoop Chunk.readChars (size + 1) chunks size 0 sink) := by
  by_cases stopped : size = 0 ∨ ∀ front ∈ chunks.head?, front.size = 0
  · rw [readLoop_stopped _ _ _ _ _ _ (Nat.succ_ne_zero size) stopped]
    exact ⟨[], (store_nil _ _).symm, rfl, Nat.zero_le _, rfl⟩
  obtain ⟨wanted, readable⟩ := not_or.mp stopped
  cases chunks with
  | nil => exact absurd (fun _ member => by cases member) readable
  | cons front rest =>
      obtain ⟨stream, same⟩ := buffers front List.mem_cons_self
      subst front
      have pending : stream.size ≠ 0 := fun drained =>
        readable fun _ member => by cases member; exact drained
      obtain ⟨left, round, remaining, popped⟩ := bufferStream_round stream rest size size sink
        (List.forall_mem_cons.mp valid).1 pending wanted
      have stops : size - min size stream.size = 0 ∨ ∀ front ∈ left.head?, front.size = 0 := by
        by_cases met : size ≤ stream.size
        · exact Or.inl (by omega)
        · refine Or.inr ?_
          rw [popped (by omega)]
          cases rest with
          | nil => exact fun _ member => by cases member
          | cons second behind =>
              intro next member
              cases member
              by_contra more
              exact whole ⟨pending, Nat.lt_of_not_le met, more⟩
      rw [round, readLoop_stopped _ _ _ _ _ _ wanted stops]
      refine ⟨stream.unread.take size, rfl, by simp, by simp, ?_⟩
      simp only
      rw [remaining, ← List.append_assoc, List.take_append_drop]
      rfl

/-! Over runs. `given` is what the writes were asked to write. -/

def given : Event → List UInt8
  | .wrote _ bytes => bytes
  | .read .. => []

def delivered : Event → List UInt8
  | .wrote .. => []
  | .read _ _ bytes => bytes

def Counted : Event → Prop
  | .wrote .. => True
  | .read returned result bytes => returned = true ∧ result = bytes.length

/-- No read straddles, and the allocator has refused nothing so far. A buffer to read
into is one the library can have built, and its size with the request fits a word. -/
def Whole (system : System) : TextOp → Prop
  | .writeChars value => (text system (.writeChars value)).1.world.heap.Unrefused
  | .readChars _ size => ¬ Straddles system.stream.chunks size
  | .readBuffer result size =>
      ¬ Straddles system.stream.chunks size ∧ result.Valid ∧ result.Requestable size ∧
        (text system (.readBuffer result size)).1.world.heap.Unrefused

structure Buffered (system : System) : Prop where
  valid : Valid system
  buffers : AllBuffers system.stream.chunks

theorem buffer_buffers (stream : ChunkedStream) (size : Nat) (heap : Heap)
    (buffers : AllBuffers stream.chunks) : AllBuffers (stream.buffer size heap).1 := by
  simp only [buffer]
  split
  · split
    · exact fun chunk member => buffers chunk (List.mem_of_mem_dropLast member)
    · exact buffers
  · exact buffers

theorem readLoop_buffers (rounds size result : Nat) (chunks : List Chunk) (sink : CharSink)
    (buffers : AllBuffers chunks) :
    AllBuffers (readLoop Chunk.readChars rounds chunks size result sink).chunks := by
  have kept : ∀ (front : Chunk) (rest : List Chunk) (size : Nat) (sink : CharSink),
      AllBuffers (front :: rest) → AllBuffers ((front.readChars size sink).chunk :: rest) := by
    intro front rest size sink buffers
    obtain ⟨⟨stream, same⟩, others⟩ := List.forall_mem_cons.mp buffers
    subst front
    exact List.forall_mem_cons.mpr ⟨⟨_, rfl⟩, others⟩
  apply readLoop_preserves _ AllBuffers _ _ rounds size result chunks sink buffers
  · intro front rest size sink _ _ buffers
    exact kept front rest size sink buffers
  · intro front rest size sink _ buffers
    split
    · exact (List.forall_mem_cons.mp buffers).2
    · exact kept front rest size sink buffers

theorem text_buffered (system : System) (op : TextOp) (buffered : Buffered system) :
    Buffered (text system op).1 := by
  refine ⟨(block_valid system (.text op) buffered.valid trivial).1, ?_⟩
  cases op with
  | writeChars value =>
      intro chunk member
      rcases List.mem_append.mp member with earlier | last
      · exact buffer_buffers system.stream _ system.world.heap buffered.buffers chunk earlier
      · exact ⟨_, List.mem_singleton.mp last⟩
  | readChars memory size => exact readLoop_buffers _ _ _ _ _ buffered.buffers
  | readBuffer result size => exact readLoop_buffers _ _ _ _ _ buffered.buffers

def Delivers (system : System) (op : TextOp) : Prop :=
  delivered (text system op).2 ++ contents (text system op).1.stream.chunks =
    contents system.stream.chunks ++ given (text system op).2

-- What `read(Buffer&)` does after the loop is what a `BufferStream` does after `::read`.
theorem readBuffer_received (stream : ChunkedStream) (rounds : Nat) (result : Buffer) (size : Nat)
    (world : World) (bytes : List UInt8)
    (stored : (stream.readBuffer rounds result size world).1.sink.memory =
      store (result.reserve (add result.size size) world.heap).buffer.bytes
        (result.reserve (add result.size size) world.heap).buffer.size bytes)
    (counted : (stream.readBuffer rounds result size world).1.result = bytes.length) :
    (stream.readBuffer rounds result size world).2.1 =
      BufferStream.received (result.reserve (add result.size size) world.heap).buffer bytes := by
  simp only [readBuffer] at stored counted
  simp only [readBuffer, stored, counted, BufferStream.received, Int.toNat_natCast]
  by_cases some_bytes : 0 < bytes.length
  · rw [if_pos some_bytes, if_pos (Int.natCast_pos.mpr some_bytes)]
  · rw [if_neg some_bytes, if_neg (fun positive => some_bytes (Int.natCast_pos.mp positive))]

theorem readBuffer_delivers (system : System) (result : Buffer) (size : Nat)
    (buffered : Buffered system) (whole : Whole system (.readBuffer result size)) :
    Delivers system (.readBuffer result size) ∧
      Counted (text system (.readBuffer result size)).2 := by
  obtain ⟨inside, sound, requestable, unrefused⟩ := whole
  have returned := block_returned system (.text (.readBuffer result size)) buffered.valid
  have grown := Buffer.reserve_more result size system.world.heap sound requestable
  have room := (BufferStream.request_le result size system.world.heap _ grown).2
    (grown.unrefused.mp unrefused).1
  obtain ⟨bytes, stored, counted, limit, rest⟩ := (readChars_copies system.stream.chunks size
    ⟨_, _, system.world.kernel⟩ buffered.valid buffered.buffers inside).bytes_at
  have filled := readBuffer_received system.stream (size + 1) result size system.world bytes stored
    counted
  obtain ⟨appends, longer⟩ := BufferStream.received_appends result size system.world.heap _ bytes
    grown (by rw [room]; exact limit)
  have old : result.content.length = result.size := load_length _ _ _
  have appended : delivered (text system (.readBuffer result size)).2 = bytes := by
    show List.drop result.size (system.stream.readBuffer _ _ _ _).2.1.content = bytes
    rw [filled, Buffer.content_of_appends appends longer, ← old, List.drop_left]
  refine ⟨?_, returned, ?_⟩
  · rw [Delivers, appended]
    exact rest.trans (List.append_nil _).symm
  · exact counted.trans (congrArg (fun part => (part.length : Int)) appended.symm)

end Xio.ChunkedDelivery
