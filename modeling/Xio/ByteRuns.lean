import Xio.ByteReads
import Xio.Capacity
import Xio.ChunkedDelivery

/-!
Runs of a `ChunkedStream` that is written in blocks and read byte by byte. A write goes
to the last chunk or a new one, and a read pops the first chunk when it has drained, which
may be the same.
-/

namespace Xio.ByteRuns

open MachineWord Environment Runs ByteReads
open ChunkedStream (contents AllValid)
open ChunkedRuns (System Event start)
open ChunkedDelivery (AllBuffers Buffered given delivered)

inductive Op where
  | write (value : Object)
  | read

def step : Machine System Op Event
  | system, .write value => ChunkedRuns.step system (.block (.text (.writeChars value)))
  | system, .read => ChunkedRuns.step system .readByte

def Granted (system : System) (op : Op) : Prop :=
  system.world.heap.GrantedSince (step system op).1.world.heap

def Filling : Op → Prop
  | .write value => value.1 ≠ []
  | .read => True

/-! The allocations of one write. -/

theorem buffer_logged (stream : ChunkedStream) (size : Nat) (heap : Heap) :
    ∃ made, (stream.buffer size heap).2.2.calls = made ++ heap.calls := by
  obtain ⟨made, calls, _⟩ := Capacity.reserve_logged .empty size heap
  simp only [ChunkedStream.buffer]
  split
  · split
    · exact ⟨[], rfl⟩
    · exact ⟨made, calls⟩
  · exact ⟨made, calls⟩

theorem writeChars_whole (stream : ChunkedStream) (value : List UInt8) (world : World)
    (inMemory : value.length < addressSpace) (valid : AllValid stream.chunks)
    (granted : world.heap.GrantedSince (stream.writeChars value world).world.heap) :
    (stream.writeChars value world).bytes = value := by
  have picks := (stream.buffer_picks value.length world.heap valid).1
  obtain ⟨earlier, first⟩ := buffer_logged stream value.length world.heap
  obtain ⟨later, second, whole⟩ :=
    Capacity.pushBack_logged (stream.buffer value.length world.heap).2.1.data
      value (stream.buffer value.length world.heap).2.2 picks.chunk_valid.data inMemory
  have size := whole (Heap.grantedSince_later first second granted)
  simp only [ChunkedStream.writeChars, BufferStream.writeChars, size]
  rw [sub_exact (Nat.le_add_right _ _), Nat.add_sub_cancel_left, List.take_length]

/-! One step. -/

def Congruent : Event → Prop
  | .wrote .. => True
  | .read _ result bytes => ∀ byte ∈ bytes, result % 256 = byte.toNat

/-- What a read shows as its bytes has left the front of the stream, and its value is
congruent to it. -/
def Removes (system : System) : Op → Prop
  | .write _ => True
  | .read =>
      delivered (step system .read).2 ++ contents (step system .read).1.stream.chunks =
          contents system.stream.chunks ∧
        Congruent (step system .read).2

def RemovesOne (system : System) : Op → Prop
  | .write _ => True
  | .read => contents system.stream.chunks ≠ [] →
      ∃ byte, delivered (step system .read).2 = [byte]

-- The step of the run is the read analysed above.
theorem read_event (system : System) :
    (step system .read).2 = .read true
        ((ByteStream.chunked system.stream).readByte system.world.kernel).result
        ((ByteStream.chunked system.stream).readByte system.world.kernel).bytes ∧
      contents (step system .read).1.stream.chunks =
        ((ByteStream.chunked system.stream).readByte system.world.kernel).stream.unread := by
  obtain ⟨⟨chunks⟩, world⟩ := system
  refine ⟨?_, rfl⟩
  cases chunks with
  | nil => rfl
  | cons first others =>
      simp only [step, ChunkedRuns.step, ByteStream.readByte, ChunkedStream.readByte]
      split <;> rfl

theorem read_keeps (system : System) (keeps : Chunk → Prop)
    (buffers : AllBuffers system.stream.chunks)
    (each : ∀ chunk ∈ system.stream.chunks, keeps chunk)
    (advanced : ∀ stream : BufferStream, keeps (.bufferStream stream) →
      stream.readByte.stream.size ≠ 0 → keeps (.bufferStream stream.readByte.stream)) :
    ∀ chunk ∈ (step system .read).1.stream.chunks, keeps chunk := by
  obtain ⟨⟨chunks⟩, world⟩ := system
  cases chunks with
  | nil => exact each
  | cons first others =>
      obtain ⟨⟨stream, same⟩, _⟩ := List.forall_mem_cons.mp buffers
      obtain ⟨here, others_keep⟩ := List.forall_mem_cons.mp each
      subst same
      simp only [step, ChunkedRuns.step, ChunkedStream.readByte]
      split
      · exact each
      · by_cases drained : ((Chunk.bufferStream stream).readByte world.kernel).1.chunk.size = 0
        · rw [if_pos drained]
          exact others_keep
        · rw [if_neg drained]
          exact List.forall_mem_cons.mpr ⟨advanced stream here drained, others_keep⟩

theorem step_buffered (system : System) (op : Op) (buffered : Buffered system) :
    Buffered (step system op).1 := by
  cases op with
  | write value => exact ChunkedDelivery.text_buffered system (.writeChars value) buffered
  | read =>
      refine ⟨?_, ?_⟩
      · exact read_keeps system Chunk.Valid buffered.buffers buffered.valid
          fun stream valid _ => (stream.readByte_unread valid).1
      · exact read_keeps system _ buffered.buffers buffered.buffers fun stream _ _ => ⟨_, rfl⟩

theorem step_removes (system : System) (op : Op) (buffered : Buffered system) :
    Removes system op := by
  cases op with
  | write value => trivial
  | read =>
      obtain ⟨event, after⟩ := read_event system
      simp only [Removes, event, after, delivered, Congruent]
      by_cases taking : contents system.stream.chunks ≠ [] ∧
          (ByteStream.chunked system.stream).Ready ∧
          (ByteStream.chunked system.stream).Succeeds system.world.kernel
      · obtain ⟨pending, ready, succeeds⟩ := taking
        obtain ⟨byte, rest, front⟩ := List.exists_cons_of_ne_nil pending
        have takes := chunked_takes system.stream system.world.kernel buffered.valid ready succeeds
          byte rest front
        rw [takes.bytes_eq, takes.unread_eq, takes.result_eq, front]
        refine ⟨rfl, ?_⟩
        intro other member
        rw [List.mem_singleton.mp member]
        exact promoted_emod byte
      · have idles := chunked_idles system.stream system.world.kernel buffered.valid taking
        rw [idles.bytes_eq, idles.unread_eq]
        exact ⟨rfl, fun _ member => absurd member List.not_mem_nil⟩

theorem step_balanced (system : System) (op : Op) (buffered : Buffered system)
    (granted : Granted system op) :
    delivered (step system op).2 ++ contents (step system op).1.stream.chunks =
      contents system.stream.chunks ++ given (step system op).2 := by
  cases op with
  | write value =>
      have extended := (system.stream.writeChars_extends value.1 system.world value.2
        buffered.valid).1
      have whole := writeChars_whole system.stream value.1 system.world value.2
        buffered.valid granted
      have contents_eq := extended.contents_eq
      rw [whole] at contents_eq
      exact contents_eq
  | read =>
      have removed := (step_removes system .read buffered).1
      have nothing : given (step system .read).2 = [] := by
        rw [(read_event system).1]
        rfl
      rw [removed, nothing, List.append_nil]

/-! Writes that are not empty leave no chunk empty. -/

structure Filled (system : System) : Prop where
  buffered : Buffered system
  nonempty : ∀ chunk ∈ system.stream.chunks, chunk.size ≠ 0

theorem buffer_subset (stream : ChunkedStream) (size : Nat) (heap : Heap) :
    (stream.buffer size heap).1 ⊆ stream.chunks := by
  simp only [ChunkedStream.buffer]
  split
  · split
    · exact List.dropLast_subset _
    · exact List.Subset.refl _
  · exact List.Subset.refl _

theorem writeChars_nonempty (stream : ChunkedStream) (value : List UInt8) (world : World)
    (inMemory : value.length < addressSpace) (valid : AllValid stream.chunks)
    (whole : (stream.writeChars value world).bytes = value) (something : value ≠ [])
    (nonempty : ∀ chunk ∈ stream.chunks, chunk.size ≠ 0) :
    ∀ chunk ∈ (stream.writeChars value world).stream.chunks, chunk.size ≠ 0 := by
  have picks := (stream.buffer_picks value.length world.heap valid).1
  have accepts := (BufferStream.writeChars_accepts _ picks.chunk_valid value inMemory
    { world with heap := (stream.buffer value.length world.heap).2.2 }).1
  have taken : ((stream.buffer value.length world.heap).2.1.writeChars value
      { world with heap := (stream.buffer value.length world.heap).2.2 }).bytes = value := whole
  have longer := congrArg List.length accepts.unread_eq
  rw [BufferStream.unread_length, List.length_append, taken] at longer
  have positive := List.length_pos_iff.mpr something
  intro chunk member
  rcases List.mem_append.mp member with earlier | last
  · exact nonempty chunk (buffer_subset _ _ _ earlier)
  · rw [List.mem_singleton.mp last]
    show (BufferStream.writeChars _ _ _).stream.size ≠ 0
    exact fun drained =>
      Nat.ne_of_gt positive (Nat.eq_zero_of_add_eq_zero (longer.symm.trans drained)).2

theorem step_filled (system : System) (op : Op) (filled : Filled system)
    (guarded : Granted system op ∧ Filling op) : Filled (step system op).1 := by
  refine ⟨step_buffered system op filled.buffered, ?_⟩
  cases op with
  | write value =>
      have whole := writeChars_whole system.stream value.1 system.world value.2
        filled.buffered.valid guarded.1
      exact writeChars_nonempty system.stream value.1 system.world value.2
        filled.buffered.valid whole guarded.2 filled.nonempty
  | read =>
      exact read_keeps system _ filled.buffered.buffers filled.nonempty fun _ _ left => left

theorem filled_removes_one (system : System) (op : Op) (filled : Filled system) :
    RemovesOne system op := by
  cases op with
  | write value => trivial
  | read =>
      intro pending
      have ready : (ByteStream.chunked system.stream).Ready := fun front member =>
        filled.nonempty front (List.mem_of_mem_head? member)
      have succeeds : (ByteStream.chunked system.stream).Succeeds system.world.kernel := by
        intro channel head
        obtain ⟨stream, same⟩ := filled.buffered.buffers _ (List.mem_of_mem_head? head)
        cases same
      obtain ⟨byte, rest, front⟩ := List.exists_cons_of_ne_nil pending
      have takes := chunked_takes system.stream system.world.kernel filled.buffered.valid ready
        succeeds byte rest front
      rw [(read_event system).1]
      exact ⟨byte, takes.bytes_eq⟩

/-- Byte by byte the stream is a queue: what the reads removed is a prefix of what was
written, each value is congruent to its byte, and if no write is empty then no read
misses a byte that is there. -/
theorem byte_reads_fifo (world : World) (ops : List Op)
    (granted : Along step Granted (start world) ops) :
    total (· ++ ·) [] delivered (outputs step (start world) ops) <+:
        total (· ++ ·) [] given (outputs step (start world) ops) ∧
      Along step Removes (start world) ops ∧
      ((∀ op ∈ ops, Filling op) → Along step RemovesOne (start world) ops) := by
  have empty_start : Buffered (start world) :=
    ⟨ChunkedRuns.start_valid world, fun _ member => absurd member List.not_mem_nil⟩
  refine ⟨?_, ?_, ?_⟩
  · have ledger := conserved (· ++ ·) [] step Granted Buffered
      (fun system => contents system.stream.chunks) delivered given
      (fun system op buffered _ => step_buffered system op buffered) step_balanced
      (start world) ops empty_start granted
    exact ⟨_, ledger⟩
  · exact along_of_along step Granted Buffered Removes
      (fun system op buffered _ => step_buffered system op buffered)
      (fun system op buffered _ => step_removes system op buffered) (start world) ops empty_start
      granted
  · intro filling
    have filled : Filled (start world) :=
      ⟨empty_start, fun _ member => absurd member List.not_mem_nil⟩
    have guarded := along_and step Granted (fun _ op => Filling op) (start world) ops granted
      (along_of_forall step _ (start world) ops fun op member _ => filling op member)
    exact along_of_along step _ Filled RemovesOne step_filled
      (fun system op filled _ => filled_removes_one system op filled) (start world) ops
      filled guarded

theorem byte_reads_fifo_mixed :
    let world : World := ⟨.generous, .willing⟩
    let ops : List Op := [.write ⟨[1, 200], by decide⟩, .read, .write ⟨[3], by decide⟩, .read]
    Along step Granted (start world) ops ∧ Along step RemovesOne (start world) ops ∧
      total (· ++ ·) [] delivered (outputs step (start world) ops) = [1, 200] := by
  intro world ops
  have granted : Along step Granted (start world) ops := by
    refine ⟨?_, ?_, ?_, ?_, trivial⟩
    · exact Heap.grantedSince_of_unrefused _ _ (by decide)
    · exact Heap.grantedSince_of_unrefused _ _ (by decide)
    · exact Heap.grantedSince_of_unrefused _ _ (by decide)
    · exact Heap.grantedSince_of_unrefused _ _ (by decide)
  exact ⟨granted, (byte_reads_fifo world ops granted).2.2 (by simp [ops, Filling]), by decide⟩

end Xio.ByteRuns
