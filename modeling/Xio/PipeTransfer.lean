import Xio.ChunkedStream

/-!
Moving and copying out of a pipe. `Pipe::write(Pipe*, MOVE)` splices as much as the
source's counter says and not what the caller asked for. COPY tees between pipes; the
buffered destinations read the bytes out of the source instead and so consume them.
-/

namespace Xio.PipeTransfer

open Storage MachineWord Environment ChunkedStream

/-- The first `result` bytes of the source, no more than asked for, are at the end of the
sink now and the rest is still in the source. -/
structure MovesWithin (size : Nat) (before source : List UInt8) (result : Int)
    (after left : List UInt8) : Prop where
  bound : result ≤ size
  gained : after = before ++ source.take result.toNat
  left_eq : left = source.drop result.toNat

theorem move_within_counter (pipe source : Pipe) (size : Nat) (kernel : Kernel) :
    MovesWithin (min source.size source.queue.length) pipe.queue source.queue
      (pipe.writePipe source size .move kernel).1.result
      (pipe.writePipe source size .move kernel).1.pipe.queue
      (pipe.writePipe source size .move kernel).2.queue := by
  simp only [Pipe.writePipe]
  split
  · exact ⟨by simp, by simp, rfl⟩
  · rename_i n offer
    split at offer
    · have limit := (Pipe.offered_le pipe kernel _ n offer).1
      have taken : (source.queue.take n).length = n := by
        rw [List.length_take]
        omega
      simp only [Pipe.moveIn, taken]
      exact ⟨Int.ofNat_le.mpr limit, rfl, rfl⟩
    · cases offer

theorem move_closed (pipe source : Pipe) (size : Nat) (kernel : Kernel)
    (closed : ¬ (pipe.isOpen = true ∧ source.isOpen = true)) :
    (pipe.writePipe source size .move kernel).1.result = -1 := by
  simp only [Pipe.writePipe, Pipe.offered]
  by_cases opened : source.isOpen = true
  · have shut : ¬ pipe.isOpen = true := fun isOpen => closed ⟨isOpen, opened⟩
    simp only [opened, shut, ↓reduceIte, Bool.false_eq_true]
  · simp only [opened, ↓reduceIte, Bool.false_eq_true]

def moving (count : Nat) : Kernel := ⟨fun _ => some count, fun _ _ => 0, 0⟩

theorem move_all (pipe source : Pipe) (size : Nat) (kernel : Kernel)
    (opened : pipe.isOpen = true ∧ source.isOpen = true)
    (answered : kernel.answers kernel.calls = some (min source.size source.queue.length)) :
    (pipe.writePipe source size .move kernel).1.result =
      (min source.size source.queue.length : Nat) := by
  have all : kernel.transfer (min source.size source.queue.length) =
      some (min source.size source.queue.length) := by
    rw [Kernel.transfer, answered, Option.map_some, Option.some.injEq]
    split <;> omega
  simp only [Pipe.writePipe, Pipe.offered, opened.1, opened.2, ↓reduceIte, all, Pipe.moveIn,
    List.length_take]
  omega

theorem move_within_iff (pipe source : Pipe) (size : Nat) (kernel : Kernel) :
    MovesWithin size pipe.queue source.queue
        (pipe.writePipe source size .move kernel).1.result
        (pipe.writePipe source size .move kernel).1.pipe.queue
        (pipe.writePipe source size .move kernel).2.queue ↔
      (pipe.writePipe source size .move kernel).1.result ≤ size := by
  have counted := move_within_counter pipe source size kernel
  constructor
  · exact fun moves => moves.bound
  · exact fun bound => ⟨bound, counted.gained, counted.left_eq⟩

theorem move_result_le (pipe source : Pipe) (size : Nat) (kernel : Kernel)
    (small : pipe.isOpen = true → source.isOpen = true →
      min source.size source.queue.length ≤ size) :
    (pipe.writePipe source size .move kernel).1.result ≤ size := by
  by_cases opened : pipe.isOpen = true ∧ source.isOpen = true
  · have counted := (move_within_counter pipe source size kernel).bound
    exact Int.le_trans counted (Int.ofNat_le.mpr (small opened.1 opened.2))
  · rw [move_closed pipe source size kernel opened]
    omega

theorem pipe_contents (stream : ChunkedStream) (kernel : Kernel) :
    contents (stream.pipe kernel).1 ++ (stream.pipe kernel).2.1.queue = contents stream.chunks := by
  simp only [pipe]
  split
  · rename_i tail last
    rw [← List.dropLast_append_getLast? _ last, contents_append, List.dropLast_concat]
    rfl
  · exact List.append_nil _

def TailClosed (stream : ChunkedStream) : Prop :=
  ∃ tail, stream.chunks.getLast? = some (.pipe tail) ∧ tail.isOpen = false

theorem pipe_closed (stream : ChunkedStream) (kernel : Kernel) (closed : TailClosed stream) :
    (stream.pipe kernel).2.1.isOpen = false := by
  obtain ⟨tail, last, shut⟩ := closed
  simp only [pipe, last]
  exact shut

theorem pipe_open (stream : ChunkedStream) (count : Nat) (usable : ¬ TailClosed stream) :
    (stream.pipe (moving count)).2.1.isOpen = true ∧
      ∀ call, (stream.pipe (moving count)).2.2.answers call = some count := by
  simp only [pipe]
  split
  · rename_i tail last
    refine ⟨?_, fun _ => rfl⟩
    by_contra shut
    exact usable ⟨tail, last, Bool.eq_false_iff.mpr shut⟩
  · exact ⟨rfl, fun _ => rfl⟩

theorem chunked_within_iff (stream : ChunkedStream) (source : Pipe) (size : Nat) (world : World) :
    MovesWithin size (contents stream.chunks) source.queue
        (stream.writePipe source size .move world).1.result
        (contents (stream.writePipe source size .move world).1.stream.chunks)
        (stream.writePipe source size .move world).2.queue ↔
      (stream.writePipe source size .move world).1.result ≤ size := by
  have counted := move_within_counter (stream.pipe world.kernel).2.1 source size
    (stream.pipe world.kernel).2.2
  constructor
  · exact fun moves => moves.bound
  · intro bound
    refine ⟨bound, ?_, counted.left_eq⟩
    simp only [writePipe]
    rw [contents_append, Chunk.unread, counted.gained, ← List.append_assoc, pipe_contents]

/-- MOVE honours its bound under every kernel exactly when the source's counter and
content do not exceed it, or one of the two pipes has no descriptors. The same holds
for a `ChunkedStream`, which moves into its last chunk or into a new pipe. -/
theorem move_bounded_iff (source : Pipe) (size : Nat) :
    (∀ pipe : Pipe,
      (∀ kernel, MovesWithin size pipe.queue source.queue
        (pipe.writePipe source size .move kernel).1.result
        (pipe.writePipe source size .move kernel).1.pipe.queue
        (pipe.writePipe source size .move kernel).2.queue) ↔
      (pipe.isOpen = true → source.isOpen = true →
        min source.size source.queue.length ≤ size)) ∧
    ∀ stream : ChunkedStream,
      (∀ world, MovesWithin size (contents stream.chunks) source.queue
        (stream.writePipe source size .move world).1.result
        (contents (stream.writePipe source size .move world).1.stream.chunks)
        (stream.writePipe source size .move world).2.queue) ↔
      (¬ TailClosed stream → source.isOpen = true →
        min source.size source.queue.length ≤ size) := by
  constructor
  · intro pipe
    constructor
    · intro moves isOpen opened
      have all := move_all pipe source size (moving (min source.size source.queue.length))
        ⟨isOpen, opened⟩ rfl
      have bound := (moves (moving (min source.size source.queue.length))).bound
      rw [all] at bound
      exact Int.ofNat_le.mp bound
    · intro small kernel
      exact (move_within_iff pipe source size kernel).mpr
        (move_result_le pipe source size kernel small)
  · intro stream
    constructor
    · intro moves usable opened
      obtain ⟨isOpen, answered⟩ :=
        pipe_open stream (min source.size source.queue.length) usable
      have all := move_all _ source size _ ⟨isOpen, opened⟩ (answered _)
      have bound := (moves ⟨.generous, moving (min source.size source.queue.length)⟩).bound
      simp only [writePipe, all] at bound
      exact Int.ofNat_le.mp bound
    · intro small world
      rw [chunked_within_iff]
      apply move_result_le
      intro isOpen
      apply small
      intro closed
      exact Bool.false_ne_true ((pipe_closed stream world.kernel closed).symm.trans isOpen)

theorem move_ignores_size :
    let moved := Pipe.writePipe ⟨true, 0, []⟩ ⟨true, 3, [97, 98, 99]⟩ 1 .move .willing
    let chunked := ChunkedStream.writePipe .create ⟨true, 3, [97, 98, 99]⟩ 1 .move
      ⟨.generous, .willing⟩
    moved.1.result = 3 ∧ moved.2.queue = [] ∧ chunked.1.result = 3 ∧ chunked.2.queue = [] := by
  decide

/-! COPY into the three kinds of destination. -/

inductive Destination where
  | pipe (pipe : Pipe)
  | bufferStream (stream : BufferStream)
  | chunkedStream (stream : ChunkedStream)

namespace Destination

def content : Destination → List UInt8
  | .pipe sink => sink.queue
  | .bufferStream stream => stream.unread
  | .chunkedStream stream => contents stream.chunks

def Valid : Destination → Prop
  | .pipe _ => True
  | .bufferStream stream => stream.Valid
  | .chunkedStream stream => AllValid stream.chunks

structure Copy where
  result : Int
  destination : Destination
  source : Pipe

-- `dest.write(&source, size, Stream::COPY)`
def copy (destination : Destination) (source : Pipe) (size : Nat) (world : World) : Copy :=
  match destination with
  | .pipe sink =>
      let (moved, source) := sink.writePipe source size .copy world.kernel
      ⟨moved.result, .pipe moved.pipe, source⟩
  | .bufferStream stream =>
      let (written, source) := stream.writePipe source size world
      ⟨written.result, .bufferStream written.stream, source⟩
  | .chunkedStream stream =>
      let (written, source) := stream.writePipe source size .copy world
      ⟨written.result, .chunkedStream written.stream, source⟩

/-- There is room for the bytes: the request for it does not wrap and is granted. -/
def Admits (stream : BufferStream) (size : Nat) (heap : Heap) : Prop :=
  stream.data.Requestable size ∧
    (stream.data.reserve (add stream.data.size size) heap).ok = true

def Accepts (size : Nat) (heap : Heap) : Destination → Prop
  | .pipe _ => True
  | .bufferStream stream => Admits stream size heap
  | .chunkedStream stream => Admits (stream.buffer size heap).2.1 size (stream.buffer size heap).2.2

def IsPipe : Destination → Prop
  | .pipe _ => True
  | .bufferStream _ | .chunkedStream _ => False

end Destination

/-- The destination gains the first `result` bytes, and the source keeps all of its own. -/
structure Copies (destination : Destination) (source : Pipe) (size : Nat)
    (after : Destination.Copy) : Prop where
  bound : after.result ≤ size
  gained : after.destination.content = destination.content ++ source.queue.take after.result.toNat
  kept : after.source.queue = source.queue

def Withheld (source : Pipe) (size : Nat) (kernel : Kernel) : Prop :=
  source.isOpen = false ∨ kernel.answers kernel.calls = none ∨ min size source.queue.length = 0

theorem tee_copies (sink source : Pipe) (size : Nat) (world : World) :
    Copies (.pipe sink) source size (Destination.copy (.pipe sink) source size world) := by
  simp only [Destination.copy, Pipe.writePipe]
  by_cases opened : source.isOpen = true
  · rw [if_pos opened]
    cases offer : sink.offered world.kernel (min size source.queue.length) with
    | none => exact ⟨by simp [Pipe.moveIn], by simp [Pipe.moveIn, Destination.content], rfl⟩
    | some n =>
        have limit := (Pipe.offered_le sink world.kernel _ n offer).1
        have taken : (source.queue.take n).length = n := by
          rw [List.length_take]
          omega
        simp only [Option.map_some, Pipe.moveIn, taken]
        exact ⟨by simp only [Nat.cast_le]; omega, rfl, rfl⟩
  · rw [if_neg opened]
    exact ⟨by simp [Pipe.moveIn], by simp [Pipe.moveIn, Destination.content], rfl⟩

theorem readChars_keeps_iff (source : Pipe) (size : Nat) (kernel : Kernel) :
    (source.readChars size kernel).pipe.queue = source.queue ↔ Withheld source size kernel := by
  simp only [Pipe.readChars, Pipe.moveOut, Pipe.offered, Withheld]
  by_cases opened : source.isOpen = true
  · cases answer : kernel.answers kernel.calls with
    | none => simp [opened, Kernel.transfer, answer]
    | some wanted =>
        cases moved : kernel.transfer (min size source.queue.length) with
        | none => simp [Kernel.transfer, answer] at moved
        | some n =>
            have limit := kernel.transfer_le _ n moved
            have progress : 0 < min size source.queue.length → 0 < n :=
              fun some_bytes => kernel.transfer_pos _ n some_bytes moved
            simp only [opened, ↓reduceIte, Bool.true_eq_false, reduceCtorEq, false_or]
            constructor
            · intro same
              have length := congrArg List.length same
              rw [List.length_drop] at length
              omega
            · intro nothing
              have none_moved : n = 0 := by omega
              rw [none_moved, List.drop_zero]
  · simp [opened]

theorem read_copies_iff (destination : Destination) (source : Pipe) (size : Nat) (kernel : Kernel)
    (after : Destination.Copy)
    (gained : after.destination.content =
      destination.content ++ (source.readChars size kernel).bytes)
    (result : after.result = (source.readChars size kernel).result)
    (left : after.source = (source.readChars size kernel).pipe) :
    Copies destination source size after ↔ Withheld source size kernel := by
  rw [← readChars_keeps_iff, ← left]
  constructor
  · exact fun copies => copies.kept
  · intro kept
    rcases Pipe.moveOut_cases source size kernel with failed | ⟨n, limit, _, moved⟩
    · simp only [Pipe.readChars, failed] at gained result
      exact ⟨by omega, by rw [gained, result]; rfl, kept⟩
    · simp only [Pipe.readChars, moved] at gained result
      exact ⟨by omega, by rw [gained, result]; rfl, kept⟩

theorem bufferStream_reads (stream : BufferStream) (valid : stream.Valid) (source : Pipe)
    (size : Nat) (world : World) (admits : Destination.Admits stream size world.heap) :
    (stream.writePipe source size world).1.stream.unread =
        stream.unread ++ (source.readChars size world.kernel).bytes ∧
      (stream.writePipe source size world).1.result = (source.readChars size world.kernel).result ∧
      (stream.writePipe source size world).2 = (source.readChars size world.kernel).pipe := by
  obtain ⟨requestable, ok⟩ := admits
  have accepts := (stream.writePipe_accepts valid source size requestable world).1
  have grown := Buffer.reserve_more stream.data size world.heap valid.data requestable
  have all := (BufferStream.request_le stream.data size world.heap _ grown).2 ok
  rw [accepts.unread_eq]
  simp only [BufferStream.writePipe, all, and_self]

/-- COPY means the same for a pipe always, and for the buffered destinations exactly when
no byte leaves the source. -/
theorem copy_keeps_source_iff (destination : Destination) (source : Pipe) (size : Nat)
    (world : World) (valid : destination.Valid)
    (accepts : destination.Accepts size world.heap) :
    Copies destination source size (destination.copy source size world) ↔
      destination.IsPipe ∨ Withheld source size world.kernel := by
  cases destination with
  | pipe sink => exact iff_of_true (tee_copies sink source size world) (Or.inl trivial)
  | bufferStream stream =>
      obtain ⟨gained, result, left⟩ :=
        bufferStream_reads stream valid source size world accepts
      rw [read_copies_iff (.bufferStream stream) source size world.kernel
        (Destination.copy (.bufferStream stream) source size world) gained result left]
      exact (or_iff_right id).symm
  | chunkedStream stream =>
      have picks := (stream.buffer_picks size world.heap valid).1
      obtain ⟨gained, result, left⟩ := bufferStream_reads _ picks.chunk_valid source size
        { world with heap := (stream.buffer size world.heap).2.2 } accepts
      have extended : contents (stream.writePipe source size .copy world).1.stream.chunks =
          contents stream.chunks ++ (source.readChars size world.kernel).bytes := by
        simp only [writePipe]
        rw [contents_append, Chunk.unread, gained, ← List.append_assoc]
        exact congrArg (· ++ _) picks.contents_eq
      rw [read_copies_iff (.chunkedStream stream) source size world.kernel
        (Destination.copy (.chunkedStream stream) source size world) extended result left]
      exact (or_iff_right id).symm

-- A pipe copies, and a stream copies from a pipe that has nothing.
theorem copy_keeps_source_iff_tee :
    let world : World := ⟨.generous, .willing⟩
    let stream : BufferStream := ⟨⟨none, fun _ => 0, 0, 8⟩, 0⟩
    Copies (.pipe ⟨true, 0, []⟩) ⟨true, 2, [97, 98]⟩ 2
        (Destination.copy (.pipe ⟨true, 0, []⟩) ⟨true, 2, [97, 98]⟩ 2 world) ∧
      Copies (.bufferStream stream) ⟨true, 0, []⟩ 2
        (Destination.copy (.bufferStream stream) ⟨true, 0, []⟩ 2 world) := by
  intro world stream
  have valid : stream.Valid := ⟨⟨by decide, by decide⟩, by decide⟩
  constructor
  · exact (copy_keeps_source_iff (.pipe ⟨true, 0, []⟩) _ 2 world trivial
      trivial).mpr (Or.inl trivial)
  · exact (copy_keeps_source_iff (.bufferStream stream) _ 2 world valid
      ⟨Buffer.requestable_of_inMemory _ 2 valid.data (by decide), by decide⟩).mpr
      (Or.inr (Or.inr (Or.inr rfl)))

/-- Two bytes copied into a stream of either kind are gone from the source. -/
theorem copy_drains_source :
    let source : Pipe := ⟨true, 2, [97, 98]⟩
    let world : World := ⟨.generous, .willing⟩
    let buffered := Destination.copy (.bufferStream ⟨⟨none, fun _ => 0, 0, 8⟩, 0⟩) source 2 world
    let chunked := Destination.copy (.chunkedStream .create) source 2 world
    buffered.result = 2 ∧ buffered.source.queue = [] ∧
      chunked.result = 2 ∧ chunked.source.queue = [] := by
  decide

end Xio.PipeTransfer
