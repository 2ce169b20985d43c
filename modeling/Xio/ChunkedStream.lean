import Xio.BufferStream

/-!
`lib/ChunkedStream.cpp`: a deque of `BufferStream` and `Pipe` chunks. The three read
loops are one loop over what the front chunk does with its sink; a round that
takes nothing and fails nothing runs again, so the loop carries a round budget and
says whether it returned. All chunks live in one address space, so the sum in
`size` does not wrap. `new` does not return null, and the socket operations are
stubs that return 0; both are left out.
-/

namespace Xio

open Storage MachineWord Environment

inductive Chunk where
  | bufferStream (stream : BufferStream)
  | pipe (pipe : Pipe)

structure Taken (Sink : Type) where
  result : Int
  chunk : Chunk
  sink : Sink

abbrev Take (Sink : Type) := Chunk → Nat → Sink → Taken Sink

structure CharSink where
  memory : Memory UInt8
  start : Nat
  kernel : Kernel

structure FdSink where
  sent : List UInt8
  kernel : Kernel

structure PipeSink where
  sink : Pipe
  kernel : Kernel

namespace Chunk

def size : Chunk → Nat
  | .bufferStream stream => stream.size
  | .pipe channel => channel.size

def readChars : Take CharSink
  | .bufferStream stream, size, ⟨memory, start, kernel⟩ =>
      let read := stream.readChars size
      ⟨read.result, .bufferStream read.stream, ⟨store memory start read.bytes, start, kernel⟩⟩
  | .pipe channel, size, ⟨memory, start, kernel⟩ =>
      let moved := channel.readChars size kernel
      ⟨moved.result, .pipe moved.pipe, ⟨store memory start moved.bytes, start, moved.kernel⟩⟩

def readFd : Take FdSink
  | .bufferStream stream, size, ⟨sent, kernel⟩ =>
      let read := stream.readFd size kernel
      ⟨read.result, .bufferStream read.stream, ⟨sent ++ read.bytes, kernel.next⟩⟩
  | .pipe channel, size, ⟨sent, kernel⟩ =>
      let moved := channel.readFd size kernel
      ⟨moved.result, .pipe moved.pipe, ⟨sent ++ moved.bytes, moved.kernel⟩⟩

def readPipe : Take PipeSink
  | .bufferStream stream, size, ⟨sink, kernel⟩ =>
      let read := stream.readPipe sink size kernel
      ⟨read.1.result, .bufferStream read.1.stream, ⟨read.2.pipe, read.2.kernel⟩⟩
  | .pipe channel, size, ⟨sink, kernel⟩ =>
      let moved := channel.readPipe size kernel
      ⟨moved.result, .pipe moved.pipe, ⟨sink, moved.kernel⟩⟩

def readByte (chunk : Chunk) (kernel : Kernel) : Taken Kernel × List UInt8 :=
  match chunk with
  | .bufferStream stream =>
      let read := stream.readByte
      (⟨read.result, .bufferStream read.stream, kernel⟩, read.bytes)
  | .pipe channel =>
      let moved := channel.readByte kernel
      (⟨moved.result, .pipe moved.pipe, moved.kernel⟩, moved.bytes)

end Chunk

structure ChunkedStream where
  chunks : List Chunk

namespace ChunkedStream

def create : ChunkedStream := ⟨[]⟩

def empty (stream : ChunkedStream) : Bool :=
  match stream.chunks with
  | [] => true
  | front :: _ => front.size == 0

def size (stream : ChunkedStream) : Nat := (stream.chunks.map Chunk.size).sum

/-! `buffer(size)` and `pipe(size)` answer with the chunk to write to; here they also
say which chunks stand in front of it. -/

def buffer (stream : ChunkedStream) (size : Nat) (heap : Heap) : List Chunk × BufferStream × Heap :=
  let fresh := BufferStream.create size heap
  match stream.chunks.getLast? with
  | some (.bufferStream tail) =>
      if tail.size < tail.capacity then (stream.chunks.dropLast, tail, heap)
      else (stream.chunks, fresh)
  | _ => (stream.chunks, fresh)

def pipe (stream : ChunkedStream) (kernel : Kernel) : List Chunk × Pipe × Kernel :=
  match stream.chunks.getLast? with
  | some (.pipe tail) => (stream.chunks.dropLast, tail, kernel)
  | _ => (stream.chunks, Pipe.create kernel)

structure Write where
  result : Int
  bytes : List UInt8
  stream : ChunkedStream
  world : World

def writeChars (stream : ChunkedStream) (value : List UInt8) (world : World) : Write :=
  let (before, chunk, heap) := stream.buffer value.length world.heap
  let written := chunk.writeChars value { world with heap := heap }
  ⟨written.result, written.bytes, ⟨before ++ [.bufferStream written.stream]⟩, written.world⟩

def writeFd (stream : ChunkedStream) (size : Nat) (world : World) : Write :=
  let (before, chunk, kernel) := stream.pipe world.kernel
  let moved := chunk.writeFd size kernel
  ⟨moved.result, moved.bytes, ⟨before ++ [.pipe moved.pipe]⟩, { world with kernel := moved.kernel }⟩

def writePipe (stream : ChunkedStream) (source : Pipe) (size : Nat) (mode : Mode) (world : World) :
    Write × Pipe :=
  match mode with
  | .move =>
      let (before, chunk, kernel) := stream.pipe world.kernel
      let (moved, source) := chunk.writePipe source size mode kernel
      (⟨moved.result, moved.bytes, ⟨before ++ [.pipe moved.pipe]⟩,
        { world with kernel := moved.kernel }⟩, source)
  | .copy =>
      let (before, chunk, heap) := stream.buffer size world.heap
      let (written, source) := chunk.writePipe source size { world with heap := heap }
      (⟨written.result, written.bytes, ⟨before ++ [.bufferStream written.stream]⟩, written.world⟩,
        source)

structure Loop (Sink : Type) where
  returned : Bool
  result : Int
  chunks : List Chunk
  sink : Sink

/-- The loop of `read(char*)`, `read(Pipe*)` and `read(int)`. -/
def readLoop {Sink : Type} (take : Take Sink) : Nat → List Chunk → Nat → Nat → Sink → Loop Sink
  | 0, chunks, _, result, sink => ⟨false, result, chunks, sink⟩
  | _ + 1, [], _, result, sink => ⟨true, result, [], sink⟩
  | rounds + 1, front :: rest, size, result, sink =>
      if front.size = 0 ∨ size = 0 then ⟨true, result, front :: rest, sink⟩
      else
        let taken := take front size sink
        if taken.result < 0 then
          ⟨true, if result = 0 then -1 else result, taken.chunk :: rest, taken.sink⟩
        else
          -- pop_front once the chunk has nothing left
          readLoop take rounds (if taken.chunk.size = 0 then rest else taken.chunk :: rest)
            (sub size taken.result.toNat) (result + taken.result.toNat) taken.sink

-- `buf` is not advanced between rounds.
def readChars (stream : ChunkedStream) (rounds size : Nat) (sink : CharSink) : Loop CharSink :=
  readLoop Chunk.readChars rounds stream.chunks size 0 sink

def readFd (stream : ChunkedStream) (rounds size : Nat) (kernel : Kernel) : Loop FdSink :=
  readLoop Chunk.readFd rounds stream.chunks size 0 ⟨[], kernel⟩

def readPipe (stream : ChunkedStream) (rounds : Nat) (sink : Pipe) (size : Nat) (kernel : Kernel) :
    Loop PipeSink :=
  readLoop Chunk.readPipe rounds stream.chunks size 0 ⟨sink, kernel⟩

def readBuffer (stream : ChunkedStream) (rounds : Nat) (result : Buffer) (size : Nat)
    (world : World) : Loop CharSink × Buffer × Heap :=
  let reserved := result.reserve (add result.size size) world.heap
  let loop := stream.readChars rounds size
    ⟨reserved.buffer.bytes, reserved.buffer.size, world.kernel⟩
  let filled := { reserved.buffer with bytes := loop.sink.memory }
  (loop, if 0 < loop.result then (filled.resize (add filled.size loop.result.toNat)).2 else filled,
    reserved.heap)

def readByte (stream : ChunkedStream) (kernel : Kernel) : Loop Kernel × List UInt8 :=
  match stream.chunks with
  | [] => (⟨true, -1, [], kernel⟩, [])
  | front :: rest =>
      if front.size = 0 then (⟨true, -1, front :: rest, kernel⟩, [])
      else
        let (taken, bytes) := front.readByte kernel
        (⟨true, taken.result, if taken.chunk.size = 0 then rest else taken.chunk :: rest,
          taken.sink⟩, bytes)

end ChunkedStream

/-! What a chunk holds, and what a virtual read takes from it. -/

namespace Chunk

def unread : Chunk → List UInt8
  | .bufferStream stream => stream.unread
  | .pipe channel => channel.queue

def Valid : Chunk → Prop
  | .bufferStream stream => stream.Valid
  | .pipe channel => channel.Exact

theorem size_eq_length (chunk : Chunk) (valid : chunk.Valid) :
    chunk.size = chunk.unread.length := by
  cases chunk with
  | bufferStream stream => exact (stream.unread_length).symm
  | pipe channel => exact valid.counted

theorem size_eq_zero_iff (chunk : Chunk) (valid : chunk.Valid) :
    chunk.size = 0 ↔ chunk.unread = [] := by
  rw [chunk.size_eq_length valid, List.length_eq_zero_iff]

structure Draws (before : Chunk) (size count : Nat) (after : Chunk) : Prop where
  valid : after.Valid
  limit : count ≤ min size before.unread.length
  unread_eq : after.unread = before.unread.drop count

theorem sends_draws (stream : BufferStream) (size : Nat) (read : BufferStream.Read)
    (sends : stream.Sends size read) :
    Draws (.bufferStream stream) size read.result.toNat (.bufferStream read.stream) := by
  have limit := sends.limit
  rw [sends.reports.toNat]
  refine ⟨sends.valid, ?_, sends.unread_eq⟩
  rw [unread, BufferStream.unread_length, Nat.min_comm]
  exact limit

theorem moveOut_draws (channel : Pipe) (exact_pipe : channel.Exact) (size : Nat)
    (kernel : Kernel) :
    Draws (.pipe channel) size (channel.moveOut size kernel).result.toNat
      (.pipe (channel.moveOut size kernel).pipe) := by
  refine ⟨Pipe.moveOut_exact channel size kernel exact_pipe, ?_, ?_⟩
  · rcases Pipe.moveOut_cases channel size kernel with failed | ⟨n, limit, _, moved⟩
    · rw [failed]
      exact Nat.zero_le _
    · rw [moved]
      exact limit
  · rcases Pipe.moveOut_cases channel size kernel with failed | ⟨n, _, _, moved⟩
    · rw [failed]
      rfl
    · rw [moved]
      rfl

theorem readChars_draws (chunk : Chunk) (size : Nat) (sink : CharSink) (valid : chunk.Valid) :
    Draws chunk size (chunk.readChars size sink).result.toNat
      (chunk.readChars size sink).chunk := by
  cases chunk with
  | bufferStream stream =>
      have delivers := stream.readChars_delivers valid size
      have count : (stream.readChars size).result.toNat = min size stream.unread.length := by
        rw [delivers.counted, delivers.bytes_eq, List.length_take, Int.toNat_natCast]
      simp only [readChars, count]
      refine ⟨delivers.valid, Nat.le_refl _, ?_⟩
      simp only [unread, ← List.drop_eq_drop_min]
      exact delivers.unread_eq
  | pipe channel => exact moveOut_draws channel valid size sink.kernel

theorem readFd_draws (chunk : Chunk) (size : Nat) (sink : FdSink) (valid : chunk.Valid) :
    Draws chunk size (chunk.readFd size sink).result.toNat (chunk.readFd size sink).chunk := by
  cases chunk with
  | bufferStream stream =>
      exact sends_draws stream size _ (stream.readFd_sends valid size sink.kernel)
  | pipe channel => exact moveOut_draws channel valid size sink.kernel

theorem readPipe_draws (chunk : Chunk) (size : Nat) (sink : PipeSink) (valid : chunk.Valid) :
    Draws chunk size (chunk.readPipe size sink).result.toNat (chunk.readPipe size sink).chunk := by
  cases chunk with
  | bufferStream stream =>
      exact sends_draws stream size _ (stream.readPipe_sends valid sink.sink size sink.kernel)
  | pipe channel => exact ⟨valid, Nat.zero_le _, rfl⟩

theorem readByte_draws (chunk : Chunk) (valid : chunk.Valid) (kernel : Kernel) :
    Draws chunk 1 (chunk.readByte kernel).2.length (chunk.readByte kernel).1.chunk := by
  cases chunk with
  | bufferStream stream =>
      obtain ⟨valid', bytes, unread', _⟩ := stream.readByte_unread valid
      have count : stream.readByte.bytes.length = min 1 stream.unread.length := by
        rw [bytes, List.length_take]
      simp only [readByte, count]
      refine ⟨valid', Nat.le_refl _, ?_⟩
      simp only [unread, ← List.drop_eq_drop_min]
      exact unread'
  | pipe channel =>
      have draws := moveOut_draws channel valid 1 kernel
      have moved := Pipe.moveOut_reports channel 1 kernel
      rw [moved.1.toNat] at draws
      simp only [readByte, Pipe.readByte]
      by_cases nothing : channel.size = 0
      · rw [if_pos nothing]
        exact ⟨valid, Nat.zero_le _, rfl⟩
      · rw [if_neg nothing]
        exact draws

theorem moveOut_advances (channel : Pipe) (exact_pipe : channel.Exact) (size : Nat)
    (kernel : Kernel) (pending : channel.size ≠ 0) (wanted : size ≠ 0) :
    (channel.moveOut size kernel).result ≠ 0 := by
  have counted := exact_pipe.counted
  rcases Pipe.moveOut_cases channel size kernel with failed | ⟨n, _, progress, moved⟩
  · simp [failed]
  · have some_bytes := progress (by omega)
    rw [moved]
    simp only
    omega

theorem readChars_advances (chunk : Chunk) (size : Nat) (sink : CharSink) (valid : chunk.Valid)
    (pending : chunk.size ≠ 0) (wanted : size ≠ 0) : (chunk.readChars size sink).result ≠ 0 := by
  cases chunk with
  | bufferStream stream =>
      have delivers := stream.readChars_delivers valid size
      have sized : stream.size ≠ 0 := pending
      simp only [readChars, delivers.counted, delivers.bytes_eq, List.length_take,
        BufferStream.unread_length]
      omega
  | pipe channel => exact moveOut_advances channel valid size sink.kernel pending wanted

theorem readFd_advances (chunk : Chunk) (size : Nat) (sink : FdSink) (valid : chunk.Valid)
    (pending : chunk.size ≠ 0) (wanted : size ≠ 0) : (chunk.readFd size sink).result ≠ 0 := by
  cases chunk with
  | bufferStream stream =>
      have sized : stream.size ≠ 0 := pending
      simp only [readFd, BufferStream.readFd]
      cases moved : sink.kernel.transfer (min stream.size size) with
      | none => simp
      | some n =>
          have some_bytes := sink.kernel.transfer_pos _ n (by omega) moved
          simp only
          omega
  | pipe channel => exact moveOut_advances channel valid size sink.kernel pending wanted

end Chunk

namespace ChunkedStream

def contents (chunks : List Chunk) : List UInt8 := chunks.flatMap Chunk.unread

def AllValid (chunks : List Chunk) : Prop := ∀ chunk ∈ chunks, chunk.Valid

theorem sum_eq_length (chunks : List Chunk) (valid : AllValid chunks) :
    (chunks.map Chunk.size).sum = (contents chunks).length := by
  induction chunks with
  | nil => rfl
  | cons front rest ih =>
      obtain ⟨first, others⟩ := List.forall_mem_cons.mp valid
      simp only [List.map_cons, List.sum_cons, contents, List.flatMap_cons, List.length_append]
      rw [front.size_eq_length first, ih others]
      rfl

-- `pop_front` for a chunk with nothing left takes no bytes away.
theorem popped_contents (chunk : Chunk) (rest : List Chunk) (valid : chunk.Valid) :
    contents (if chunk.size = 0 then rest else chunk :: rest) = chunk.unread ++ contents rest := by
  by_cases nothing : chunk.size = 0
  · rw [chunk.size_eq_length valid] at nothing
    rw [if_pos (by rw [chunk.size_eq_length valid]; exact nothing),
      List.length_eq_zero_iff.mp nothing, List.nil_append]
  · rw [if_neg nothing]
    rfl

theorem popped_valid (chunk : Chunk) (rest : List Chunk) (valid : chunk.Valid)
    (others : AllValid rest) : AllValid (if chunk.size = 0 then rest else chunk :: rest) := by
  by_cases nothing : chunk.size = 0
  · rw [if_pos nothing]
    exact others
  · rw [if_neg nothing]
    exact List.forall_mem_cons.mpr ⟨valid, others⟩

structure Consumes (before : List Chunk) (size result : Nat) (after : List Chunk)
    (reported : Int) : Prop where
  valid : AllValid after
  exact_count : ∃ count, count ≤ min size (contents before).length ∧
    reported.toNat = result + count ∧ contents after = (contents before).drop count

theorem draws_contents (front after : Chunk) (rest : List Chunk) (size count : Nat)
    (draws : front.Draws size count after) :
    after.unread ++ contents rest = (contents (front :: rest)).drop count := by
  have limit := draws.limit
  simp only [contents, List.flatMap_cons]
  rw [draws.unread_eq, List.drop_append_of_le_length (by omega)]

section Loops
variable {Sink : Type} (take : Take Sink)

theorem readLoop_round (rounds size result : Nat) (front : Chunk) (rest : List Chunk) (sink : Sink)
    (running : ¬ (front.size = 0 ∨ size = 0)) (answered : ¬ (take front size sink).result < 0) :
    readLoop take (rounds + 1) (front :: rest) size result sink =
      readLoop take rounds
        (if (take front size sink).chunk.size = 0 then rest
          else (take front size sink).chunk :: rest)
        (sub size (take front size sink).result.toNat)
        (result + (take front size sink).result.toNat) (take front size sink).sink := by
  simp only [readLoop, if_neg running, if_neg answered]

/-- The invariant rule of the loop: what a failed and a completed round keep of the
chunks, the loop keeps. -/
theorem readLoop_preserves (keeps : List Chunk → Prop)
    (failure : ∀ (front : Chunk) (rest : List Chunk) (size : Nat) (sink : Sink), front.size ≠ 0 →
      (take front size sink).result < 0 → keeps (front :: rest) →
      keeps ((take front size sink).chunk :: rest))
    (round : ∀ (front : Chunk) (rest : List Chunk) (size : Nat) (sink : Sink), front.size ≠ 0 →
      keeps (front :: rest) →
      keeps (if (take front size sink).chunk.size = 0 then rest
        else (take front size sink).chunk :: rest))
    (rounds size result : Nat) (chunks : List Chunk) (sink : Sink) (kept : keeps chunks) :
    keeps (readLoop take rounds chunks size result sink).chunks := by
  induction rounds generalizing chunks size result sink with
  | zero => exact kept
  | succ rounds ih =>
      cases chunks with
      | nil => exact kept
      | cons front rest =>
          by_cases stopped : front.size = 0 ∨ size = 0
          · simp only [readLoop, if_pos stopped]
            exact kept
          have pending : front.size ≠ 0 := (not_or.mp stopped).1
          by_cases failed : (take front size sink).result < 0
          · simp only [readLoop, if_neg stopped, if_pos failed]
            exact failure front rest size sink pending failed kept
          · rw [readLoop_round take rounds size result front rest sink stopped failed]
            exact ih _ _ _ _ (round front rest size sink pending kept)

variable (sound : ∀ (chunk : Chunk) (size : Nat) (sink : Sink), chunk.Valid →
  chunk.Draws size (take chunk size sink).result.toNat (take chunk size sink).chunk)
include sound

theorem readLoop_consumes (rounds size result : Nat) (chunks : List Chunk) (sink : Sink)
    (valid : AllValid chunks) :
    Consumes chunks size result (readLoop take rounds chunks size result sink).chunks
      (readLoop take rounds chunks size result sink).result := by
  induction rounds generalizing chunks size result sink with
  | zero => exact ⟨valid, 0, Nat.zero_le _, rfl, rfl⟩
  | succ rounds ih =>
      cases chunks with
      | nil => exact ⟨valid, 0, Nat.zero_le _, rfl, rfl⟩
      | cons front rest =>
          obtain ⟨first, others⟩ := List.forall_mem_cons.mp valid
          have draws := sound front size sink first
          have left := draws_contents front _ rest size _ draws
          simp only [readLoop]
          by_cases stopped : front.size = 0 ∨ size = 0
          · rw [if_pos stopped]
            exact ⟨valid, 0, Nat.zero_le _, rfl, rfl⟩
          rw [if_neg stopped]
          by_cases failed : (take front size sink).result < 0
          · -- an error: what earlier rounds took is reported, or -1 if that is nothing
            have none_taken : (take front size sink).result.toNat = 0 := by omega
            rw [none_taken, List.drop_zero] at left
            rw [if_pos failed]
            refine ⟨List.forall_mem_cons.mpr ⟨draws.valid, others⟩, 0, Nat.zero_le _, ?_, left⟩
            by_cases first_round : result = 0
            · simp [first_round]
            · simp [first_round]
          · rw [if_neg failed]
            have limit := draws.limit
            have more : front.unread.length ≤ (contents (front :: rest)).length := by
              simp [contents]
            obtain ⟨valid', count, within, reported, gone⟩ := ih
              (sub size (take front size sink).result.toNat)
              (result + (take front size sink).result.toNat)
              (if (take front size sink).chunk.size = 0 then rest
                else (take front size sink).chunk :: rest)
              (take front size sink).sink
              (popped_valid _ rest draws.valid others)
            rw [popped_contents _ rest draws.valid, left, List.length_drop,
              sub_exact (by omega)] at within
            refine ⟨valid', (take front size sink).result.toNat + count, by omega,
              by rw [reported, Nat.add_assoc], ?_⟩
            rw [gone, popped_contents _ rest draws.valid, left, List.drop_drop]

theorem readLoop_returns (advances : ∀ (chunk : Chunk) (size : Nat) (sink : Sink), chunk.Valid →
      chunk.size ≠ 0 → size ≠ 0 → (take chunk size sink).result ≠ 0)
    (rounds size result : Nat) (chunks : List Chunk) (sink : Sink) (valid : AllValid chunks)
    (enough : size < rounds) : (readLoop take rounds chunks size result sink).returned = true := by
  induction rounds generalizing chunks size result sink with
  | zero => exact absurd enough (Nat.not_lt_zero size)
  | succ rounds ih =>
      cases chunks with
      | nil => rfl
      | cons front rest =>
          obtain ⟨first, others⟩ := List.forall_mem_cons.mp valid
          have draws := sound front size sink first
          have limit := draws.limit
          simp only [readLoop]
          by_cases stopped : front.size = 0 ∨ size = 0
          · rw [if_pos stopped]
          rw [if_neg stopped]
          by_cases failed : (take front size sink).result < 0
          · rw [if_pos failed]
          rw [if_neg failed]
          obtain ⟨pending, wanted⟩ := not_or.mp stopped
          have progress := advances front size sink first pending wanted
          apply ih _ _ _ _ (popped_valid _ rest draws.valid others)
          rw [sub_exact (by omega)]
          omega

end Loops

/-! Writes append to the chunk that `buffer` or `pipe` picks. -/

theorem contents_append (before : List Chunk) (chunk : Chunk) :
    contents (before ++ [chunk]) = contents before ++ chunk.unread := by
  simp [contents]

theorem allValid_append (before : List Chunk) (chunk : Chunk) :
    AllValid (before ++ [chunk]) ↔ AllValid before ∧ chunk.Valid := by
  simp [AllValid, or_imp, forall_and]

structure Picks (chunks before : List Chunk) (chunk : Chunk) : Prop where
  valid : AllValid before
  chunk_valid : chunk.Valid
  contents_eq : contents before ++ chunk.unread = contents chunks

theorem picks_tail (chunks : List Chunk) (tail : Chunk) (last : chunks.getLast? = some tail)
    (valid : AllValid chunks) : Picks chunks chunks.dropLast tail := by
  have whole : chunks.dropLast ++ [tail] = chunks := List.dropLast_append_getLast? tail last
  rw [← whole, allValid_append] at valid
  refine ⟨valid.1, valid.2, ?_⟩
  rw [← contents_append, whole]

theorem picks_fresh (chunks : List Chunk) (chunk : Chunk) (valid : AllValid chunks)
    (chunk_valid : chunk.Valid) (nothing : chunk.unread = []) : Picks chunks chunks chunk :=
  ⟨valid, chunk_valid, by rw [nothing, List.append_nil]⟩

theorem buffer_picks (stream : ChunkedStream) (size : Nat) (heap : Heap)
    (valid : AllValid stream.chunks) :
    Picks stream.chunks (stream.buffer size heap).1 (.bufferStream (stream.buffer size heap).2.1) ∧
      ((stream.buffer size heap).2.2.Unrefused → heap.Unrefused) := by
  obtain ⟨created, nothing, unrefused⟩ := BufferStream.create_valid size heap
  have fresh := picks_fresh stream.chunks (.bufferStream (BufferStream.create size heap).1) valid
    created nothing
  simp only [buffer]
  split
  · rename_i tail last
    split
    · exact ⟨picks_tail stream.chunks _ last valid, id⟩
    · exact ⟨fresh, unrefused⟩
  · exact ⟨fresh, unrefused⟩

theorem pipe_picks (stream : ChunkedStream) (kernel : Kernel) (valid : AllValid stream.chunks) :
    Picks stream.chunks (stream.pipe kernel).1 (.pipe (stream.pipe kernel).2.1) := by
  simp only [pipe]
  split
  · rename_i tail last
    exact picks_tail stream.chunks _ last valid
  · exact picks_fresh stream.chunks _ valid (Pipe.create_exact kernel) rfl

structure Extends (before : ChunkedStream) (write : Write) : Prop where
  valid : AllValid write.stream.chunks
  contents_eq : contents write.stream.chunks = contents before.chunks ++ write.bytes
  reports : Reports write.result write.bytes

theorem picks_extends (stream : ChunkedStream) (before : List Chunk) (chunk after : Chunk)
    (result : Int) (bytes : List UInt8) (world : World)
    (picks : Picks stream.chunks before chunk) (valid : after.Valid)
    (unread_eq : after.unread = chunk.unread ++ bytes) (reports : Reports result bytes) :
    Extends stream ⟨result, bytes, ⟨before ++ [after]⟩, world⟩ := by
  refine ⟨(allValid_append before after).mpr ⟨picks.valid, valid⟩, ?_, reports⟩
  rw [contents_append, unread_eq, ← List.append_assoc, picks.contents_eq]

theorem writeChars_extends (stream : ChunkedStream) (value : List UInt8) (world : World)
    (inMemory : value.length < addressSpace) (valid : AllValid stream.chunks) :
    Extends stream (stream.writeChars value world) ∧
      ((stream.writeChars value world).world.heap.Unrefused →
        (stream.writeChars value world).bytes = value ∧ world.heap.Unrefused) := by
  obtain ⟨picks, unrefused⟩ := stream.buffer_picks value.length world.heap valid
  obtain ⟨accepts, whole⟩ := BufferStream.writeChars_accepts _ picks.chunk_valid value inMemory
    { world with heap := (stream.buffer value.length world.heap).2.2 }
  refine ⟨picks_extends stream _ _ _ _ _ _ picks accepts.valid accepts.unread_eq
    accepts.reports, ?_⟩
  intro granted
  exact ⟨(whole granted).1, unrefused (accepts.unrefused granted)⟩

theorem writeFd_extends (stream : ChunkedStream) (size : Nat) (world : World)
    (valid : AllValid stream.chunks) : Extends stream (stream.writeFd size world) := by
  have picks := stream.pipe_picks world.kernel valid
  exact picks_extends stream _ _ _ _ _ _ picks
    (Pipe.receive_exact _ size _ picks.chunk_valid) (Pipe.moveIn_queue _ _ _)
    (Pipe.moveIn_reports _ _ _)

theorem writePipe_extends (stream : ChunkedStream) (source : Pipe) (size : Nat) (mode : Mode)
    (world : World) (valid : AllValid stream.chunks)
    (requestable : mode = .copy → (stream.buffer size world.heap).2.1.data.Requestable size) :
    Extends stream (stream.writePipe source size mode world).1 := by
  cases mode with
  | move =>
      have picks := stream.pipe_picks world.kernel valid
      have moved := Pipe.writePipe_queue (stream.pipe world.kernel).2.1 source size .move
        (stream.pipe world.kernel).2.2
      exact picks_extends stream _ _ _ _ _ _ picks
        (Pipe.writePipe_exact _ source size .move _ picks.chunk_valid).1 moved.1 moved.2
  | copy =>
      have picks := (stream.buffer_picks size world.heap valid).1
      have accepts := (BufferStream.writePipe_accepts _ picks.chunk_valid source size
        (requestable rfl) { world with heap := (stream.buffer size world.heap).2.2 }).1
      exact picks_extends stream _ _ _ _ _ _ picks accepts.valid accepts.unread_eq accepts.reports

/-! `empty()` asks the front chunk only, so it is right while only the last chunk can
have nothing to read. -/

def Gapless (chunks : List Chunk) : Prop := ∀ chunk ∈ chunks.dropLast, chunk.size ≠ 0

theorem empty_iff_of_gapless (stream : ChunkedStream) (gapless : Gapless stream.chunks) :
    stream.empty = true ↔ stream.size = 0 := by
  obtain ⟨chunks⟩ := stream
  cases chunks with
  | nil => simp [empty, size]
  | cons front rest =>
      simp only [empty, size, beq_iff_eq, List.map_cons, List.sum_cons]
      cases rest with
      | nil => simp
      | cons second others =>
          have pending : front.size ≠ 0 := gapless front (by simp)
          simp [pending]

theorem gapless_tail (front : Chunk) (rest : List Chunk) (gapless : Gapless (front :: rest)) :
    Gapless rest := by
  cases rest with
  | nil => exact fun _ member => absurd member List.not_mem_nil
  | cons second others => exact (List.forall_mem_cons.mp gapless).2

theorem gapless_cons (front : Chunk) (rest : List Chunk) (pending : front.size ≠ 0)
    (gapless : Gapless rest) : Gapless (front :: rest) := by
  cases rest with
  | nil => exact fun _ member => absurd member List.not_mem_nil
  | cons second others => exact List.forall_mem_cons.mpr ⟨pending, gapless⟩

theorem gapless_popped (front chunk : Chunk) (rest : List Chunk)
    (gapless : Gapless (front :: rest)) :
    Gapless (if chunk.size = 0 then rest else chunk :: rest) := by
  have others := gapless_tail front rest gapless
  by_cases drained : chunk.size = 0
  · rw [if_pos drained]
    exact others
  · rw [if_neg drained]
    exact gapless_cons chunk rest drained others

theorem readLoop_gapless {Sink : Type} (take : Take Sink)
    (sound : ∀ (chunk : Chunk) (size : Nat) (sink : Sink), chunk.Valid →
      chunk.Draws size (take chunk size sink).result.toNat (take chunk size sink).chunk)
    (rounds size result : Nat) (chunks : List Chunk) (sink : Sink) (valid : AllValid chunks)
    (gapless : Gapless chunks) :
    Gapless (readLoop take rounds chunks size result sink).chunks := by
  refine (readLoop_preserves take (fun chunks => AllValid chunks ∧ Gapless chunks) ?_ ?_
    rounds size result chunks sink ⟨valid, gapless⟩).2
  · rintro front rest size sink pending failed ⟨valid, gapless⟩
    obtain ⟨first, others⟩ := List.forall_mem_cons.mp valid
    have draws := sound front size sink first
    -- a failed read leaves the chunk as long as it was
    have same : (take front size sink).chunk.size = front.size := by
      rw [Chunk.size_eq_length _ draws.valid, front.size_eq_length first, draws.unread_eq,
        Int.toNat_of_nonpos (by omega), List.drop_zero]
    rw [← same] at pending
    exact ⟨List.forall_mem_cons.mpr ⟨draws.valid, others⟩,
      gapless_cons _ rest pending (gapless_tail front rest gapless)⟩
  · rintro front rest size sink _ ⟨valid, gapless⟩
    obtain ⟨first, others⟩ := List.forall_mem_cons.mp valid
    exact ⟨popped_valid _ rest (sound front size sink first).valid others,
      gapless_popped front _ rest gapless⟩

theorem gapless_append (before : List Chunk) (chunk : Chunk) :
    Gapless (before ++ [chunk]) ↔ ∀ earlier ∈ before, earlier.size ≠ 0 := by
  rw [Gapless, List.dropLast_concat]

/-- If the last chunk has nothing to read, then it is one the write will reuse. -/
def TailFits (chunks : List Chunk) (reusable : Chunk → Prop) : Prop :=
  ∀ tail, chunks.getLast? = some tail → tail.size = 0 → reusable tail

theorem tailFits_of_pending (chunks : List Chunk) (reusable : Chunk → Prop)
    (pending : chunks.getLast?.map Chunk.size ≠ some 0) : TailFits chunks reusable := by
  intro tail last drained
  rw [last, Option.map_some, drained] at pending
  exact absurd rfl pending

def BufferRoom : Chunk → Prop
  | .bufferStream stream => stream.size < stream.capacity
  | .pipe _ => False

def IsPipe : Chunk → Prop
  | .bufferStream _ => False
  | .pipe _ => True

theorem chunks_nonempty (chunks : List Chunk) (reusable : Chunk → Prop) (gapless : Gapless chunks)
    (fits : TailFits chunks reusable)
    (fresh : ∀ tail, chunks.getLast? = some tail → ¬ reusable tail) :
    ∀ chunk ∈ chunks, chunk.size ≠ 0 := by
  cases last : chunks.getLast? with
  | none =>
      rw [List.getLast?_eq_none_iff.mp last]
      exact fun _ member => absurd member List.not_mem_nil
  | some tail =>
      intro chunk member
      rw [← List.dropLast_append_getLast? tail last] at member
      rcases List.mem_append.mp member with earlier | final
      · exact gapless chunk earlier
      · rw [List.mem_singleton.mp final]
        exact fun drained => fresh tail last (fits tail last drained)

theorem buffer_nonempty (stream : ChunkedStream) (size : Nat) (heap : Heap)
    (gapless : Gapless stream.chunks) (fits : TailFits stream.chunks BufferRoom) :
    ∀ chunk ∈ (stream.buffer size heap).1, chunk.size ≠ 0 := by
  have appended := chunks_nonempty stream.chunks BufferRoom gapless fits
  simp only [buffer]
  split
  · rename_i tail last
    split
    · exact gapless
    · rename_i full
      apply appended
      intro other same
      rw [last, Option.some.injEq] at same
      rw [← same]
      exact full
  · rename_i other
    apply appended
    intro tail last roomy
    cases tail with
    | bufferStream stream => exact other stream last
    | pipe channel => exact roomy

theorem pipe_nonempty (stream : ChunkedStream) (kernel : Kernel)
    (gapless : Gapless stream.chunks) (fits : TailFits stream.chunks IsPipe) :
    ∀ chunk ∈ (stream.pipe kernel).1, chunk.size ≠ 0 := by
  simp only [pipe]
  split
  · exact gapless
  · rename_i other
    apply chunks_nonempty stream.chunks IsPipe gapless fits
    intro tail last reusable
    cases tail with
    | bufferStream stream => exact reusable
    | pipe channel => exact other channel last

theorem readByte_keeps (stream : ChunkedStream) (kernel : Kernel) (valid : AllValid stream.chunks)
    (gapless : Gapless stream.chunks) :
    AllValid (stream.readByte kernel).1.chunks ∧ Gapless (stream.readByte kernel).1.chunks := by
  obtain ⟨chunks⟩ := stream
  cases chunks with
  | nil => exact ⟨valid, gapless⟩
  | cons front rest =>
      obtain ⟨first, others⟩ := List.forall_mem_cons.mp valid
      have draws := front.readByte_draws first kernel
      by_cases nothing : front.size = 0
      · simp only [readByte, if_pos nothing]
        exact ⟨valid, gapless⟩
      · simp only [readByte, if_neg nothing]
        exact ⟨popped_valid _ rest draws.valid others, gapless_popped front _ rest gapless⟩

end ChunkedStream

end Xio
