import Xio.Runs
import Xio.ChunkedStream

/-!
Runs of a `ChunkedStream`: how many bytes it holds, and when `empty()` tells the
truth. Pipes given to `write` and memory or buffers given to `read` are arguments
of the step and are never chunks of the stream itself. A round of a read loop into
memory or into a descriptor takes at least one byte or is the last one, so
`size + 1` rounds are enough.
-/

namespace Xio.ChunkedRuns

open Storage MachineWord Environment Runs ChunkedStream

structure System where
  stream : ChunkedStream
  world : World

def start (world : World) : System := ⟨.create, world⟩

inductive TextOp where
  | writeChars (value : Object)
  | readChars (memory : Memory UInt8) (size : Nat)
  | readBuffer (result : Buffer) (size : Nat)

inductive BlockOp where
  | text (op : TextOp)
  | writeFd (size : Nat)
  | writePipe (source : Pipe) (size : Nat) (mode : Mode)
  | readFd (size : Nat)

inductive Op where
  | block (op : BlockOp)
  | readByte

/-- `bytes` are those given to a write, or left by a read in its sink. -/
inductive Event where
  | wrote (result : Int) (bytes : List UInt8)
  | read (returned : Bool) (result : Int) (bytes : List UInt8)
  deriving DecidableEq

namespace Event

/-! The positive return values, by direction. -/

def written : Event → Nat
  | .wrote result _ => result.toNat
  | .read .. => 0

def taken : Event → Nat
  | .wrote .. => 0
  | .read _ result _ => result.toNat

def Returned : Event → Prop
  | .wrote .. => True
  | .read returned _ _ => returned = true

end Event

def wrote (write : ChunkedStream.Write) (given : List UInt8) : System × Event :=
  (⟨write.stream, write.world⟩, .wrote write.result given)

def text : Machine System TextOp Event
  | ⟨stream, world⟩, .writeChars value => wrote (stream.writeChars value.1 world) value.1
  | ⟨stream, world⟩, .readChars memory size =>
      let loop := stream.readChars (size + 1) size ⟨memory, 0, world.kernel⟩
      (⟨⟨loop.chunks⟩, { world with kernel := loop.sink.kernel }⟩,
        .read loop.returned loop.result (load loop.sink.memory 0 loop.result.toNat))
  | ⟨stream, world⟩, .readBuffer result size =>
      let (loop, filled, heap) := stream.readBuffer (size + 1) result size world
      (⟨⟨loop.chunks⟩, ⟨heap, loop.sink.kernel⟩⟩,
        .read loop.returned loop.result (filled.content.drop result.size))

def block : Machine System BlockOp Event
  | system, .text op => text system op
  | ⟨stream, world⟩, .writeFd size =>
      let write := stream.writeFd size world
      wrote write write.bytes
  | ⟨stream, world⟩, .writePipe source size mode =>
      let write := (stream.writePipe source size mode world).1
      wrote write write.bytes
  | ⟨stream, world⟩, .readFd size =>
      let loop := stream.readFd (size + 1) size world.kernel
      (⟨⟨loop.chunks⟩, { world with kernel := loop.sink.kernel }⟩,
        .read loop.returned loop.result loop.sink.sent)

def step : Machine System Op Event
  | system, .block op => block system op
  | ⟨stream, world⟩, .readByte =>
      let (loop, bytes) := stream.readByte world.kernel
      (⟨⟨loop.chunks⟩, { world with kernel := loop.sink }⟩, .read loop.returned loop.result bytes)

/-! Accounting. -/

def Valid (system : System) : Prop := AllValid system.stream.chunks

def Small (_ : System) : BlockOp → Prop
  | .writePipe _ size mode => mode = .copy → size < addressSpace
  | _ => True

/-- Only the copying write adds the requested size to a buffer's size before anything
limits it. -/
def Requested (system : System) : BlockOp → Prop
  | .writePipe _ size mode => mode = .copy →
      (system.stream.buffer size system.world.heap).2.1.data.Requestable size
  | _ => True

theorem requested_of_small (system : System) (op : BlockOp) (valid : Valid system)
    (small : Small system op) : Requested system op := by
  cases op with
  | writePipe source size mode =>
      intro copying
      have picks := (system.stream.buffer_picks size system.world.heap valid).1
      exact Buffer.requestable_of_inMemory _ size picks.chunk_valid.data (small copying)
  | _ => trivial

def Balanced (system : System) (op : BlockOp) : Prop :=
  (block system op).2.taken + (block system op).1.stream.size =
    system.stream.size + (block system op).2.written

theorem size_eq_length (system : System) (valid : Valid system) :
    system.stream.size = (contents system.stream.chunks).length :=
  sum_eq_length system.stream.chunks valid

theorem extends_balanced (system : System) (write : ChunkedStream.Write)
    (valid : Valid system) (extended : Extends system.stream write) :
    0 + write.stream.size = system.stream.size + write.result.toNat := by
  rw [size_eq_length ⟨write.stream, write.world⟩ extended.valid, size_eq_length system valid]
  simp only [extended.contents_eq, List.length_append, extended.reports.toNat, Nat.zero_add]

theorem consumes_balanced (system : System) (size : Nat) (chunks : List Chunk) (result : Int)
    (valid : Valid system) (consumes : Consumes system.stream.chunks size 0 chunks result) :
    result.toNat + ChunkedStream.size ⟨chunks⟩ = system.stream.size + 0 := by
  obtain ⟨count, within, reported, gone⟩ := consumes.exact_count
  rw [size_eq_length ⟨⟨chunks⟩, system.world⟩ consumes.valid, size_eq_length system valid]
  simp only [reported, gone, List.length_drop]
  omega

theorem block_valid (system : System) (op : BlockOp) (valid : Valid system)
    (requested : Requested system op) : Valid (block system op).1 ∧ Balanced system op := by
  cases op with
  | text op =>
      cases op with
      | writeChars value =>
          have extended := (system.stream.writeChars_extends value.1 system.world value.2 valid).1
          exact ⟨extended.valid, extends_balanced system _ valid extended⟩
      | readChars memory size =>
          have consumes := readLoop_consumes _ Chunk.readChars_draws (size + 1) size 0
            system.stream.chunks ⟨memory, 0, system.world.kernel⟩ valid
          exact ⟨consumes.valid, consumes_balanced system size _ _ valid consumes⟩
      | readBuffer result size =>
          have consumes := fun sink => readLoop_consumes _ Chunk.readChars_draws (size + 1) size 0
            system.stream.chunks sink valid
          exact ⟨(consumes _).valid, consumes_balanced system size _ _ valid (consumes _)⟩
  | writeFd size =>
      have extended := system.stream.writeFd_extends size system.world valid
      exact ⟨extended.valid, extends_balanced system _ valid extended⟩
  | writePipe source size mode =>
      have extended := system.stream.writePipe_extends source size mode system.world valid requested
      exact ⟨extended.valid, extends_balanced system _ valid extended⟩
  | readFd size =>
      have consumes := readLoop_consumes _ Chunk.readFd_draws (size + 1) size 0
        system.stream.chunks ⟨[], system.world.kernel⟩ valid
      exact ⟨consumes.valid, consumes_balanced system size _ _ valid consumes⟩

theorem block_returned (system : System) (op : BlockOp) (valid : Valid system) :
    (block system op).2.Returned := by
  cases op with
  | text op =>
      cases op with
      | writeChars value => trivial
      | readChars memory size =>
          exact readLoop_returns _ Chunk.readChars_draws Chunk.readChars_advances _ _ _ _ _ valid
            (Nat.lt_succ_self size)
      | readBuffer result size =>
          exact readLoop_returns _ Chunk.readChars_draws Chunk.readChars_advances _ _ _ _ _ valid
            (Nat.lt_succ_self size)
  | writeFd size => trivial
  | writePipe source size mode => trivial
  | readFd size =>
      exact readLoop_returns _ Chunk.readFd_draws Chunk.readFd_advances _ _ _ _ _ valid
        (Nat.lt_succ_self size)

theorem start_valid (world : World) : Valid (start world) :=
  fun _ member => absurd member List.not_mem_nil

/-- Bytes are neither made nor lost: what the reads report, with what is still held,
is what the writes report. Every read returns, every step reports what it changed, and
no chunk's size underflows. -/
theorem size_accounts_for_results (world : World) (ops : List BlockOp)
    (small : Along block Small (start world) ops) :
    total (· + ·) 0 Event.taken (outputs block (start world) ops) +
        (final block (start world) ops).stream.size =
        total (· + ·) 0 Event.written (outputs block (start world) ops) ∧
      Along block (fun system op => (block system op).2.Returned ∧ Balanced system op)
        (start world) ops ∧
      Always block Valid (start world) ops := by
  have sound : ∀ system op, Valid system → Small system op →
      Valid (block system op).1 ∧ Balanced system op :=
    fun system op valid guarded =>
      block_valid system op valid (requested_of_small system op valid guarded)
  have kept : ∀ system op, Valid system → Small system op → Valid (block system op).1 :=
    fun system op valid guarded => (sound system op valid guarded).1
  refine ⟨?_, ?_, always_of_along block Small Valid kept _ ops (start_valid world) small⟩
  · have ledger := conserved (· + ·) 0 block Small Valid (fun system => system.stream.size)
      Event.taken Event.written kept
      (fun system op valid guarded => (sound system op valid guarded).2)
      _ ops (start_valid world) small
    exact ledger.trans (Nat.zero_add _)
  · apply along_of_along block Small Valid _ kept _ _ ops (start_valid world) small
    intro system op valid guarded
    exact ⟨block_returned system op valid, (sound system op valid guarded).2⟩

-- Two buffered bytes, four spliced ones, and reads that end in either kind of chunk.
theorem size_accounts_for_results_mixed :
    let world : World := ⟨.generous, .willing⟩
    let ops : List BlockOp := [.text (.writeChars ⟨[1, 2], by decide⟩), .writeFd 4,
      .writePipe ⟨true, 2, [5, 6]⟩ 1 .copy, .text (.readChars (fun _ => 0) 1),
      .text (.readBuffer .empty 3), .readFd 1]
    total (· + ·) 0 Event.taken (outputs block (start world) ops) +
        (final block (start world) ops).stream.size =
        total (· + ·) 0 Event.written (outputs block (start world) ops) ∧
      total (· + ·) 0 Event.written (outputs block (start world) ops) = 7 ∧
      (final block (start world) ops).stream.size = 2 := by
  intro world ops
  have small : Along block Small (start world) ops :=
    ⟨trivial, trivial, fun _ => by decide, trivial, trivial, trivial, trivial⟩
  exact ⟨(size_accounts_for_results world ops small).1, by decide, by decide⟩

/-! `empty()` over runs. -/

def EmptyExact (system : System) : Prop :=
  system.stream.empty = true ↔ system.stream.size = 0

def Fitting (system : System) : Op → Prop
  | .block (.text (.writeChars _)) => TailFits system.stream.chunks BufferRoom
  | .block (.writeFd _) => TailFits system.stream.chunks IsPipe
  | .block (.writePipe _ _ .move) => TailFits system.stream.chunks IsPipe
  | .block (.writePipe source size .copy) =>
      TailFits system.stream.chunks BufferRoom ∧ Requested system (.writePipe source size .copy)
  | _ => True

structure Compact (system : System) : Prop where
  valid : Valid system
  gapless : Gapless system.stream.chunks

theorem step_compact (system : System) (op : Op) (compact : Compact system)
    (fitting : Fitting system op) : Compact (step system op).1 := by
  obtain ⟨valid, gapless⟩ := compact
  cases op with
  | readByte =>
      have keeps := system.stream.readByte_keeps system.world.kernel valid gapless
      exact ⟨keeps.1, keeps.2⟩
  | block op =>
      cases op with
      | text op =>
          refine ⟨(block_valid system (.text op) valid trivial).1, ?_⟩
          cases op with
          | writeChars value =>
              exact (gapless_append _ _).mpr
                (system.stream.buffer_nonempty _ system.world.heap gapless fitting)
          | readChars memory size =>
              exact readLoop_gapless _ Chunk.readChars_draws _ _ _ _ _ valid gapless
          | readBuffer result size =>
              exact readLoop_gapless _ Chunk.readChars_draws _ _ _ _ _ valid gapless
      | writeFd size =>
          exact ⟨(block_valid system (.writeFd size) valid trivial).1, (gapless_append _ _).mpr
            (system.stream.pipe_nonempty system.world.kernel gapless fitting)⟩
      | writePipe source size mode =>
          cases mode with
          | move =>
              have moving : Requested system (.writePipe source size .move) :=
                fun copying => by cases copying
              exact ⟨(block_valid system _ valid moving).1, (gapless_append _ _).mpr
                (system.stream.pipe_nonempty system.world.kernel gapless fitting)⟩
          | copy =>
              exact ⟨(block_valid system _ valid fitting.2).1,
                (gapless_append _ _).mpr
                  (system.stream.buffer_nonempty size system.world.heap gapless fitting.1)⟩
      | readFd size =>
          exact ⟨(block_valid system (.readFd size) valid trivial).1,
            readLoop_gapless _ Chunk.readFd_draws _ _ _ _ _ valid gapless⟩

/-- While every write finds a chunk to fill or a non-empty one to stand behind,
`empty()` holds exactly when there is nothing to read. -/
theorem empty_exact_of_fitting (world : World) (ops : List Op)
    (fitting : Along step Fitting (start world) ops) :
    Always step EmptyExact (start world) ops := by
  have compact : Compact (start world) :=
    ⟨start_valid world, fun _ member => absurd member List.not_mem_nil⟩
  have always := always_of_along step Fitting Compact step_compact _ ops compact fitting
  apply always_mono step Compact EmptyExact _ _ ops always
  intro system reached
  exact empty_iff_of_gapless system.stream reached.gapless

theorem empty_exact_of_fitting_mixed :
    let world : World := ⟨.generous, .willing⟩
    let ops : List Op := [.block (.text (.writeChars ⟨[1, 2, 3], by decide⟩)), .readByte,
      .block (.writeFd 2), .block (.readFd 4), .block (.writePipe ⟨true, 1, [7]⟩ 1 .move)]
    Always step EmptyExact (start world) ops ∧ (final step (start world) ops).stream.size = 1 := by
  intro world ops
  have fitting : Along step Fitting (start world) ops :=
    ⟨tailFits_of_pending _ _ (by decide), trivial, tailFits_of_pending _ _ (by decide), trivial,
      tailFits_of_pending _ _ (by decide), trivial⟩
  exact ⟨empty_exact_of_fitting world ops fitting, by decide⟩

/-- A zero-length write leaves a chunk without capacity, and the next write opens another
one behind it: three bytes are held, the stream calls itself empty and reads get nothing. -/
theorem empty_over_bytes :
    let world : World := ⟨.generous, .willing⟩
    let system := final step (start world) [.block (.text (.writeChars ⟨[], by decide⟩)),
      .block (.text (.writeChars ⟨[97, 98, 99], by decide⟩))]
    system.stream.empty = true ∧ system.stream.size = 3 ∧
      (step system (.block (.text (.readChars (fun _ => 0) 3)))).2 = .read true 0 [] := by
  decide

end Xio.ChunkedRuns
