import Xio.Buffer

/-!
`lib/Pipe.cpp` and the two `Socket` operations of `lib/Socket.cpp` that reach a
pipe's descriptors. The kernel's side of a pipe is a byte queue; `size` is the
counter the class keeps for it. Every pipe has its own queue, and the kernel
refuses to splice or tee a pipe into itself. A pipe whose `pipe2` failed has no
descriptors: all calls on it fail. The counter cannot overflow, since a kernel
pipe holds far less than 2^64 bytes, but nothing rules out that it underflows.
-/

namespace Xio

open Storage MachineWord Environment

inductive Mode where
  | copy
  | move
  deriving DecidableEq

structure Pipe where
  isOpen : Bool
  size : Nat
  queue : List UInt8
  deriving DecidableEq

structure Moved where
  result : Int
  bytes : List UInt8
  pipe : Pipe
  kernel : Kernel

namespace Pipe

def create (kernel : Kernel) : Pipe × Kernel :=
  (⟨(kernel.answers kernel.calls).isSome, 0, []⟩, kernel.next)

def isEmpty (pipe : Pipe) : Bool := pipe.size == 0

def offered (pipe : Pipe) (kernel : Kernel) (available : Nat) : Option Nat :=
  if pipe.isOpen then kernel.transfer available else none

-- `read` and `splice` from the read end, followed by `size_ -= rv`.
def moveOut (pipe : Pipe) (size : Nat) (kernel : Kernel) : Moved :=
  match pipe.offered kernel (min size pipe.queue.length) with
  | none => ⟨-1, [], pipe, kernel.next⟩
  | some n =>
      ⟨n, pipe.queue.take n,
        { pipe with size := sub pipe.size n, queue := pipe.queue.drop n }, kernel.next⟩

def readChars (pipe : Pipe) (size : Nat) (kernel : Kernel) : Moved := pipe.moveOut size kernel

def readFd (pipe : Pipe) (size : Nat) (kernel : Kernel) : Moved := pipe.moveOut size kernel

-- What arrives at the write end, followed by `size_ += rv`.
def moveIn (pipe : Pipe) (arrived : Option (List UInt8)) (kernel : Kernel) : Moved :=
  match arrived with
  | none => ⟨-1, [], pipe, kernel.next⟩
  | some bytes =>
      ⟨bytes.length, bytes,
        { pipe with size := pipe.size + bytes.length, queue := pipe.queue ++ bytes }, kernel.next⟩

def writeChars (pipe : Pipe) (value : List UInt8) (kernel : Kernel) : Moved :=
  pipe.moveIn ((pipe.offered kernel value.length).map value.take) kernel

def writeFd (pipe : Pipe) (size : Nat) (kernel : Kernel) : Moved :=
  pipe.moveIn (if pipe.isOpen then kernel.receive size else none) kernel

-- EINVAL before any system call unless the mode is MOVE.
def writeSocket (pipe : Pipe) (size : Nat) (mode : Mode) (kernel : Kernel) : Moved :=
  match mode with
  | .move => pipe.moveIn (if pipe.isOpen then kernel.receive size else none) kernel
  | .copy => ⟨-1, [], pipe, kernel⟩

/-- `write(Pipe*)` to a different pipe. MOVE asks for the whole source, whatever the
requested size; COPY tees and leaves the source as it is. -/
def writePipe (pipe source : Pipe) (size : Nat) (mode : Mode) (kernel : Kernel) : Moved × Pipe :=
  let offer := fun available =>
    if source.isOpen then pipe.offered kernel available else none
  match mode with
  | .move =>
      match offer (min source.size source.queue.length) with
      | none => (⟨-1, [], pipe, kernel.next⟩, source)
      | some n =>
          (pipe.moveIn (some (source.queue.take n)) kernel,
            { source with size := sub source.size n, queue := source.queue.drop n })
  | .copy =>
      (pipe.moveIn ((offer (min size source.queue.length)).map source.queue.take) kernel, source)

-- `Pipe::read(Socket*)` and `Pipe::read(Pipe*)` are not implemented and return 0.
def readSocket (pipe : Pipe) (_ : Nat) (kernel : Kernel) : Moved := ⟨0, [], pipe, kernel⟩
def readPipe (pipe : Pipe) (_ : Nat) (kernel : Kernel) : Moved := ⟨0, [], pipe, kernel⟩

-- The promotion of a signed 8-bit `char` to `int`.
def promoted (byte : UInt8) : Int := if byte.toNat < 128 then byte.toNat else byte.toNat - 256

def readByte (pipe : Pipe) (kernel : Kernel) : Moved :=
  if pipe.size = 0 then ⟨-1, [], pipe, kernel⟩
  else
    let moved := pipe.readChars 1 kernel
    { moved with
      result := if moved.result = 1 then promoted (moved.bytes.headD 0) else -1 }

structure ReadBuffer where
  result : Int
  pipe : Pipe
  buffer : Buffer
  world : World

-- Room for the next read: `size() * 1.5` is exact as a double for any size in memory.
def readRoom (buffer : Buffer) (heap : Heap) : Reserved .mutableEnsure :=
  if sub buffer.capacity buffer.size < 256 then
    buffer.reserve (max 4096 (buffer.size * 3 / 2)) heap
  else ⟨true, buffer, heap⟩

/-- The loop of `read(Buffer&, size)`. Each round takes at least one byte or returns,
so `size` rounds are enough. The counter `size_` is not touched. -/
def readBufferLoop : Nat → Nat → Nat → Pipe → Buffer → World → ReadBuffer
  | 0, _, nread, pipe, buffer, world => ⟨nread, pipe, buffer, world⟩
  | rounds + 1, size, nread, pipe, buffer, world =>
      if size = 0 then ⟨nread, pipe, buffer, world⟩
      else
        let room := readRoom buffer world.heap
        let failed : Int := if nread = 0 then -1 else nread
        if !room.ok then ⟨failed, pipe, room.buffer, ⟨room.heap, world.kernel⟩⟩
        else
          let nbytes := min (sub room.buffer.capacity room.buffer.size) size
          let after : World := ⟨room.heap, world.kernel.next⟩
          match pipe.offered world.kernel (min nbytes pipe.queue.length) with
          | none => ⟨failed, pipe, room.buffer, after⟩
          | some rv =>
              if rv = 0 then ⟨nread, pipe, room.buffer, after⟩
              else
                let taken := { pipe with queue := pipe.queue.drop rv }
                let filled := { room.buffer with
                  bytes := store room.buffer.bytes room.buffer.size (pipe.queue.take rv) }
                let grown := (filled.resize (add filled.size rv)).2
                if rv < nbytes then ⟨(nread + rv : Nat), taken, grown, after⟩
                else readBufferLoop rounds (sub size rv) (nread + rv) taken grown after

def readBuffer (pipe : Pipe) (result : Buffer) (size : Nat) (world : World) : ReadBuffer :=
  readBufferLoop size size 0 pipe result world

-- The bytes the first `::read` of that loop delivers, if it gets that far.
def firstRead (pipe : Pipe) (buffer : Buffer) (size : Nat) (world : World) : Nat :=
  let room := readRoom buffer world.heap
  if size = 0 ∨ room.ok = false then 0
  else (pipe.offered world.kernel (min (min (sub room.buffer.capacity room.buffer.size) size)
    pipe.queue.length)).getD 0

-- The loop of `clear`: failed reads are retried.
def clearLoop : Nat → Pipe → Kernel → Pipe × Kernel
  | 0, pipe, kernel => (pipe, kernel)
  | rounds + 1, pipe, kernel =>
      if pipe.size = 0 then (pipe, kernel)
      else
        let moved := pipe.moveOut (min pipe.size 4096) kernel
        clearLoop rounds moved.pipe moved.kernel

end Pipe

namespace Socket

def readPipe (pipe : Pipe) (size : Nat) (kernel : Kernel) : Moved :=
  pipe.writeSocket size .move kernel

/-- `Socket::write(Pipe*)` splices from the pipe's read end behind the back of `size_`.
The mode only selects flags. -/
def writePipe (pipe : Pipe) (size : Nat) (_ : Mode) (kernel : Kernel) : Moved :=
  match pipe.offered kernel (min size pipe.queue.length) with
  | none => ⟨-1, [], pipe, kernel.next⟩
  | some n => ⟨n, pipe.queue.take n, { pipe with queue := pipe.queue.drop n }, kernel.next⟩

end Socket

/-! The counter is exact when it is the length of the queue. A pipe without
descriptors never holds anything. -/

structure Pipe.Exact (pipe : Pipe) : Prop where
  counted : pipe.size = pipe.queue.length
  closed : pipe.isOpen = false → pipe.queue = []

namespace Pipe

theorem offered_le (pipe : Pipe) (kernel : Kernel) (available n : Nat)
    (moved : pipe.offered kernel available = some n) :
    n ≤ available ∧ (0 < available → 0 < n) ∧ pipe.isOpen = true := by
  simp only [offered] at moved
  split at moved
  · rename_i opened
    exact ⟨kernel.transfer_le available n moved,
      fun some_bytes => kernel.transfer_pos available n some_bytes moved, opened⟩
  · cases moved

theorem moveOut_cases (pipe : Pipe) (size : Nat) (kernel : Kernel) :
    (pipe.moveOut size kernel = ⟨-1, [], pipe, kernel.next⟩) ∨
      ∃ n, n ≤ min size pipe.queue.length ∧ (0 < min size pipe.queue.length → 0 < n) ∧
        pipe.moveOut size kernel = ⟨n, pipe.queue.take n,
          { pipe with size := sub pipe.size n, queue := pipe.queue.drop n }, kernel.next⟩ := by
  simp only [moveOut]
  cases offer : pipe.offered kernel (min size pipe.queue.length) with
  | none => exact Or.inl rfl
  | some n =>
      obtain ⟨limit, progress, _⟩ := offered_le pipe kernel _ n offer
      exact Or.inr ⟨n, limit, progress, rfl⟩

theorem moveOut_reports (pipe : Pipe) (size : Nat) (kernel : Kernel) :
    Reports (pipe.moveOut size kernel).result (pipe.moveOut size kernel).bytes ∧
      (pipe.moveOut size kernel).bytes.length ≤ size := by
  rcases moveOut_cases pipe size kernel with failed | ⟨n, limit, _, moved⟩
  · rw [failed]
    exact ⟨Or.inr ⟨rfl, rfl⟩, Nat.zero_le _⟩
  · have taken : (pipe.queue.take n).length = n := by
      rw [List.length_take]
      omega
    rw [moved]
    exact ⟨Or.inl (by rw [taken]), by rw [taken]; omega⟩

theorem moveIn_reports (pipe : Pipe) (arrived : Option (List UInt8)) (kernel : Kernel) :
    Reports (pipe.moveIn arrived kernel).result (pipe.moveIn arrived kernel).bytes := by
  cases arrived with
  | none => exact Or.inr ⟨rfl, rfl⟩
  | some bytes => exact Or.inl rfl

theorem moveIn_queue (pipe : Pipe) (arrived : Option (List UInt8)) (kernel : Kernel) :
    (pipe.moveIn arrived kernel).pipe.queue = pipe.queue ++ (pipe.moveIn arrived kernel).bytes := by
  cases arrived with
  | none => exact (List.append_nil _).symm
  | some bytes => rfl

theorem writeChars_bytes (pipe : Pipe) (value : List UInt8) (kernel : Kernel) :
    ∃ n, n ≤ value.length ∧ (pipe.writeChars value kernel).bytes = value.take n := by
  simp only [writeChars]
  cases offer : pipe.offered kernel value.length with
  | none => exact ⟨0, Nat.zero_le _, rfl⟩
  | some n => exact ⟨n, (offered_le pipe kernel _ n offer).1, rfl⟩

theorem moveOut_answered (pipe : Pipe) (size : Nat) (kernel : Kernel) (opened : pipe.isOpen = true)
    (answered : (kernel.answers kernel.calls).isSome = true) :
    (pipe.moveOut size kernel).result ≠ -1 := by
  obtain ⟨wanted, answer⟩ := Option.isSome_iff_exists.mp answered
  simp only [moveOut, offered, opened, Kernel.transfer, answer, ↓reduceIte, Option.map_some]
  omega

theorem taken_exact (pipe : Pipe) (n : Nat) (within : n ≤ pipe.queue.length)
    (exact_pipe : pipe.Exact) :
    Pipe.Exact { pipe with size := sub pipe.size n, queue := pipe.queue.drop n } := by
  have counted := exact_pipe.counted
  constructor
  · rw [List.length_drop, sub_exact (by omega), counted]
  · intro closed
    simp only [exact_pipe.closed closed, List.drop_nil]

theorem moveOut_exact (pipe : Pipe) (size : Nat) (kernel : Kernel) (exact_pipe : pipe.Exact) :
    (pipe.moveOut size kernel).pipe.Exact := by
  rcases moveOut_cases pipe size kernel with failed | ⟨n, limit, _, moved⟩
  · rw [failed]
    exact exact_pipe
  · rw [moved]
    exact taken_exact pipe n (by omega) exact_pipe

theorem moveIn_exact (pipe : Pipe) (arrived : Option (List UInt8)) (kernel : Kernel)
    (exact_pipe : pipe.Exact) (opened : ∀ bytes, arrived = some bytes → pipe.isOpen = true) :
    (pipe.moveIn arrived kernel).pipe.Exact := by
  cases arrived with
  | none => exact exact_pipe
  | some bytes =>
      constructor
      · simp [moveIn, exact_pipe.counted]
      · intro closed
        have isOpen := opened bytes rfl
        simp only [moveIn] at closed
        rw [isOpen] at closed
        cases closed

theorem create_exact (kernel : Kernel) : (create kernel).1.Exact :=
  ⟨rfl, fun _ => rfl⟩

theorem writeChars_exact (pipe : Pipe) (value : List UInt8) (kernel : Kernel)
    (exact_pipe : pipe.Exact) : (pipe.writeChars value kernel).pipe.Exact := by
  apply moveIn_exact pipe _ kernel exact_pipe
  intro bytes arrived
  obtain ⟨n, offer, _⟩ := Option.map_eq_some_iff.mp arrived
  exact (offered_le pipe kernel _ n offer).2.2

-- Splicing from a descriptor outside the model, for `write(int)` and `write(Socket*)`.
theorem receive_exact (pipe : Pipe) (size : Nat) (kernel : Kernel) (exact_pipe : pipe.Exact) :
    (pipe.moveIn (if pipe.isOpen then kernel.receive size else none) kernel).pipe.Exact := by
  apply moveIn_exact pipe _ kernel exact_pipe
  intro bytes arrived
  split at arrived
  · assumption
  · cases arrived

theorem writeSocket_exact (pipe : Pipe) (size : Nat) (mode : Mode) (kernel : Kernel)
    (exact_pipe : pipe.Exact) : (pipe.writeSocket size mode kernel).pipe.Exact := by
  cases mode with
  | move => exact receive_exact pipe size kernel exact_pipe
  | copy => exact exact_pipe

theorem writePipe_exact (pipe source : Pipe) (size : Nat) (mode : Mode) (kernel : Kernel)
    (exact_pipe : pipe.Exact) :
    (pipe.writePipe source size mode kernel).1.pipe.Exact ∧
      (source.Exact → (pipe.writePipe source size mode kernel).2.Exact) := by
  cases mode with
  | move =>
      simp only [writePipe]
      split
      · exact ⟨exact_pipe, id⟩
      · rename_i n offer
        split at offer
        · obtain ⟨limit, _, opened⟩ := offered_le pipe kernel _ n offer
          exact ⟨moveIn_exact pipe _ kernel exact_pipe fun _ _ => opened,
            taken_exact source n (by omega)⟩
        · cases offer
  | copy =>
      refine ⟨moveIn_exact pipe _ kernel exact_pipe ?_, id⟩
      intro bytes arrived
      obtain ⟨n, offer, _⟩ := Option.map_eq_some_iff.mp arrived
      split at offer
      · exact (offered_le pipe kernel _ n offer).2.2
      · cases offer

theorem writePipe_queue (pipe source : Pipe) (size : Nat) (mode : Mode) (kernel : Kernel) :
    (pipe.writePipe source size mode kernel).1.pipe.queue =
        pipe.queue ++ (pipe.writePipe source size mode kernel).1.bytes ∧
      Reports (pipe.writePipe source size mode kernel).1.result
        (pipe.writePipe source size mode kernel).1.bytes := by
  cases mode with
  | move =>
      simp only [writePipe]
      split
      · exact ⟨(List.append_nil _).symm, Or.inr ⟨rfl, rfl⟩⟩
      · exact ⟨moveIn_queue _ _ _, moveIn_reports _ _ _⟩
  | copy => exact ⟨moveIn_queue _ _ _, moveIn_reports _ _ _⟩

theorem readByte_exact (pipe : Pipe) (kernel : Kernel) (exact_pipe : pipe.Exact) :
    (pipe.readByte kernel).pipe.Exact := by
  have moved := moveOut_exact pipe 1 kernel exact_pipe
  simp only [readByte, readChars]
  split
  · exact exact_pipe
  · exact moved

theorem readBufferLoop_pipe (rounds size nread : Nat) (pipe : Pipe) (buffer : Buffer)
    (world : World) :
    (readBufferLoop rounds size nread pipe buffer world).pipe.size = pipe.size ∧
      (readBufferLoop rounds size nread pipe buffer world).pipe.isOpen = pipe.isOpen ∧
      (readBufferLoop rounds size nread pipe buffer world).pipe.queue.length ≤
        pipe.queue.length := by
  induction rounds generalizing size nread pipe buffer world with
  | zero => exact ⟨rfl, rfl, Nat.le_refl _⟩
  | succ rounds ih =>
      simp only [readBufferLoop]
      split
      · exact ⟨rfl, rfl, Nat.le_refl _⟩
      split
      · exact ⟨rfl, rfl, Nat.le_refl _⟩
      split
      · exact ⟨rfl, rfl, Nat.le_refl _⟩
      rename_i rv _
      have shorter : (pipe.queue.drop rv).length ≤ pipe.queue.length := by
        simp [List.length_drop]
      split
      · exact ⟨rfl, rfl, Nat.le_refl _⟩
      split
      · exact ⟨rfl, rfl, shorter⟩
      · obtain ⟨sized, opened, rest⟩ := ih (sub size rv) (nread + rv)
          { pipe with queue := pipe.queue.drop rv } _ _
        exact ⟨sized, opened, Nat.le_trans rest shorter⟩

theorem readBuffer_idle (pipe : Pipe) (buffer : Buffer) (size : Nat) (world : World)
    (idle : pipe.firstRead buffer size world = 0) :
    (pipe.readBuffer buffer size world).pipe = pipe := by
  cases size with
  | zero => rfl
  | succ size =>
      simp only [firstRead, Nat.succ_ne_zero, false_or] at idle
      simp only [readBuffer, readBufferLoop, Nat.succ_ne_zero, ↓reduceIte]
      split
      · rfl
      rename_i granted
      simp only [Bool.not_eq_true, Bool.not_eq_false'] at granted
      simp only [granted, Bool.true_eq_false, ↓reduceIte] at idle
      split
      · rfl
      rename_i rv offer
      rw [offer, Option.getD_some] at idle
      simp only [idle, ↓reduceIte]

theorem readBuffer_leaks (pipe : Pipe) (buffer : Buffer) (size : Nat) (world : World)
    (leaking : pipe.firstRead buffer size world ≠ 0) :
    (pipe.readBuffer buffer size world).pipe.queue.length < pipe.queue.length := by
  cases size with
  | zero => simp [firstRead] at leaking
  | succ size =>
      simp only [firstRead, Nat.succ_ne_zero, false_or] at leaking
      simp only [readBuffer, readBufferLoop, Nat.succ_ne_zero, ↓reduceIte]
      split
      · rename_i denied
        simp only [Bool.not_eq_eq_eq_not, Bool.not_true] at denied
        simp [denied] at leaking
      rename_i granted
      simp only [Bool.not_eq_true, Bool.not_eq_false'] at granted
      simp only [granted, Bool.true_eq_false, ↓reduceIte] at leaking
      split
      · rename_i offer
        rw [offer] at leaking
        exact absurd rfl leaking
      rename_i rv offer
      rw [offer, Option.getD_some] at leaking
      have limit := (offered_le pipe world.kernel _ rv offer).1
      have shorter : (pipe.queue.drop rv).length < pipe.queue.length := by
        rw [List.length_drop]
        omega
      simp only [leaking, ↓reduceIte]
      split
      · exact shorter
      · exact Nat.lt_of_le_of_lt (readBufferLoop_pipe _ _ _ _ _ _).2.2 shorter

end Pipe

end Xio
