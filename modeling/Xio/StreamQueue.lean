import Xio.Ownership

/-!
`BufferStream` against a plain byte queue. The queue knows nothing of offsets,
capacities or the allocator; both sides face the same kernel script. Pipes that
are read from or written to, and buffers that are read into, are arguments of the
step, so a run says nothing about how they came to be. A stream that has given its
storage back still points to it; what is said here is said of runs that stay clear of
that, and of the shortest one that does not.
-/

namespace Xio.StreamQueue

open Storage MachineWord Environment Runs

structure System where
  stream : BufferStream
  world : World

def start (capacity : Nat) (world : World) : System :=
  let created := BufferStream.create capacity world.heap
  ⟨created.1, { world with heap := created.2 }⟩

inductive QueueOp where
  | writeChars (value : Object)
  | writeFd (size : Nat)
  | writePipe (source : Pipe) (size : Nat)
  | readChars (size : Nat)
  | readBuffer (result : SoundBuffer) (size : Nat)
  | readByte
  | shift (size : Nat)

/-- `accepted` went in at the back and `delivered` came off the front; what `shift`
skips counts as delivered, though to nobody. -/
structure Event where
  result : Int
  accepted : List UInt8
  delivered : List UInt8
  deriving DecidableEq

def write (write : BufferStream.Write) : System × Event :=
  (⟨write.stream, write.world⟩, ⟨write.result, write.bytes, []⟩)

def read (read : BufferStream.Read) (world : World) : System × Event :=
  (⟨read.stream, world⟩, ⟨read.result, [], read.bytes⟩)

def step : Machine System QueueOp Event
  | ⟨stream, world⟩, .writeChars value => write (stream.writeChars value.1 world)
  | ⟨stream, world⟩, .writeFd size => write (stream.writeFd size world)
  | ⟨stream, world⟩, .writePipe source size => write (stream.writePipe source size world).1
  | ⟨stream, world⟩, .readChars size => read (stream.readChars size) world
  | ⟨stream, world⟩, .readBuffer result size =>
      let taken := stream.readBuffer result.1 size world.heap
      read taken.1 { world with heap := taken.2.2 }
  | ⟨stream, world⟩, .readByte => read stream.readByte world
  | ⟨stream, world⟩, .shift size => (⟨stream.shift size, world⟩, ⟨0, [], stream.unread.take size⟩)

def QueueOp.size : QueueOp → Nat
  | .writeFd size => size
  | .writePipe _ size => size
  | .readChars size => size
  | .readBuffer _ size => size
  | .shift size => size
  | .writeChars _ => 0
  | .readByte => 0

/-- The step frees no storage that a later one would go on using: a write from a
descriptor or a pipe makes room for some bytes unless there is no storage, and the
buffer that is read into has not given its own back. -/
def Keeps (system : System) : QueueOp → Prop
  | .writeFd size => system.stream.KeepsStorage size
  | .writePipe _ size => system.stream.KeepsStorage size
  | .readBuffer result _ => result.1.Anchored
  | _ => True

/-- Requests are below 2^62, the allocator has refused nothing so far, and the storage of
the stream is kept. -/
structure Granted (system : System) (op : QueueOp) : Prop where
  small : op.size < addressSpace
  unrefused : (step system op).1.world.heap.Unrefused
  keeps : Keeps system op

/-! The abstract side. -/

structure Queue where
  held : List UInt8
  kernel : Kernel

namespace Queue

def receive (queue : Queue) (result : Int) (bytes : List UInt8) (kernel : Kernel) : Queue × Event :=
  (⟨queue.held ++ bytes, kernel⟩, ⟨result, bytes, []⟩)

def drop (queue : Queue) (size : Nat) (result : Int) : Queue × Event :=
  ({ queue with held := queue.held.drop size }, ⟨result, [], queue.held.take size⟩)

def step : Machine Queue QueueOp Event
  | queue, .writeChars value => queue.receive value.1.length value.1 queue.kernel
  | queue, .writeFd size =>
      match queue.kernel.receive size with
      | none => queue.receive (-1) [] queue.kernel.next
      | some bytes => queue.receive bytes.length bytes queue.kernel.next
  | queue, .writePipe source size =>
      let moved := source.readChars size queue.kernel
      queue.receive moved.result moved.bytes moved.kernel
  | queue, .readChars size => queue.drop size (queue.held.take size).length
  | queue, .readBuffer _ size => queue.drop size (queue.held.take size).length
  | queue, .readByte => queue.drop 1 ((queue.held.head?.map Pipe.promoted).getD (-1))
  | queue, .shift size => queue.drop size 0

end Queue

structure Represents (system : System) (queue : Queue) : Prop where
  valid : system.stream.Valid
  held_eq : system.stream.unread = queue.held
  kernel_eq : system.world.kernel = queue.kernel

theorem represents_start (capacity : Nat) (world : World) :
    Represents (start capacity world) ⟨[], world.kernel⟩ := by
  obtain ⟨valid, nothing, _⟩ := BufferStream.create_valid capacity world.heap
  exact ⟨valid, nothing, rfl⟩

theorem write_represents (stream : BufferStream) (heap : Heap) (queue : Queue)
    (taken : BufferStream.Write) (kernel : Kernel) (held : stream.unread = queue.held)
    (accepts : stream.Accepts heap taken) (answered : taken.world.kernel = kernel) :
    Represents (write taken).1 (queue.receive taken.result taken.bytes kernel).1 ∧
      (write taken).2 = (queue.receive taken.result taken.bytes kernel).2 := by
  refine ⟨⟨accepts.valid, ?_, answered⟩, rfl⟩
  rw [Queue.receive, ← held]
  exact accepts.unread_eq

theorem read_represents (stream : BufferStream) (world : World) (queue : Queue)
    (taken : BufferStream.Read) (size : Nat) (held : stream.unread = queue.held)
    (same : world.kernel = queue.kernel) (delivers : stream.Delivers size taken) :
    Represents (read taken world).1 (queue.drop size (queue.held.take size).length).1 ∧
      (read taken world).2 = (queue.drop size (queue.held.take size).length).2 := by
  have bytes := delivers.bytes_eq
  have result := delivers.counted
  rw [bytes] at result
  refine ⟨⟨delivers.valid, ?_, same⟩, ?_⟩
  · rw [Queue.drop, ← held]
    exact delivers.unread_eq
  · simp only [read, Queue.drop, bytes, result, held]

theorem step_represents (system : System) (queue : Queue) (op : QueueOp)
    (represents : Represents system queue) (granted : Granted system op) :
    Represents (step system op).1 (Queue.step queue op).1 ∧
      (step system op).2 = (Queue.step queue op).2 := by
  obtain ⟨valid, held, kernel⟩ := represents
  obtain ⟨small, unrefused, _⟩ := granted
  have requestable := Buffer.requestable_of_inMemory system.stream.data op.size valid.data small
  cases op with
  | writeChars value =>
      obtain ⟨accepts, whole⟩ := system.stream.writeChars_accepts valid value.1 value.2 system.world
      obtain ⟨bytes, result⟩ := whole unrefused
      have matched := write_represents system.stream _ queue _ queue.kernel held accepts kernel
      rw [bytes, result] at matched
      exact matched
  | writeFd size =>
      obtain ⟨accepts, answered, whole⟩ :=
        system.stream.writeFd_accepts valid size requestable system.world
      obtain ⟨bytes, result⟩ := whole unrefused
      have matched := write_represents system.stream _ queue _ queue.kernel.next held accepts
        (by rw [answered, kernel])
      rw [bytes, result, kernel] at matched
      simp only [Queue.step]
      cases arrived : queue.kernel.receive size with
      | none =>
          rw [arrived] at matched
          exact matched
      | some bytes =>
          rw [arrived] at matched
          exact matched
  | writePipe source size =>
      obtain ⟨accepts, whole⟩ :=
        system.stream.writePipe_accepts valid source size requestable system.world
      obtain ⟨bytes, result, answered⟩ := whole unrefused
      have matched := write_represents system.stream _ queue _ _ held accepts answered
      rw [bytes, result, kernel] at matched
      exact matched
  | readChars size =>
      exact read_represents system.stream system.world queue _ size held kernel
        (system.stream.readChars_delivers valid size)
  | readBuffer result size =>
      have ok := (system.stream.readBuffer_appends valid result.1 result.2 size
        system.world.heap).2 unrefused
      have delivers := system.stream.readBuffer_delivers valid result.1 result.2 size
        system.world.heap ok
      exact read_represents system.stream _ queue _ size held kernel delivers.1
  | readByte =>
      obtain ⟨valid', bytes, unread', result⟩ := system.stream.readByte_unread valid
      rw [held] at bytes unread' result
      refine ⟨⟨valid', unread', kernel⟩, ?_⟩
      simp only [step, read, Queue.step, Queue.drop, bytes, result]
  | shift size =>
      have bounded := system.stream.size_bounded valid
      obtain ⟨valid', unread'⟩ := system.stream.shift_unread valid size
        (by simp only [addressSpace, QueueOp.size] at small bounded; omega)
      rw [held] at unread'
      refine ⟨⟨valid', unread', kernel⟩, ?_⟩
      simp only [step, Queue.step, Queue.drop, held]

def Ordered (system : System) : Prop :=
  system.stream.readOffset ≤ system.stream.writeOffset ∧
    system.stream.writeOffset ≤ system.stream.capacity

theorem ordered_of_valid (system : System) (valid : system.stream.Valid) : Ordered system :=
  ⟨valid.ordered, valid.data.fits⟩

theorem step_valid (system : System) (op : QueueOp) (valid : system.stream.Valid)
    (granted : Granted system op) : (step system op).1.stream.Valid :=
  (step_represents system ⟨system.stream.unread, system.world.kernel⟩ op ⟨valid, rfl, rfl⟩
    granted).1.valid

theorem step_anchored (system : System) (op : QueueOp) (valid : system.stream.Valid)
    (anchored : system.stream.data.Anchored)
    (requestable : ∀ size, op = .writeFd size ∨ (∃ source, op = .writePipe source size) →
      system.stream.data.Requestable size) (keeps : Keeps system op) :
    (step system op).1.stream.data.Anchored := by
  cases op with
  | writeChars value =>
      exact Buffer.pushBack_anchored _ _ _ anchored
        (Buffer.requestable_of_inMemory _ _ valid.data value.2)
  | writeFd size =>
      exact system.stream.writeFd_anchored size _ anchored (requestable size (Or.inl rfl)) keeps
  | writePipe source size =>
      exact system.stream.writePipe_anchored source size _ anchored
        (requestable size (Or.inr ⟨source, rfl⟩)) keeps
  | readChars size => exact system.stream.shift_anchored _ anchored
  | readBuffer result size => exact system.stream.shift_anchored _ anchored
  | readByte => exact system.stream.readByte_anchored anchored
  | shift size => exact system.stream.shift_anchored size anchored

structure Sound (system : System) : Prop where
  valid : system.stream.Valid
  anchored : system.stream.data.Anchored

theorem start_sound (capacity : Nat) (world : World) : Sound (start capacity world) :=
  ⟨(represents_start capacity world).valid, BufferStream.create_anchored capacity world.heap⟩

theorem step_sound (system : System) (op : QueueOp) (sound : Sound system)
    (granted : Granted system op) : Sound (step system op).1 := by
  refine ⟨step_valid system op sound.valid granted,
    step_anchored system op sound.valid sound.anchored ?_ granted.keeps⟩
  have requestable := Buffer.requestable_of_inMemory system.stream.data op.size sound.valid.data
    granted.small
  rintro size (rfl | ⟨source, rfl⟩)
  · exact requestable
  · exact requestable

theorem start_simulated (capacity : Nat) (world : World) (ops : List QueueOp)
    (granted : Along step Granted (start capacity world) ops) :
    Represents (final step (start capacity world) ops)
        (final Queue.step ⟨[], world.kernel⟩ ops) ∧
      outputs step (start capacity world) ops = outputs Queue.step ⟨[], world.kernel⟩ ops :=
  simulated step Queue.step Represents Granted step_represents _ _ ops
    (represents_start capacity world) granted

/-- The stream is the queue: it holds the same bytes, answers every call alike, keeps
its offsets in order and its storage, and shows nothing of the capacity it started with. -/
theorem stream_simulates_queue (capacity : Nat) (world : World) (ops : List QueueOp)
    (granted : Along step Granted (start capacity world) ops) :
    (final step (start capacity world) ops).stream.unread =
        (final Queue.step ⟨[], world.kernel⟩ ops).held ∧
      outputs step (start capacity world) ops = outputs Queue.step ⟨[], world.kernel⟩ ops ∧
      Always step (fun system => Ordered system ∧ system.stream.data.Anchored)
        (start capacity world) ops ∧
      ∀ other heap, Along step Granted (start other ⟨heap, world.kernel⟩) ops →
        outputs step (start other ⟨heap, world.kernel⟩) ops =
          outputs step (start capacity world) ops := by
  obtain ⟨represents, same⟩ := start_simulated capacity world ops granted
  have sound := always_of_along step Granted Sound step_sound _ ops (start_sound capacity world)
    granted
  refine ⟨represents.held_eq, same, always_mono step _ _ ?_ _ ops sound, ?_⟩
  · exact fun system sound => ⟨ordered_of_valid system sound.valid, sound.anchored⟩
  · intro other heap also
    rw [same]
    exact (start_simulated other ⟨heap, world.kernel⟩ ops also).2

theorem stream_simulates_queue_mixed :
    let world : World := ⟨.generous, .willing⟩
    let ops : List QueueOp := [.writeChars ⟨[1, 2, 3], by decide⟩, .readChars 2, .readByte,
      .readByte, .writeFd 2, .readBuffer ⟨.empty, Buffer.empty_valid⟩ 9, .shift 1]
    (final step (start 2 world) ops).stream.unread =
        (final Queue.step ⟨[], world.kernel⟩ ops).held ∧
      (outputs step (start 2 world) ops).map Event.delivered =
        [[], [1, 2], [3], [], [], [0, 0], []] := by
  intro world ops
  have granted : Along step Granted (start 2 world) ops := by
    exact ⟨⟨by decide, by decide, trivial⟩, ⟨by decide, by decide, trivial⟩,
      ⟨by decide, by decide, trivial⟩, ⟨by decide, by decide, trivial⟩,
      ⟨by decide, by decide, Or.inl (by decide)⟩, ⟨by decide, by decide, Buffer.empty_anchored⟩,
      ⟨by decide, by decide, trivial⟩, trivial⟩
  refine ⟨(stream_simulates_queue 2 world ops granted).1, ?_⟩
  rw [(stream_simulates_queue 2 world ops granted).2.1]
  decide

/-- `BufferStream s(4); s.write(fd, 0); s.write("abc", 3)` with every allocation granted:
the first write frees the block of the stream and the second passes it to `realloc`. -/
theorem writeFd_zero_dangles :
    let world : World := ⟨.generous, .willing⟩
    let ops : List QueueOp := [.writeFd 0, .writeChars ⟨[97, 98, 99], by decide⟩]
    (∀ op ∈ ops, op.size < addressSpace) ∧
      (final step (start 4 world) ops).world.heap.Unrefused ∧
      ¬ Ownership.Proper (final step (start 4 world) ops).world.heap.calls := by
  decide

/-! Draining into descriptors. `read(int)` and `read(Pipe*)` hand over bytes from the
start of the storage, which are the next unread ones only at read offset 0. -/

inductive Op where
  | queue (op : QueueOp)
  | readFd (size : Nat)
  | readPipe (sink : Pipe) (size : Nat)

def drain : Machine System Op Event
  | system, .queue op => step system op
  | ⟨stream, world⟩, .readFd size =>
      read (stream.readFd size world.kernel) { world with kernel := world.kernel.next }
  | ⟨stream, world⟩, .readPipe sink size =>
      let sent := stream.readPipe sink size world.kernel
      read sent.1 { world with kernel := sent.2.kernel }

/-- The bytes handed over are the first ones `read(char*, size)` would deliver, and
exactly these are gone afterwards. -/
def Agrees (system : System) (size : Nat) (after : System × Event) : Prop :=
  after.2.delivered = (system.stream.readChars size).bytes.take after.2.delivered.length ∧
    after.1.stream.unread = system.stream.unread.drop after.2.delivered.length

def Faithful (system : System) : Op → Prop
  | .queue _ => True
  | .readFd size => Agrees system size (drain system (.readFd size))
  | .readPipe sink size =>
      Agrees system size (drain system (.readPipe sink size)) ∧
        (system.stream.readPipe sink size system.world.kernel).2.pipe.queue =
          sink.queue ++ (drain system (.readPipe sink size)).2.delivered

def AtStart (system : System) (size : Nat) : Prop :=
  system.stream.readOffset = 0 ∨ min system.stream.size size = 0

/-- The sums of the step wrap nowhere, and a buffer to read into can take the bytes. -/
def Unwrapped (system : System) : QueueOp → Prop
  | .writeFd size => system.stream.data.Requestable size
  | .writePipe _ size => system.stream.data.Requestable size
  | .readBuffer result size =>
      (result.1.reserve (add result.1.size (min size system.stream.size)) system.world.heap).ok =
        true
  | .shift size => system.stream.readOffset + size < 2 ^ 64
  | _ => True

def Aligned (system : System) : Op → Prop
  | .queue op => Unwrapped system op ∧ Keeps system op
  | .readFd size => AtStart system size
  | .readPipe _ size => AtStart system size

theorem sends_agrees (system : System) (size : Nat) (sent : BufferStream.Read) (world : World)
    (valid : system.stream.Valid) (sends : system.stream.Sends size sent)
    (atStart : AtStart system size) : Agrees system size (read sent world) := by
  have limit := sends.limit
  have delivers := system.stream.readChars_delivers valid size
  refine ⟨?_, sends.unread_eq⟩
  show sent.bytes = _
  rw [delivers.bytes_eq, List.take_take, Nat.min_eq_left (by show sent.bytes.length ≤ size; omega)]
  exact BufferStream.sends_delivers system.stream size sent sends atStart

theorem drain_faithful (system : System) (op : Op) (valid : system.stream.Valid)
    (aligned : Aligned system op) : Faithful system op := by
  cases op with
  | queue op => trivial
  | readFd size =>
      exact sends_agrees system size _ _ valid (system.stream.readFd_sends valid size _) aligned
  | readPipe sink size =>
      exact ⟨sends_agrees system size _ _ valid (system.stream.readPipe_sends valid sink size _)
        aligned, Pipe.moveIn_queue _ _ _⟩

theorem sends_balanced (system : System) (size : Nat) (sent : BufferStream.Read)
    (sends : system.stream.Sends size sent) (atStart : AtStart system size) :
    sent.bytes ++ sent.stream.unread = system.stream.unread ++ [] := by
  have handed := BufferStream.sends_delivers system.stream size sent sends atStart
  rw [sends.unread_eq, List.append_nil]
  nth_rewrite 1 [handed]
  exact List.take_append_drop _ _

theorem delivers_balanced (system : System) (size : Nat) (taken : BufferStream.Read)
    (delivers : system.stream.Delivers size taken) :
    taken.bytes ++ taken.stream.unread = system.stream.unread ++ [] := by
  rw [delivers.bytes_eq, delivers.unread_eq, List.take_append_drop, List.append_nil]

theorem drain_balanced (system : System) (op : Op) (valid : system.stream.Valid)
    (aligned : Aligned system op) :
    (drain system op).1.stream.Valid ∧
      (drain system op).2.delivered ++ (drain system op).1.stream.unread =
        system.stream.unread ++ (drain system op).2.accepted := by
  cases op with
  | readFd size =>
      have sends := system.stream.readFd_sends valid size system.world.kernel
      exact ⟨sends.valid, sends_balanced system size _ sends aligned⟩
  | readPipe sink size =>
      have sends := system.stream.readPipe_sends valid sink size system.world.kernel
      exact ⟨sends.valid, sends_balanced system size _ sends aligned⟩
  | queue op =>
      cases op with
      | writeChars value =>
          have accepts := (system.stream.writeChars_accepts valid value.1 value.2 system.world).1
          exact ⟨accepts.valid, accepts.unread_eq⟩
      | writeFd size =>
          have accepts := (system.stream.writeFd_accepts valid size aligned.1 system.world).1
          exact ⟨accepts.valid, accepts.unread_eq⟩
      | writePipe source size =>
          have accepts := (system.stream.writePipe_accepts valid source size aligned.1
            system.world).1
          exact ⟨accepts.valid, accepts.unread_eq⟩
      | readChars size =>
          have delivers := system.stream.readChars_delivers valid size
          exact ⟨delivers.valid, delivers_balanced system size _ delivers⟩
      | readBuffer result size =>
          have delivers := (system.stream.readBuffer_delivers valid result.1 result.2 size
            system.world.heap aligned.1).1
          exact ⟨delivers.valid, delivers_balanced system size _ delivers⟩
      | readByte =>
          obtain ⟨valid', bytes, unread', _⟩ := system.stream.readByte_unread valid
          refine ⟨valid', ?_⟩
          simp only [drain, step, read, bytes, unread', List.take_append_drop, List.append_nil]
      | shift size =>
          obtain ⟨valid', unread'⟩ := system.stream.shift_unread valid size aligned.1
          refine ⟨valid', ?_⟩
          simp only [drain, step, unread', List.take_append_drop, List.append_nil]

theorem drain_sound (system : System) (op : Op) (sound : Sound system)
    (aligned : Aligned system op) : Sound (drain system op).1 := by
  refine ⟨(drain_balanced system op sound.valid aligned).1, ?_⟩
  cases op with
  | readFd size => exact system.stream.readFd_anchored size _ sound.anchored
  | readPipe sink size => exact sound.anchored
  | queue op =>
      apply step_anchored system op sound.valid sound.anchored _ aligned.2
      rintro size (rfl | ⟨source, rfl⟩)
      · exact aligned.1
      · exact aligned.1

/-- While every descriptor drain starts at read offset 0 or has nothing to hand over, and
no write frees the storage, all ways of draining agree and every accepted byte comes out
once and in order. -/
theorem drains_agree_from_start (capacity : Nat) (world : World) (ops : List Op)
    (aligned : Along drain Aligned (start capacity world) ops) :
    Along drain Faithful (start capacity world) ops ∧
      total (· ++ ·) [] Event.delivered (outputs drain (start capacity world) ops) ++
          (final drain (start capacity world) ops).stream.unread =
        total (· ++ ·) [] Event.accepted (outputs drain (start capacity world) ops) ∧
      Always drain (fun system => system.stream.data.Anchored) (start capacity world) ops := by
  have fresh := start_sound capacity world
  refine ⟨along_of_along drain Aligned Sound Faithful drain_sound ?_ _ ops fresh aligned, ?_, ?_⟩
  · exact fun system op sound => drain_faithful system op sound.valid
  · have ledger := conserved (· ++ ·) [] drain Aligned Sound
      (fun system => system.stream.unread) Event.delivered Event.accepted drain_sound
      (fun system op sound guarded => (drain_balanced system op sound.valid guarded).2)
      _ ops fresh aligned
    rw [ledger, (represents_start capacity world).held_eq, List.nil_append]
  · exact always_mono drain Sound _ (fun system sound => sound.anchored) _ ops
      (always_of_along drain Aligned Sound drain_sound _ ops fresh aligned)

theorem drains_agree_from_start_mixed :
    let world : World := ⟨.generous, .willing⟩
    let ops : List Op := [.queue (.writeChars ⟨[1, 2, 3], by decide⟩), .readFd 2,
      .queue (.readChars 5), .queue (.writeChars ⟨[4, 5], by decide⟩),
      .readPipe ⟨true, 0, []⟩ 9, .readFd 1]
    Along drain Faithful (start 8 world) ops ∧
      (outputs drain (start 8 world) ops).map Event.delivered =
        [[], [1, 2], [3], [], [4, 5], []] := by
  intro world ops
  have aligned : Along drain Aligned (start 8 world) ops :=
    ⟨⟨trivial, trivial⟩, Or.inl rfl, ⟨trivial, trivial⟩, ⟨trivial, trivial⟩, Or.inl (by decide),
      Or.inr (by decide), trivial⟩
  exact ⟨(drains_agree_from_start 8 world ops aligned).1, by decide⟩

/-- After a block read of three bytes the descriptor and the pipe get the same three
bytes once more, and the unread ones are gone. -/
theorem readFd_resends :
    let world : World := ⟨.generous, .willing⟩
    let before : List Op := [.queue (.writeChars ⟨[97, 98, 99, 100, 101, 102], by decide⟩),
      .queue (.readChars 3)]
    let system := final drain (start 8 world) before
    system.stream.unread = [100, 101, 102] ∧ (system.stream.readChars 3).bytes = [100, 101, 102] ∧
      (drain system (.readFd 3)).2.delivered = [97, 98, 99] ∧
      (drain system (.readPipe ⟨true, 0, []⟩ 3)).2.delivered = [97, 98, 99] ∧
      (drain system (.readFd 3)).1.stream.unread = [] := by
  decide

end Xio.StreamQueue
