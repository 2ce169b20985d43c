import Xio.Capacity
import Xio.ChunkedStream

/-!
Reading into a `Buffer` when memory runs out. `BufferStream::read(Buffer&)` reserves,
appends, shifts its own offset and returns in four steps that do not look at each other.
`ChunkedStream::read(Buffer&)` reserves and then lets the chunks store at `end()`; every
chunk stores at the same place, so what counts is the longest single store.
-/

namespace Xio.BufferReads

open Storage MachineWord Environment MutableBuffer BufferAppend
open ChunkedStream (Loop readLoop readLoop_round AllValid contents popped_valid)

/-! One buffer stream. -/

structure Conserves (stream : BufferStream) (result : Buffer)
    (after : BufferStream.Read × Buffer × Heap) : Prop where
  limit : after.1.result.toNat ≤ stream.unread.length
  appended : after.2.1.content = result.content ++ stream.unread.take after.1.result.toNat
  removed : after.1.stream.unread = stream.unread.drop after.1.result.toNat

/-- There is nothing to read, or one of the two attempts to make room succeeds: the one of
`read` itself, whose answer is ignored, and the one inside `push_back`. -/
def Accepted (result : Buffer) (bytes : List UInt8) (heap : Heap) : Prop :=
  bytes = [] ∨ Effective result bytes heap ∨
    Effective result bytes
      (heap.realloc result.data (asked result (result.size + bytes.length)))

instance (result : Buffer) (bytes : List UInt8) (heap : Heap) :
    Decidable (Accepted result bytes heap) :=
  inferInstanceAs (Decidable (_ ∨ _ ∨ _))

-- A refused reservation is one call of `realloc`; the buffer is as it was.
theorem reserve_ineffective (buffer : Buffer) (text : List UInt8) (heap : Heap)
    (valid : buffer.Valid) (inMemory : text.length < addressSpace)
    (ineffective : ¬ Effective buffer text heap) :
    buffer.reserve (add buffer.size text.length) heap =
      ⟨false, buffer,
        heap.realloc buffer.data (asked buffer (buffer.size + text.length))⟩ := by
  have fits := valid.fits
  have bounded := valid.bounded
  simp only [addressSpace] at bounded inMemory
  have larger : buffer.capacity < buffer.size + text.length :=
    Nat.not_le.mp fun room => ineffective (Or.inl room)
  have denied : heap.answer (asked buffer (buffer.size + text.length)) = false := by
    rw [← Bool.not_eq_true]
    exact fun granted => ineffective (Or.inr ⟨rfl, granted⟩)
  have cover := Capacity.asked_covers buffer _ larger
    (Or.inr (by simp only [Buffer.chunkSize]; omega))
  have positive : asked buffer (buffer.size + text.length) ≠ 0 := by omega
  rw [add_exact (by omega), Capacity.reserve_of_larger buffer _ heap larger, Buffer.reallocate,
    denied]
  simp only [Bool.false_eq_true, ↓reduceIte, positive]

theorem readBuffer_content (stream : BufferStream) (valid : stream.Valid) (result : Buffer)
    (sound : result.Valid) (size : Nat) (heap : Heap) :
    (stream.readBuffer result size heap).2.1.content =
      if Accepted result (stream.unread.take size) heap then
        result.content ++ stream.unread.take size
      else result.content := by
  have bounded := stream.size_bounded valid
  have length : (stream.unread.take size).length = min size stream.size := by simp
  have inMemory : (stream.unread.take size).length < addressSpace := by omega
  have appends := stream.readBuffer_appends valid result sound size heap
  have bytes : load stream.data.bytes stream.readOffset (min size stream.size) =
      stream.unread.take size := (load_take _ _ _ _).symm
  by_cases nothing : stream.unread.take size = []
  · have accepted : Accepted result (stream.unread.take size) heap := Or.inl nothing
    rw [if_pos accepted, nothing, List.append_nil]
    rw [nothing, List.length_nil] at length
    have reserved := (Buffer.reserve_more result 0 heap sound
      (Buffer.requestable_of_inMemory result 0 sound addressSpace_pos)).kept
    simp only [BufferStream.readBuffer, ← length, load_zero, pushBack, List.length_nil, ↓reduceIte]
    exact Buffer.content_of_kept reserved
  have nonempty : (stream.unread.take size).length ≠ 0 :=
    fun zero => nothing (List.length_eq_zero_iff.mp zero)
  have guarded := guard_iff_effective result _ heap sound nonempty inMemory
  by_cases effective : Effective result (stream.unread.take size) heap
  · have accepted : Accepted result (stream.unread.take size) heap := Or.inr (Or.inl effective)
    rw [if_pos accepted]
    apply appends.1
    rw [← length]
    exact guarded.mpr effective
  · -- the second attempt starts from the same buffer
    have refused := reserve_ineffective result _ heap sound inMemory effective
    have pushed := (pushBack_content result (stream.unread.take size)
      (heap.realloc result.data (asked result (result.size + (stream.unread.take size).length)))
      sound inMemory).2
    rw [length] at refused
    have again : Accepted result (stream.unread.take size) heap ↔ Effective result
        (stream.unread.take size) (heap.realloc result.data
          (asked result (result.size + (stream.unread.take size).length))) := by
      simp only [Accepted, nothing, effective, false_or]
    simp only [again, BufferStream.readBuffer, refused, bytes]
    rw [← length]
    exact pushed

theorem readBuffer_conserves_iff (stream : BufferStream) (valid : stream.Valid) (result : Buffer)
    (sound : result.Valid) (size : Nat) (heap : Heap) :
    Conserves stream result (stream.readBuffer result size heap) ↔
      Accepted result (stream.unread.take size) heap := by
  have content := readBuffer_content stream valid result sound size heap
  have removed := (stream.shift_min valid size).2
  have count : (stream.readBuffer result size heap).1.result.toNat = min size stream.size := by
    show (signed (min size stream.size)).toNat = _
    rw [stream.signed_min valid size, Int.toNat_natCast]
  have taken : stream.unread.take (min size stream.size) = stream.unread.take size := by
    rw [← stream.unread_length, ← List.take_eq_take_min]
  have dropped : stream.unread.drop (min size stream.size) = stream.unread.drop size := by
    rw [← stream.unread_length, ← List.drop_eq_drop_min]
  constructor
  · intro conserves
    by_contra lost
    have appended := conserves.appended
    rw [content, if_neg lost, count, taken] at appended
    exact lost (Or.inl (List.self_eq_append_right.mp appended))
  · intro accepted
    rw [if_pos accepted] at content
    refine ⟨?_, ?_, ?_⟩
    · rw [count, stream.unread_length]
      exact Nat.min_le_right _ _
    · rw [content, count, taken]
    · rw [count, dropped]
      exact removed

/-! A chunked stream. -/

def stored : Chunk → Nat → CharSink → Nat
  | .bufferStream stream, size, _ => (stream.readChars size).bytes.length
  | .pipe channel, size, sink => (channel.readChars size sink.kernel).bytes.length

structure Watched where
  sink : CharSink
  longest : Nat

-- `Chunk.readChars` with the longest store so far.
def watched : Take Watched := fun chunk size watching =>
  let taken := chunk.readChars size watching.sink
  ⟨taken.result, taken.chunk,
    ⟨taken.sink, max watching.longest (stored chunk size watching.sink)⟩⟩

def unwatched (loop : Loop Watched) : Loop CharSink :=
  ⟨loop.returned, loop.result, loop.chunks, loop.sink.sink⟩

theorem watched_erases (rounds size result : Nat) (chunks : List Chunk) (watching : Watched) :
    unwatched (readLoop watched rounds chunks size result watching) =
      readLoop Chunk.readChars rounds chunks size result watching.sink := by
  induction rounds generalizing chunks size result watching with
  | zero => rfl
  | succ rounds ih =>
      cases chunks with
      | nil => rfl
      | cons front rest =>
          by_cases stopped : front.size = 0 ∨ size = 0
          · simp only [readLoop, if_pos stopped, unwatched]
          by_cases failed : (front.readChars size watching.sink).result < 0
          · have watched_failed : (watched front size watching).result < 0 := failed
            simp only [readLoop, if_neg stopped, if_pos failed, if_pos watched_failed]
            rfl
          · rw [readLoop_round Chunk.readChars rounds size result front rest _ stopped failed,
              readLoop_round watched rounds size result front rest watching stopped failed]
            exact ih _ _ _ _

def longestStore (stream : ChunkedStream) (rounds : Nat) (result : Buffer) (size : Nat)
    (world : World) : Nat :=
  let reserved := result.reserve (add result.size size) world.heap
  (readLoop watched rounds stream.chunks size 0
    ⟨⟨reserved.buffer.bytes, reserved.buffer.size, world.kernel⟩, 0⟩).sink.longest

-- The loop that is watched is the one of `read(Buffer&, size)`.
theorem watched_readBuffer (stream : ChunkedStream) (rounds : Nat) (result : Buffer) (size : Nat)
    (world : World) :
    let reserved := result.reserve (add result.size size) world.heap
    unwatched (readLoop watched rounds stream.chunks size 0
        ⟨⟨reserved.buffer.bytes, reserved.buffer.size, world.kernel⟩, 0⟩) =
      (stream.readBuffer rounds result size world).1 :=
  watched_erases _ _ _ _ _

-- The room at `result.end()` once the reservation was tried.
def spare (result : Buffer) (size : Nat) (heap : Heap) : Nat :=
  let reserved := result.reserve (add result.size size) heap
  reserved.buffer.capacity - reserved.buffer.size

def Within : List Chunk → Nat → Nat → Prop
  | [], _, _ => True
  | front :: rest, size, room =>
      front.unread = [] ∨ size = 0 ∨
        min size front.unread.length ≤ room ∧ Within rest (size - front.unread.length) room

theorem within_zero (chunks : List Chunk) (room : Nat) : Within chunks 0 room := by
  cases chunks with
  | nil => trivial
  | cons front rest => exact Or.inr (Or.inl rfl)

theorem within_of_room (chunks : List Chunk) (size room : Nat) (enough : size ≤ room) :
    Within chunks size room := by
  induction chunks generalizing size with
  | nil => trivial
  | cons front rest ih => exact Or.inr (Or.inr ⟨by omega, ih _ (by omega)⟩)

theorem stored_eq (chunk : Chunk) (size : Nat) (sink : CharSink) (valid : chunk.Valid) :
    stored chunk size sink = (chunk.readChars size sink).result.toNat := by
  cases chunk with
  | bufferStream stream =>
      have counted := (stream.readChars_delivers valid size).counted
      simp only [stored, Chunk.readChars, counted, Int.toNat_natCast]
  | pipe channel => exact (channel.moveOut_reports size sink.kernel).1.toNat.symm

theorem within_drawn (front after : Chunk) (rest : List Chunk) (size count room : Nat)
    (first : front.Valid) (pending : front.size ≠ 0) (wanted : size ≠ 0)
    (draws : front.Draws size count after) (within : Within (front :: rest) size room) :
    count ≤ room ∧
      Within (if after.size = 0 then rest else after :: rest) (size - count) room := by
  rw [front.size_eq_length first] at pending
  have limit := draws.limit
  have left : after.unread.length = front.unread.length - count := by
    rw [draws.unread_eq, List.length_drop]
  rcases within with nothing | nothing | ⟨fits, others⟩
  · exact absurd (congrArg List.length nothing) pending
  · exact absurd nothing wanted
  refine ⟨by omega, ?_⟩
  rw [after.size_eq_length draws.valid]
  by_cases drained : after.unread.length = 0
  · have all : count = front.unread.length := by omega
    rw [if_pos drained, all]
    exact others
  · rw [if_neg drained]
    have same : size - count - after.unread.length = size - front.unread.length := by omega
    exact Or.inr (Or.inr ⟨by omega, by rw [same]; exact others⟩)

theorem longest_within (rounds size result room : Nat) (chunks : List Chunk) (watching : Watched)
    (valid : AllValid chunks) (within : Within chunks size room)
    (so_far : watching.longest ≤ room) :
    (readLoop watched rounds chunks size result watching).sink.longest ≤ room := by
  induction rounds generalizing chunks size result watching with
  | zero => exact so_far
  | succ rounds ih =>
      cases chunks with
      | nil => exact so_far
      | cons front rest =>
          obtain ⟨first, others⟩ := List.forall_mem_cons.mp valid
          by_cases stopped : front.size = 0 ∨ size = 0
          · simp only [readLoop, if_pos stopped]
            exact so_far
          obtain ⟨pending, wanted⟩ := not_or.mp stopped
          have draws := front.readChars_draws size watching.sink first
          obtain ⟨fits, next⟩ := within_drawn front _ rest size _ room first pending wanted
            draws within
          have longer : (watched front size watching).sink.longest ≤ room := by
            simp only [watched, stored_eq front size watching.sink first]
            omega
          by_cases failed : (watched front size watching).result < 0
          · simp only [readLoop, if_neg stopped, if_pos failed]
            exact longer
          · rw [readLoop_round watched rounds size result front rest watching stopped failed]
            have limit := draws.limit
            apply ih _ _ _ _ (popped_valid _ rest draws.valid others) _ longer
            rw [sub_exact (by simp only [watched]; omega)]
            exact next

/-! A kernel that delivers all there is makes every chunk store as much as it can. -/

def Greedy (kernel : Kernel) (bound : Nat) : Prop :=
  ∀ call, ∃ n, kernel.answers call = some n ∧ bound ≤ n

theorem greedy_takes (chunk : Chunk) (size bound : Nat) (sink : CharSink) (valid : chunk.Valid)
    (pending : chunk.size ≠ 0) (greedy : Greedy sink.kernel bound)
    (covered : chunk.unread.length ≤ bound) :
    (chunk.readChars size sink).result = (min size chunk.unread.length : Nat) ∧
      Greedy (chunk.readChars size sink).sink.kernel bound := by
  cases chunk with
  | bufferStream stream =>
      have delivers := stream.readChars_delivers valid size
      refine ⟨?_, greedy⟩
      simp only [Chunk.readChars, delivers.counted, delivers.bytes_eq, List.length_take,
        Chunk.unread]
  | pipe channel =>
      have counted : channel.size = channel.queue.length := valid.counted
      have nonempty : channel.queue.length ≠ 0 := by
        rw [← counted]
        exact pending
      have opened : channel.isOpen = true := by
        by_contra closed
        rw [valid.closed (by simpa using closed)] at nonempty
        exact nonempty rfl
      obtain ⟨n, answer, enough⟩ := greedy sink.kernel.calls
      have limit : channel.queue.length ≤ bound := covered
      have offer : channel.offered sink.kernel (min size channel.queue.length) =
          some (min size channel.queue.length) := by
        simp only [Pipe.offered, opened, ↓reduceIte, Kernel.transfer, answer, Option.map_some,
          Option.some.injEq]
        split <;> omega
      simp only [Chunk.readChars, Pipe.readChars, Pipe.moveOut, offer]
      exact ⟨rfl, greedy⟩

theorem longest_mono (rounds size result : Nat) (chunks : List Chunk) (watching : Watched) :
    watching.longest ≤ (readLoop watched rounds chunks size result watching).sink.longest := by
  induction rounds generalizing chunks size result watching with
  | zero => exact Nat.le_refl _
  | succ rounds ih =>
      cases chunks with
      | nil => exact Nat.le_refl _
      | cons front rest =>
          have here : watching.longest ≤ (watched front size watching).sink.longest :=
            Nat.le_max_left _ _
          simp only [readLoop]
          split
          · exact Nat.le_refl _
          split
          · exact here
          · exact Nat.le_trans here (ih _ _ _ _)

theorem within_of_longest (bound room : Nat) (chunks : List Chunk) (rounds size result : Nat)
    (watching : Watched) (valid : AllValid chunks)
    (covered : ∀ chunk ∈ chunks, chunk.unread.length ≤ bound)
    (greedy : Greedy watching.sink.kernel bound) (enough : size < rounds)
    (fits : (readLoop watched rounds chunks size result watching).sink.longest ≤ room) :
    Within chunks size room := by
  induction chunks generalizing rounds size result watching with
  | nil => trivial
  | cons front rest ih =>
      obtain ⟨first, others⟩ := List.forall_mem_cons.mp valid
      obtain ⟨short, shorts⟩ := List.forall_mem_cons.mp covered
      by_cases stopped : front.size = 0 ∨ size = 0
      · rcases stopped with drained | wanted
        · exact Or.inl ((front.size_eq_zero_iff first).mp drained)
        · exact Or.inr (Or.inl wanted)
      obtain ⟨pending, wanted⟩ := not_or.mp stopped
      obtain ⟨taken, still⟩ := greedy_takes front size bound watching.sink first pending
        greedy short
      have draws := front.readChars_draws size watching.sink first
      have answered : ¬ (watched front size watching).result < 0 := by
        simp only [watched, taken]
        omega
      obtain ⟨rounds, rfl⟩ : ∃ more, rounds = more + 1 := ⟨rounds - 1, by omega⟩
      rw [readLoop_round watched rounds size result front rest watching stopped answered] at fits
      have longest := Nat.le_trans (longest_mono _ _ _ _ _) fits
      simp only [watched, stored_eq front size watching.sink first, taken, Int.toNat_natCast]
        at longest
      rw [front.size_eq_length first] at pending
      refine Or.inr (Or.inr ⟨by omega, ?_⟩)
      by_cases last : size ≤ front.unread.length
      · rw [Nat.sub_eq_zero_of_le last]
        exact within_zero rest room
      · -- the chunk is drained and the loop goes on with the next one
        have all : min size front.unread.length = front.unread.length := by omega
        have drained : (watched front size watching).chunk.size = 0 := by
          simp only [watched]
          rw [Chunk.size_eq_length _ draws.valid, draws.unread_eq, taken, Int.toNat_natCast, all]
          simp
        rw [if_pos drained] at fits
        have left : sub size (watched front size watching).result.toNat =
            size - front.unread.length := by
          simp only [watched, taken, Int.toNat_natCast, all]
          exact sub_exact (by omega)
        rw [left] at fits
        exact ih rounds _ _ _ others shorts still (by omega) fits

theorem longest_within_iff (stream : ChunkedStream) (valid : AllValid stream.chunks)
    (rounds : Nat) (result : Buffer) (size : Nat) (heap : Heap) (enough : size < rounds) :
    (∀ kernel, longestStore stream rounds result size ⟨heap, kernel⟩ ≤ spare result size heap) ↔
      Within stream.chunks size (spare result size heap) := by
  constructor
  · intro within
    let bound := (contents stream.chunks).length
    let kernel : Kernel := ⟨fun _ => some bound, fun _ _ => 0, 0⟩
    have covered : ∀ chunk ∈ stream.chunks, chunk.unread.length ≤ bound := by
      intro chunk member
      simp only [bound, contents, List.flatMap_def]
      exact (List.sublist_flatten_of_mem (List.mem_map_of_mem member)).length_le
    exact within_of_longest bound _ stream.chunks rounds size 0 _ valid covered
      (fun _ => ⟨bound, rfl, Nat.le_refl bound⟩) enough (within kernel)
  · intro within kernel
    exact longest_within rounds size 0 _ stream.chunks _ valid within (Nat.zero_le _)

/-- Both reads into a buffer, when memory may run out. A buffer stream gives away exactly
what it appends if one of two attempts to make room succeeds. A chunked stream stays
within the buffer, whatever the kernel does, if no chunk it reaches is longer than the
room, which a granted reservation guarantees. -/
theorem buffer_reads_iff (stream : BufferStream) (chunked : ChunkedStream) (result : Buffer)
    (size rounds : Nat) (heap : Heap) (valid : stream.Valid) (chunks : AllValid chunked.chunks)
    (sound : result.Valid) (enough : size < rounds) :
    (Conserves stream result (stream.readBuffer result size heap) ↔
        Accepted result (stream.unread.take size) heap) ∧
      ((∀ kernel, longestStore chunked rounds result size ⟨heap, kernel⟩ ≤
          spare result size heap) ↔
        Within chunked.chunks size (spare result size heap)) :=
  ⟨readBuffer_conserves_iff stream valid result sound size heap,
    longest_within_iff chunked chunks rounds result size heap enough⟩

def abc : BufferStream := ⟨⟨some 0, store (fun _ => 0) 0 [97, 98, 99], 3, 3⟩, 0⟩

theorem abc_valid : abc.Valid := ⟨⟨by decide, by decide⟩, by decide⟩

theorem buffer_reads_granted :
    Conserves abc empty (abc.readBuffer empty 2 Heap.generous) ∧
      ∀ kernel, longestStore ⟨[.bufferStream abc]⟩ 3 empty 2 ⟨Heap.generous, kernel⟩ ≤ 2 := by
  have both := buffer_reads_iff abc ⟨[.bufferStream abc]⟩ empty 2 3 Heap.generous abc_valid
    (List.forall_mem_singleton.mpr abc_valid) Buffer.empty_valid (by decide)
  exact ⟨both.1.mpr (by decide), both.2.mpr (within_of_room _ _ _ (by decide))⟩

/-- Three bytes to read and no memory: the buffer stream returns 3, holds nothing any
more and has appended nothing; the chunked stream stores three bytes where there is no
room for one. -/
theorem unreserved_reads_lose_and_overrun :
    (abc.readBuffer empty 3 Heap.exhausted).1.result = 3 ∧
      (abc.readBuffer empty 3 Heap.exhausted).1.stream.unread = [] ∧
      (abc.readBuffer empty 3 Heap.exhausted).2.1.content = [] ∧
      longestStore ⟨[.bufferStream abc]⟩ 4 empty 3 ⟨Heap.exhausted, Kernel.willing⟩ = 3 ∧
      spare empty 3 Heap.exhausted = 0 := by
  decide

end Xio.BufferReads
