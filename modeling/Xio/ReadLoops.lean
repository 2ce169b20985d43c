import Xio.ChunkedStream

/-!
Whether the read loops of `ChunkedStream` return. A round that takes something or
fails is progress; `Pipe::read(Pipe*)` does neither. The loop has no other exit
while the front chunk is non-empty, so it spins as soon as such a pipe is in front.
-/

namespace Xio.ReadLoops

open Storage MachineWord Environment ChunkedStream

def Returns {Sink : Type} (loop : Nat → Loop Sink) : Prop := ∃ rounds, (loop rounds).returned = true

/-- Reading `size` bytes comes to a non-empty pipe chunk with bytes still to read. -/
def MeetsPipe : List Chunk → Nat → Prop
  | [], _ => False
  | .pipe channel :: _, size => 0 < size ∧ 0 < channel.size
  | .bufferStream stream :: rest, size =>
      0 < size ∧ 0 < stream.size ∧ MeetsPipe rest (size - stream.size)

theorem meetsPipe_zero (chunks : List Chunk) : ¬ MeetsPipe chunks 0 := by
  intro meets
  cases chunks with
  | nil => exact meets
  | cons front rest =>
      cases front with
      | pipe channel => exact Nat.lt_irrefl 0 meets.1
      | bufferStream stream => exact Nat.lt_irrefl 0 meets.1

theorem writeChars_advances (sink : Pipe) (value : List UInt8) (kernel : Kernel)
    (nonempty : value.length ≠ 0) : (sink.writeChars value kernel).result ≠ 0 := by
  simp only [Pipe.writeChars]
  cases offer : sink.offered kernel value.length with
  | none => simp [Pipe.moveIn]
  | some n =>
      obtain ⟨limit, progress, _⟩ := Pipe.offered_le sink kernel _ n offer
      have some_bytes := progress (by omega)
      simp only [Option.map_some, Pipe.moveIn, List.length_take]
      omega

theorem bufferStream_advances (stream : BufferStream) (size : Nat) (sink : PipeSink)
    (pending : stream.size ≠ 0) (wanted : size ≠ 0) :
    (Chunk.readPipe (.bufferStream stream) size sink).result ≠ 0 := by
  apply writeChars_advances
  rw [load_length]
  omega

-- Taking `count` bytes off the front does not move the pipes behind it any closer or further.
theorem meetsPipe_drawn (stream after : BufferStream) (rest : List Chunk) (size count : Nat)
    (draws : Chunk.Draws (.bufferStream stream) size count (.bufferStream after))
    (pending : stream.size ≠ 0) (wanted : size ≠ 0)
    (meets : MeetsPipe (if after.size = 0 then rest else .bufferStream after :: rest)
      (size - count)) :
    MeetsPipe (.bufferStream stream :: rest) size := by
  have limit := draws.limit
  have left : after.size = stream.size - count := by
    rw [← after.unread_length, ← stream.unread_length, ← List.length_drop]
    exact congrArg List.length draws.unread_eq
  simp only [Chunk.unread, BufferStream.unread_length] at limit
  refine ⟨by omega, by omega, ?_⟩
  by_cases drained : after.size = 0
  · rw [if_pos drained] at meets
    have all : stream.size = count := by omega
    rw [all]
    exact meets
  · rw [if_neg drained] at meets
    have same : size - count - after.size = size - stream.size := by omega
    rw [← same]
    exact meets.2.2

theorem readPipe_returns (rounds size result : Nat) (chunks : List Chunk) (sink : PipeSink)
    (valid : AllValid chunks) (clear : ¬ MeetsPipe chunks size) (enough : size < rounds) :
    (readLoop Chunk.readPipe rounds chunks size result sink).returned = true := by
  induction rounds generalizing chunks size result sink with
  | zero => exact absurd enough (Nat.not_lt_zero size)
  | succ rounds ih =>
      cases chunks with
      | nil => rfl
      | cons front rest =>
          obtain ⟨first, others⟩ := List.forall_mem_cons.mp valid
          simp only [readLoop]
          by_cases stopped : front.size = 0 ∨ size = 0
          · rw [if_pos stopped]
          rw [if_neg stopped]
          obtain ⟨pending, wanted⟩ := not_or.mp stopped
          cases front with
          | pipe channel =>
              exact absurd ⟨Nat.pos_of_ne_zero wanted, Nat.pos_of_ne_zero pending⟩ clear
          | bufferStream stream =>
              have draws := Chunk.readPipe_draws (.bufferStream stream) size sink first
              have progress := bufferStream_advances stream size sink pending wanted
              have limit := draws.limit
              by_cases failed : (Chunk.readPipe (.bufferStream stream) size sink).result < 0
              · rw [if_pos failed]
              rw [if_neg failed, sub_exact (by omega)]
              apply ih
              · exact popped_valid _ rest draws.valid others
              · intro meets
                exact clear (meetsPipe_drawn stream _ rest size _ draws pending wanted meets)
              · omega

/-! A kernel that moves all it is offered brings every loop to its first pipe chunk. -/

def Willing (kernel : Kernel) : Prop := ∀ i, kernel.answers i = some (2 ^ 64)

theorem writeChars_willing (sink : Pipe) (value : List UInt8) (kernel : Kernel)
    (opened : sink.isOpen = true) (willing : Willing kernel) (nonempty : value.length ≠ 0)
    (inMemory : value.length < addressSpace) :
    (sink.writeChars value kernel).result = value.length ∧
      (sink.writeChars value kernel).pipe.isOpen = true ∧
      Willing (sink.writeChars value kernel).kernel := by
  have all : max 1 (min (2 ^ 64) value.length) = value.length := by
    simp only [addressSpace] at inMemory
    omega
  simp only [Pipe.writeChars, Pipe.offered, opened, ↓reduceIte, Kernel.transfer,
    willing kernel.calls, Option.map_some, nonempty, all, List.take_length, Pipe.moveIn, true_and]
  exact willing

theorem readPipe_drains (stream : BufferStream) (size : Nat) (sink : PipeSink)
    (valid : stream.Valid) (pending : 0 < stream.size) (short : stream.size < size)
    (opened : sink.sink.isOpen = true) (willing : Willing sink.kernel) :
    (Chunk.readPipe (.bufferStream stream) size sink).result = stream.size ∧
      (Chunk.readPipe (.bufferStream stream) size sink).chunk.size = 0 ∧
      (Chunk.readPipe (.bufferStream stream) size sink).sink.sink.isOpen = true ∧
      Willing (Chunk.readPipe (.bufferStream stream) size sink).sink.kernel := by
  have bounded := stream.size_bounded valid
  have draws := Chunk.readPipe_draws (.bufferStream stream) size sink valid
  obtain ⟨sent, stillOpen, stillWilling⟩ := writeChars_willing sink.sink
    (load stream.data.bytes 0 (min stream.size size)) sink.kernel opened willing
    (by rw [load_length]; omega) (by rw [load_length]; omega)
  have taken : (Chunk.readPipe (.bufferStream stream) size sink).result = stream.size :=
    sent.trans (by rw [load_length, Nat.min_eq_left (by omega)])
  refine ⟨taken, ?_, stillOpen, stillWilling⟩
  rw [taken, Int.toNat_natCast] at draws
  rw [Chunk.size_eq_length _ draws.valid, draws.unread_eq]
  simp [Chunk.unread]

theorem readPipe_spins (rounds size result : Nat) (chunks : List Chunk) (sink : PipeSink)
    (valid : AllValid chunks) (meets : MeetsPipe chunks size) (opened : sink.sink.isOpen = true)
    (willing : Willing sink.kernel) :
    (readLoop Chunk.readPipe rounds chunks size result sink).returned = false := by
  induction rounds generalizing chunks size result sink with
  | zero => rfl
  | succ rounds ih =>
      cases chunks with
      | nil => exact absurd meets id
      | cons front rest =>
          obtain ⟨first, others⟩ := List.forall_mem_cons.mp valid
          cases front with
          | pipe channel =>
              obtain ⟨wanted, pending⟩ := meets
              have running : ¬ ((Chunk.pipe channel).size = 0 ∨ size = 0) := by
                simp only [Chunk.size]
                omega
              have stays : ¬ (Chunk.pipe channel).size = 0 := fun zero => running (Or.inl zero)
              rw [readLoop_round _ rounds size result _ rest sink running (Int.lt_irrefl 0)]
              show (readLoop _ rounds (if (Chunk.pipe channel).size = 0 then rest
                else Chunk.pipe channel :: rest) (sub size 0) result sink).returned = false
              rw [if_neg stays, sub_exact (Nat.zero_le _)]
              exact ih _ _ _ _ valid ⟨wanted, pending⟩ opened willing
          | bufferStream stream =>
              obtain ⟨wanted, pending, further⟩ := meets
              have running : ¬ ((Chunk.bufferStream stream).size = 0 ∨ size = 0) := by
                simp only [Chunk.size]
                omega
              have short : stream.size < size := by
                by_contra whole
                rw [Nat.sub_eq_zero_of_le (by omega)] at further
                exact meetsPipe_zero rest further
              obtain ⟨taken, drained, stillOpen, stillWilling⟩ :=
                readPipe_drains stream size sink first pending short opened willing
              rw [readLoop_round _ rounds size result _ rest sink running (by rw [taken]; omega),
                if_pos drained, taken, Int.toNat_natCast, sub_exact (by omega)]
              exact ih _ _ _ _ others further stillOpen stillWilling

/-- `read(char*)` and `read(fd)` return under every kernel, whatever chunks they meet;
`read(Pipe*)` does so exactly when it meets no non-empty pipe chunk. -/
theorem loops_return_iff (stream : ChunkedStream) (valid : AllValid stream.chunks) (size : Nat) :
    (∀ memory start kernel,
      Returns fun rounds => stream.readChars rounds size ⟨memory, start, kernel⟩) ∧
    (∀ kernel, Returns fun rounds => stream.readFd rounds size kernel) ∧
    ((∀ kernel sink, Returns fun rounds => stream.readPipe rounds sink size kernel) ↔
      ¬ MeetsPipe stream.chunks size) := by
  refine ⟨?_, ?_, ?_, ?_⟩
  · intro memory start kernel
    exact ⟨size + 1, readLoop_returns _ Chunk.readChars_draws Chunk.readChars_advances _ _ _ _ _
      valid (Nat.lt_succ_self size)⟩
  · intro kernel
    exact ⟨size + 1, readLoop_returns _ Chunk.readFd_draws Chunk.readFd_advances _ _ _ _ _
      valid (Nat.lt_succ_self size)⟩
  · intro returns meets
    obtain ⟨rounds, returned⟩ := returns .willing ⟨true, 0, []⟩
    have spins := readPipe_spins rounds size 0 stream.chunks ⟨⟨true, 0, []⟩, .willing⟩ valid meets
      rfl (fun _ => rfl)
    exact Bool.false_ne_true (spins.symm.trans returned)
  · intro clear kernel sink
    exact ⟨size + 1, readPipe_returns _ _ _ _ _ valid clear (Nat.lt_succ_self size)⟩

-- Two buffered bytes are in front of the pipe, so a `read(Pipe*)` of two returns and one of
-- three spins, while a `read(fd)` of three takes the byte out of the pipe and returns.
theorem loops_return_iff_two :
    let stream : ChunkedStream := ⟨[.bufferStream ⟨⟨none, fun _ => 97, 2, 2⟩, 0⟩,
      .pipe ⟨true, 1, [98]⟩]⟩
    (Returns fun rounds => stream.readPipe rounds ⟨true, 0, []⟩ 2 .willing) ∧
      (¬ ∀ kernel sink, Returns fun rounds => stream.readPipe rounds sink 3 kernel) ∧
      Returns fun rounds => stream.readFd rounds 3 .willing := by
  intro stream
  have buffered : BufferStream.Valid ⟨⟨none, fun _ => 97, 2, 2⟩, 0⟩ :=
    ⟨⟨by decide, by decide⟩, by decide⟩
  have queued : Pipe.Exact ⟨true, 1, [98]⟩ := ⟨rfl, fun closed => by cases closed⟩
  have valid : AllValid stream.chunks :=
    List.forall_mem_cons.mpr ⟨buffered, List.forall_mem_singleton.mpr queued⟩
  refine ⟨?_, ?_, ?_⟩
  · have clear : ¬ MeetsPipe stream.chunks 2 := fun meets => Nat.lt_irrefl 0 meets.2.2.1
    exact (loops_return_iff stream valid 2).2.2.mpr clear .willing ⟨true, 0, []⟩
  · intro returns
    have meets : MeetsPipe stream.chunks 3 := ⟨by decide, by decide, by decide, by decide⟩
    exact (loops_return_iff stream valid 3).2.2.mp returns meets
  · exact (loops_return_iff stream valid 3).2.1 .willing

/-- A deque of one non-empty pipe: every round of `read(Pipe*)` returns 0 bytes and
leaves the chunk where it was. -/
theorem readPipe_spins_on_pipe :
    let stream : ChunkedStream := ⟨[.pipe ⟨true, 1, [97]⟩]⟩
    AllValid stream.chunks ∧ ∀ rounds,
      (stream.readPipe rounds ⟨true, 0, []⟩ 1 .willing).returned = false := by
  intro stream
  have valid : AllValid stream.chunks :=
    List.forall_mem_singleton.mpr ⟨rfl, fun closed => by cases closed⟩
  refine ⟨valid, ?_⟩
  intro rounds
  exact readPipe_spins rounds 1 0 stream.chunks _ valid ⟨Nat.one_pos, Nat.one_pos⟩ rfl
    (fun _ => rfl)

end Xio.ReadLoops
