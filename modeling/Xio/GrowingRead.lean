import Xio.Pipe

/-!
`Pipe::read(Buffer&, size)` and `Socket::read(Buffer&, size)` are one loop over different
descriptors: make room, `::read` behind the content, go on while the reads come back full.
The loop is modelled over any descriptor and keeps the reads it issues. A pipe reads from
its queue; what a socket reads is the kernel's choice.
-/

namespace Xio.GrowingRead

open Storage MachineWord Environment

/-- What `::read` can do: fail, or deliver at most as many bytes as it was asked for. -/
structure Descriptor (State : Type) where
  read : State → Nat → Option (List UInt8) × State
  limited : ∀ state length bytes, (read state length).1 = some bytes → bytes.length ≤ length

structure Issued where
  length : Nat
  delivered : Option (List UInt8)

structure Outcome (State : Type) where
  ended : Bool
  result : Int
  issued : List Issued
  state : State
  buffer : Buffer
  heap : Heap

variable {State : Type}

-- The kernel stores at `end()` and the buffer is resized over it.
def fill (buffer : Buffer) (bytes : List UInt8) : Buffer :=
  let filled := { buffer with bytes := store buffer.bytes buffer.size bytes }
  (filled.resize (add filled.size bytes.length)).2

def loop (descriptor : Descriptor State) :
    Nat → Nat → Nat → State → Buffer → Heap → Outcome State
  | 0, size, nread, state, buffer, heap => ⟨decide (size = 0), nread, [], state, buffer, heap⟩
  | rounds + 1, size, nread, state, buffer, heap =>
      if size = 0 then ⟨true, nread, [], state, buffer, heap⟩
      else
        let room := Pipe.readRoom buffer heap
        let failed : Int := if nread = 0 then -1 else nread
        if !room.ok then ⟨true, failed, [], state, room.buffer, room.heap⟩
        else
          let nbytes := min (sub room.buffer.capacity room.buffer.size) size
          let read := descriptor.read state nbytes
          let issue : Issued := ⟨nbytes, read.1⟩
          match read.1 with
          | none => ⟨true, failed, [issue], read.2, room.buffer, room.heap⟩
          | some bytes =>
              if bytes.length = 0 then ⟨true, nread, [issue], read.2, room.buffer, room.heap⟩
              else
                let grown := fill room.buffer bytes
                if bytes.length < nbytes then
                  ⟨true, (nread + bytes.length : Nat), [issue], read.2, grown, room.heap⟩
                else
                  let rest := loop descriptor rounds (sub size bytes.length)
                    (nread + bytes.length) read.2 grown room.heap
                  { rest with issued := issue :: rest.issued }

-- Each round takes at least one byte or returns, so `size` rounds are enough.
def readBuffer (descriptor : Descriptor State) (state : State) (result : Buffer) (size : Nat)
    (heap : Heap) : Outcome State :=
  loop descriptor size size 0 state result heap

def readEnd : Descriptor (Pipe × Kernel) where
  read := fun (pipe, kernel) length =>
    match pipe.offered kernel (min length pipe.queue.length) with
    | none => (none, pipe, kernel.next)
    | some n => (some (pipe.queue.take n), { pipe with queue := pipe.queue.drop n }, kernel.next)
  limited := by
    rintro ⟨pipe, kernel⟩ length bytes read
    cases offer : pipe.offered kernel (min length pipe.queue.length) with
    | none => simp [offer] at read
    | some n =>
        have limit := (Pipe.offered_le pipe kernel _ n offer).1
        simp only [offer, Option.some.injEq] at read
        rw [← read, List.length_take]
        omega

-- The result as the pipe's own model has it.
def Outcome.atPipe (outcome : Outcome (Pipe × Kernel)) : Pipe.ReadBuffer :=
  ⟨outcome.result, outcome.state.1, outcome.buffer, ⟨outcome.heap, outcome.state.2⟩⟩

def connection : Descriptor Kernel where
  read := fun kernel length => (kernel.receive length, kernel.next)
  limited := fun kernel length bytes read => kernel.receive_length_le length bytes read

end Xio.GrowingRead

namespace Xio.Socket

open Environment GrowingRead

def readBuffer (result : Buffer) (size : Nat) (world : World) : Outcome Kernel :=
  GrowingRead.readBuffer connection world.kernel result size world.heap

end Xio.Socket

namespace Xio.GrowingRead

open Storage MachineWord Environment

variable {State : Type}

theorem readEnd_loop (rounds size nread : Nat) (pipe : Pipe) (buffer : Buffer) (world : World) :
    Pipe.readBufferLoop rounds size nread pipe buffer world =
      (loop readEnd rounds size nread (pipe, world.kernel) buffer world.heap).atPipe := by
  induction rounds generalizing size nread pipe buffer world with
  | zero => rfl
  | succ rounds ih =>
      simp only [Pipe.readBufferLoop, loop, fill]
      by_cases finished : size = 0
      · simp only [if_pos finished, Outcome.atPipe]
      simp only [if_neg finished]
      by_cases refused : (!(Pipe.readRoom buffer world.heap).ok) = true
      · simp only [if_pos refused, Outcome.atPipe]
      simp only [if_neg refused, readEnd]
      cases offer : pipe.offered world.kernel (min (min (sub
          (Pipe.readRoom buffer world.heap).buffer.capacity
          (Pipe.readRoom buffer world.heap).buffer.size) size) pipe.queue.length) with
      | none => rfl
      | some n =>
          have limit := (Pipe.offered_le pipe world.kernel _ n offer).1
          have count : (pipe.queue.take n).length = n := by
            rw [List.length_take]
            omega
          simp only [count]
          by_cases nothing : n = 0
          · subst nothing
            rfl
          simp only [if_neg nothing]
          split
          · rfl
          · exact ih _ _ _ _ ⟨_, _⟩

theorem readEnd_readBuffer (pipe : Pipe) (result : Buffer) (size : Nat) (world : World) :
    pipe.readBuffer result size world =
      (readBuffer readEnd (pipe, world.kernel) result size world.heap).atPipe :=
  readEnd_loop size size 0 pipe result world

/-! What the loop promises. -/

def delivered (issued : List Issued) : List UInt8 :=
  issued.flatMap fun issue => issue.delivered.getD []

/-- The reads that are to be issued from here on. Each asks for at least one byte, and for
no more than the buffer has room for and is still wanted; it delivers what the descriptor
answers. A short one is the last; after a full one the bytes are behind the content and
the loop goes on until nothing is wanted or there is no memory. -/
def Issues (descriptor : Descriptor State) : Nat → State → Buffer → Heap → List Issued → Prop
  | wanted, _, buffer, heap, [] => wanted = 0 ∨ (Pipe.readRoom buffer heap).ok = false
  | wanted, state, buffer, heap, issue :: rest =>
      let room := Pipe.readRoom buffer heap
      let answer := descriptor.read state issue.length
      let bytes := answer.1.getD []
      (room.ok = true ∧ 1 ≤ issue.length ∧
          issue.length ≤ min (room.buffer.capacity - room.buffer.size) wanted) ∧
        issue.delivered = answer.1 ∧
        if bytes.length < issue.length then rest = []
        else Issues descriptor (wanted - bytes.length) answer.2 (fill room.buffer bytes)
          room.heap rest

def served (descriptor : Descriptor State) (state : State) (issued : List Issued) : State :=
  issued.foldl (fun state issue => (descriptor.read state issue.length).2) state

/-- Nothing was appended because nothing was asked for, because the kernel had nothing or
failed, or because there is no memory. -/
def Unfilled (buffer : Buffer) (size : Nat) (heap : Heap) (outcome : Outcome State) : Prop :=
  (size = 0 ∧ outcome.issued = [] ∧ outcome.result = 0) ∨
    (∃ issue, outcome.issued = [issue] ∧
      (issue.delivered = some [] ∧ outcome.result = 0 ∨
        issue.delivered = none ∧ outcome.result = -1)) ∨
    ((Pipe.readRoom buffer heap).ok = false ∧ outcome.issued = [] ∧ outcome.result = -1)

structure Correct (descriptor : Descriptor State) (state : State) (buffer : Buffer) (size : Nat)
    (heap : Heap) (outcome : Outcome State) : Prop where
  ended : outcome.ended = true
  issues : Issues descriptor size state buffer heap outcome.issued
  state_eq : outcome.state = served descriptor state outcome.issued
  content_eq : outcome.buffer.content = buffer.content ++ delivered outcome.issued
  limit : (delivered outcome.issued).length ≤ size
  counted : delivered outcome.issued ≠ [] → outcome.result = (delivered outcome.issued).length
  unfilled : delivered outcome.issued = [] → Unfilled buffer size heap outcome

/-! One round. -/

/-- Less than 256 bytes of room always make the request exceed the capacity, so a granted
one leaves room for a byte. -/
theorem readRoom_secures (buffer : Buffer) (heap : Heap) (valid : buffer.Valid)
    (small : buffer.size < 2 ^ 52) :
    (Pipe.readRoom buffer heap).buffer.Valid ∧ buffer.Kept (Pipe.readRoom buffer heap).buffer ∧
      ((Pipe.readRoom buffer heap).ok = true →
        buffer.size < (Pipe.readRoom buffer heap).buffer.capacity) := by
  have fits := valid.fits
  simp only [Pipe.readRoom]
  split
  · have grown := Buffer.reserve_grows buffer (max 4096 (buffer.size * 3 / 2)) heap valid
      (by omega) (by simp only [Buffer.chunkSize]; omega)
    exact ⟨grown.valid, grown.kept, fun ok => by have room := grown.room ok; omega⟩
  · rename_i roomy
    rw [sub_exact fits] at roomy
    exact ⟨valid, Buffer.kept_refl buffer, fun _ => by show buffer.size < buffer.capacity; omega⟩

theorem fill_content (buffer : Buffer) (bytes : List UInt8) (valid : buffer.Valid)
    (room : buffer.size + bytes.length ≤ buffer.capacity) :
    (fill buffer bytes).Valid ∧ (fill buffer bytes).size = buffer.size + bytes.length ∧
      (fill buffer bytes).content = buffer.content ++ bytes := by
  have bounded := valid.bounded
  simp only [addressSpace] at bounded
  have sum : add buffer.size bytes.length = buffer.size + bytes.length := add_exact (by omega)
  simp only [fill, sum, MutableBuffer.resize, if_neg (Nat.not_lt.mpr room)]
  refine ⟨⟨room, valid.bounded⟩, trivial, ?_⟩
  exact load_store_behind buffer.bytes buffer.size bytes

structure Advances (descriptor : Descriptor State) (state : State) (buffer : Buffer) (heap : Heap)
    (size nread : Nat) (outcome : Outcome State) : Prop where
  ended : outcome.ended = true
  issues : Issues descriptor size state buffer heap outcome.issued
  state_eq : outcome.state = served descriptor state outcome.issued
  content_eq : outcome.buffer.content = buffer.content ++ delivered outcome.issued
  limit : (delivered outcome.issued).length ≤ size
  counted : nread + (delivered outcome.issued).length ≠ 0 →
    outcome.result = (nread + (delivered outcome.issued).length : Nat)

section Rounds
variable (descriptor : Descriptor State) (state : State) (buffer : Buffer) (heap : Heap)
variable (size nread : Nat)

theorem returned_advances (after : Buffer) (result : Int) (later : Heap)
    (stops : size = 0 ∨ (Pipe.readRoom buffer heap).ok = false)
    (same : after.content = buffer.content) (counted : nread ≠ 0 → result = nread) :
    Advances descriptor state buffer heap size nread ⟨true, result, [], state, after, later⟩ :=
  ⟨rfl, stops, rfl, by rw [same]; exact (List.append_nil _).symm, Nat.zero_le size, counted⟩

def Asks (length : Nat) : Prop :=
  (Pipe.readRoom buffer heap).ok = true ∧ 1 ≤ length ∧
    length ≤ min ((Pipe.readRoom buffer heap).buffer.capacity -
      (Pipe.readRoom buffer heap).buffer.size) size

theorem short_advances (length : Nat) (answer : Option (List UInt8)) (next : State)
    (middle : Buffer) (result : Int) (asked : Asks buffer heap size length)
    (answered : descriptor.read state length = (answer, next))
    (short : (answer.getD []).length < length)
    (appended : middle.content = buffer.content ++ answer.getD [])
    (counted : nread + (answer.getD []).length ≠ 0 →
      result = (nread + (answer.getD []).length : Nat)) :
    Advances descriptor state buffer heap size nread
      ⟨true, result, [⟨length, answer⟩], next, middle, (Pipe.readRoom buffer heap).heap⟩ := by
  have within := asked.2.2
  have all : delivered [⟨length, answer⟩] = answer.getD [] := by simp [delivered]
  refine ⟨rfl, ?_, ?_, ?_, ?_, ?_⟩
  · simp only [Issues, answered, if_pos short]
    exact ⟨asked, trivial, trivial⟩
  · simp only [served, List.foldl_cons, List.foldl_nil, answered]
  · rw [all]
    exact appended
  · rw [all]
    omega
  · rw [all]
    exact counted

theorem full_advances (length : Nat) (bytes : List UInt8) (next : State) (rest : Outcome State)
    (asked : Asks buffer heap size length)
    (answered : descriptor.read state length = (some bytes, next)) (full : bytes.length = length)
    (appended : (fill (Pipe.readRoom buffer heap).buffer bytes).content = buffer.content ++ bytes)
    (advances : Advances descriptor next (fill (Pipe.readRoom buffer heap).buffer bytes)
      (Pipe.readRoom buffer heap).heap (size - bytes.length) (nread + bytes.length) rest) :
    Advances descriptor state buffer heap size nread
      { rest with issued := ⟨length, some bytes⟩ :: rest.issued } := by
  have within := asked.2.2
  have more := advances.limit
  have counted := advances.counted
  refine ⟨advances.ended, ?_, ?_, ?_, ?_, ?_⟩
  · simp only [Issues, answered, Option.getD_some, full, Nat.lt_irrefl, ↓reduceIte]
    exact ⟨asked, trivial, full ▸ advances.issues⟩
  · simp only [served, List.foldl_cons, answered]
    exact advances.state_eq
  · rw [advances.content_eq, appended, List.append_assoc]
    rfl
  · simp only [delivered, List.flatMap_cons, Option.getD_some, List.length_append] at more ⊢
    omega
  · intro something
    simp only [delivered, List.flatMap_cons, Option.getD_some, List.length_append,
      Nat.add_assoc] at counted something ⊢
    exact counted something

end Rounds

theorem loop_advances (descriptor : Descriptor State) (rounds size nread : Nat) (state : State)
    (buffer : Buffer) (heap : Heap) (valid : buffer.Valid) (small : buffer.size + size < 2 ^ 52)
    (enough : size ≤ rounds) :
    Advances descriptor state buffer heap size nread
      (loop descriptor rounds size nread state buffer heap) := by
  induction rounds generalizing size nread state buffer heap with
  | zero =>
      have finished : size = 0 := by omega
      subst finished
      exact returned_advances descriptor state buffer heap 0 nread buffer nread heap
        (Or.inl rfl) rfl fun _ => rfl
  | succ rounds ih =>
      obtain ⟨room_valid, kept, room⟩ := readRoom_secures buffer heap valid (by omega)
      have same := Buffer.content_of_kept kept
      have sized := kept.size_eq
      simp only [loop]
      by_cases finished : size = 0
      · rw [if_pos finished]
        exact returned_advances descriptor state buffer heap size nread buffer nread heap
          (Or.inl finished) rfl fun _ => rfl
      rw [if_neg finished]
      cases granted : (Pipe.readRoom buffer heap).ok with
      | false =>
          exact returned_advances descriptor state buffer heap size nread _ _ _
            (Or.inr granted) same fun earlier => if_neg earlier
      | true =>
          have space := room granted
          simp only [Bool.not_true, Bool.false_eq_true, ↓reduceIte, sub_exact room_valid.fits]
          generalize length_eq : min ((Pipe.readRoom buffer heap).buffer.capacity -
            (Pipe.readRoom buffer heap).buffer.size) size = nbytes
          have asked : Asks buffer heap size nbytes :=
            ⟨granted, by omega, Nat.le_of_eq length_eq.symm⟩
          have unfilled : (Pipe.readRoom buffer heap).buffer.content = buffer.content ++ [] := by
            rw [same, List.append_nil]
          have limited := descriptor.limited state nbytes
          cases answered : descriptor.read state nbytes with
          | mk answer next =>
          rw [answered] at limited
          cases answer with
          | none =>
              exact short_advances descriptor state buffer heap size nread nbytes none next _ _
                asked answered asked.2.1 unfilled fun earlier => if_neg earlier
          | some bytes =>
              have limit := limited bytes rfl
              simp only
              by_cases nothing : bytes.length = 0
              · rw [if_pos nothing]
                have empty_read : bytes = [] := List.length_eq_zero_iff.mp nothing
                subst empty_read
                exact short_advances descriptor state buffer heap size nread nbytes (some [])
                  next _ _ asked answered asked.2.1 unfilled fun _ => rfl
              rw [if_neg nothing]
              obtain ⟨grown_valid, longer, appended⟩ :=
                fill_content (Pipe.readRoom buffer heap).buffer bytes room_valid (by omega)
              rw [same] at appended
              by_cases short : bytes.length < nbytes
              · rw [if_pos short]
                exact short_advances descriptor state buffer heap size nread nbytes (some bytes)
                  next _ _ asked answered short appended fun _ => rfl
              · rw [if_neg short, sub_exact (by omega)]
                exact full_advances descriptor state buffer heap size nread nbytes bytes next _
                  asked answered (by omega) appended
                  (ih (size - bytes.length) _ _ _ _ grown_valid (by omega) (by omega))

theorem loop_unfilled (descriptor : Descriptor State) (size : Nat) (state : State)
    (buffer : Buffer) (heap : Heap)
    (nothing : delivered (readBuffer descriptor state buffer size heap).issued = []) :
    Unfilled buffer size heap (readBuffer descriptor state buffer size heap) := by
  cases size with
  | zero => exact Or.inl ⟨rfl, rfl, rfl⟩
  | succ size =>
      simp only [Unfilled, readBuffer, loop, Nat.succ_ne_zero, ↓reduceIte] at nothing ⊢
      cases granted : (Pipe.readRoom buffer heap).ok with
      | false => simp
      | true =>
          simp only [granted, Bool.not_true, Bool.false_eq_true, ↓reduceIte] at nothing ⊢
          generalize min (sub (Pipe.readRoom buffer heap).buffer.capacity
            (Pipe.readRoom buffer heap).buffer.size) (size + 1) = nbytes at nothing ⊢
          generalize descriptor.read state nbytes = read at nothing ⊢
          obtain ⟨answer, next⟩ := read
          cases answer with
          | none => simp
          | some bytes =>
              by_cases empty_read : bytes.length = 0
              · simp [List.length_eq_zero_iff.mp empty_read]
              · -- a byte that was read is a byte that was delivered
                simp only [if_neg empty_read] at nothing
                have some_bytes : bytes ≠ [] := fun none => empty_read (by rw [none]; rfl)
                split at nothing <;> simp [delivered, some_bytes] at nothing

theorem readBuffer_correct (descriptor : Descriptor State) (state : State) (result : Buffer)
    (size : Nat) (heap : Heap) (fits : result.size ≤ result.capacity)
    (small : result.capacity < 2 ^ 50) (request : size < 2 ^ 50) :
    Correct descriptor state result size heap (readBuffer descriptor state result size heap) := by
  have valid : result.Valid := ⟨fits, by simp only [addressSpace]; omega⟩
  have advances := loop_advances descriptor size size 0 state result heap valid (by omega)
    (Nat.le_refl size)
  refine ⟨advances.ended, advances.issues, advances.state_eq, advances.content_eq, advances.limit,
    ?_, loop_unfilled descriptor size state result heap⟩
  intro something
  have length := List.length_pos_iff.mpr something
  have counted := advances.counted
  rw [Nat.zero_add] at counted
  exact counted (Nat.ne_of_gt length)

/-- The growing read, for any descriptor: it ends, every `::read` is within the room and
the request, the delivered bytes are the descriptor's answers, appended in order and
counted, and a count of none is told by its cause. The pipe's and the socket's reads are
this loop. -/
theorem growing_read_correct (descriptor : Descriptor State) (state : State) (pipe : Pipe)
    (result : Buffer) (size : Nat) (world : World) (fits : result.size ≤ result.capacity)
    (small : result.capacity < 2 ^ 50) (request : size < 2 ^ 50) :
    Correct descriptor state result size world.heap
        (readBuffer descriptor state result size world.heap) ∧
      (pipe.readBuffer result size world =
          (readBuffer readEnd (pipe, world.kernel) result size world.heap).atPipe ∧
        Correct readEnd (pipe, world.kernel) result size world.heap
          (readBuffer readEnd (pipe, world.kernel) result size world.heap)) ∧
      Socket.readBuffer result size world =
          readBuffer connection world.kernel result size world.heap ∧
        Correct connection world.kernel result size world.heap
          (Socket.readBuffer result size world) :=
  ⟨readBuffer_correct descriptor state result size world.heap fits small request,
    ⟨readEnd_readBuffer pipe result size world,
      readBuffer_correct readEnd (pipe, world.kernel) result size world.heap fits small request⟩,
    rfl, readBuffer_correct connection world.kernel result size world.heap fits small request⟩

theorem growing_read_correct_started :
    Correct connection Kernel.willing (MutableBuffer.empty : Buffer) 7 Heap.generous
        (Socket.readBuffer MutableBuffer.empty 7 ⟨Heap.generous, Kernel.willing⟩) ∧
      (Socket.readBuffer MutableBuffer.empty 7 ⟨Heap.generous, Kernel.willing⟩).result = 7 :=
  ⟨(growing_read_correct connection Kernel.willing ⟨true, 0, []⟩ MutableBuffer.empty 7
    ⟨Heap.generous, Kernel.willing⟩ (by decide) (by decide) (by decide)).2.2.2, by decide⟩

end Xio.GrowingRead
