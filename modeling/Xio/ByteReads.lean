import Xio.ChunkedStream

/-!
`read()` without arguments: one byte, or -1. The three classes promote a signed `char`
to the `int` they return, so the value is the byte modulo 256 and -1 is a byte too. What
the caller sees is compared with what leaves the stream.
-/

namespace Xio.ByteReads

open Storage MachineWord Environment
open ChunkedStream (contents AllValid popped_contents popped_valid)

inductive ByteStream where
  | bufferStream (stream : BufferStream)
  | pipe (channel : Pipe)
  | chunked (stream : ChunkedStream)

structure ByteRead where
  result : Int
  bytes : List UInt8
  stream : ByteStream
  kernel : Kernel

def Readable (channel : Pipe) (kernel : Kernel) : Prop :=
  channel.isOpen = true ∧ (kernel.answers kernel.calls).isSome = true

namespace ByteStream

def readByte : ByteStream → Kernel → ByteRead
  | .bufferStream stream, kernel =>
      let read := stream.readByte
      ⟨read.result, read.bytes, .bufferStream read.stream, kernel⟩
  | .pipe channel, kernel =>
      let moved := channel.readByte kernel
      ⟨moved.result, moved.bytes, .pipe moved.pipe, moved.kernel⟩
  | .chunked stream, kernel =>
      let (loop, bytes) := stream.readByte kernel
      ⟨loop.result, bytes, .chunked ⟨loop.chunks⟩, loop.sink⟩

def unread : ByteStream → List UInt8
  | .bufferStream stream => stream.unread
  | .pipe channel => channel.queue
  | .chunked stream => contents stream.chunks

def Valid : ByteStream → Prop
  | .bufferStream stream => stream.Valid
  | .pipe _ => True
  | .chunked stream => AllValid stream.chunks

def Succeeds : ByteStream → Kernel → Prop
  | .bufferStream _, _ => True
  | .pipe channel, kernel => Readable channel kernel
  | .chunked stream, kernel =>
      ∀ channel, stream.chunks.head? = some (.pipe channel) → Readable channel kernel

/-- The read looks for a byte at all: the pipe's counter is not 0, or the front chunk has
something to read. -/
def Ready : ByteStream → Prop
  | .bufferStream _ => True
  | .pipe channel => channel.size ≠ 0
  | .chunked stream => ∀ front ∈ stream.chunks.head?, front.size ≠ 0

end ByteStream

/-! One read: it takes the front byte, or nothing. -/

structure Takes (stream : ByteStream) (kernel : Kernel) (byte : UInt8) (rest : List UInt8) :
    Prop where
  bytes_eq : (stream.readByte kernel).bytes = [byte]
  unread_eq : (stream.readByte kernel).stream.unread = rest
  result_eq : (stream.readByte kernel).result = Pipe.promoted byte
  valid : (stream.readByte kernel).stream.Valid

structure Idles (stream : ByteStream) (kernel : Kernel) : Prop where
  bytes_eq : (stream.readByte kernel).bytes = []
  unread_eq : (stream.readByte kernel).stream.unread = stream.unread
  result_eq : (stream.readByte kernel).result = -1

theorem bufferStream_takes (stream : BufferStream) (kernel : Kernel) (valid : stream.Valid)
    (byte : UInt8) (rest : List UInt8) (front : stream.unread = byte :: rest) :
    Takes (.bufferStream stream) kernel byte rest := by
  obtain ⟨valid', bytes, unread', result⟩ := stream.readByte_unread valid
  rw [front] at bytes unread' result
  exact ⟨bytes, unread', result, valid'⟩

theorem bufferStream_idles (stream : BufferStream) (kernel : Kernel) (valid : stream.Valid)
    (nothing : stream.unread = []) : Idles (.bufferStream stream) kernel := by
  obtain ⟨_, bytes, unread', result⟩ := stream.readByte_unread valid
  rw [nothing] at bytes unread' result
  exact ⟨bytes, unread'.trans nothing.symm, result⟩

theorem pipe_readByte (channel : Pipe) (kernel : Kernel) (counted : channel.size ≠ 0)
    (readable : Readable channel kernel) (byte : UInt8) (rest : List UInt8)
    (front : channel.queue = byte :: rest) :
    channel.readByte kernel = ⟨Pipe.promoted byte, [byte],
      { channel with size := sub channel.size 1, queue := rest }, kernel.next⟩ := by
  obtain ⟨wanted, answer⟩ := Option.isSome_iff_exists.mp readable.2
  have one : channel.offered kernel (min 1 channel.queue.length) = some 1 := by
    rw [front]
    simp only [Pipe.offered, readable.1, Kernel.transfer, answer, List.length_cons, ↓reduceIte,
      Option.map_some, Option.some.injEq]
    split <;> omega
  simp only [Pipe.readByte, if_neg counted, Pipe.readChars, Pipe.moveOut, one]
  simp only [front]
  rfl

theorem pipe_takes (channel : Pipe) (kernel : Kernel) (counted : channel.size ≠ 0)
    (readable : Readable channel kernel) (byte : UInt8) (rest : List UInt8)
    (front : channel.queue = byte :: rest) : Takes (.pipe channel) kernel byte rest := by
  have moved := pipe_readByte channel kernel counted readable byte rest front
  exact ⟨congrArg Moved.bytes moved, congrArg (fun moved => moved.pipe.queue) moved,
    congrArg Moved.result moved, trivial⟩

-- An answered read of an open pipe can only find it empty.
theorem moveOut_idles (channel : Pipe) (kernel : Kernel)
    (idle : channel.queue = [] ∨ ¬ Readable channel kernel) :
    (channel.moveOut 1 kernel).bytes = [] ∧ (channel.moveOut 1 kernel).pipe = channel ∧
      (channel.moveOut 1 kernel).result ≠ 1 := by
  simp only [Pipe.moveOut]
  cases offer : channel.offered kernel (min 1 channel.queue.length) with
  | none => simp
  | some n =>
      have limit := Pipe.offered_le channel kernel _ n offer
      have answered : (kernel.answers kernel.calls).isSome = true := by
        simp only [Pipe.offered, limit.2.2, ↓reduceIte, Kernel.transfer] at offer
        rw [← Option.isSome_map, offer]
        rfl
      have nothing : channel.queue = [] :=
        idle.resolve_right fun failed => failed ⟨limit.2.2, answered⟩
      have none_moved : n = 0 := by
        rw [nothing] at limit
        simpa using limit.1
      subst none_moved
      simp [sub_exact]

theorem pipe_idles (channel : Pipe) (kernel : Kernel)
    (idle : ¬ (channel.queue ≠ [] ∧ channel.size ≠ 0 ∧ Readable channel kernel)) :
    (channel.readByte kernel).pipe = channel ∧ Idles (.pipe channel) kernel := by
  suffices moved : (channel.readByte kernel).bytes = [] ∧ (channel.readByte kernel).pipe = channel ∧
      (channel.readByte kernel).result = -1 from
    ⟨moved.2.1, moved.1, congrArg Pipe.queue moved.2.1, moved.2.2⟩
  by_cases uncounted : channel.size = 0
  · simp only [Pipe.readByte, if_pos uncounted, and_self]
  · have nothing : channel.queue = [] ∨ ¬ Readable channel kernel := by
      by_contra both
      simp only [not_or, not_not] at both
      exact idle ⟨both.1, uncounted, both.2⟩
    obtain ⟨bytes, same, result⟩ := moveOut_idles channel kernel nothing
    simp only [Pipe.readByte, if_neg uncounted, Pipe.readChars, bytes, same,
      if_neg result, and_self]

theorem chunk_takes (chunk : Chunk) (kernel : Kernel) (valid : chunk.Valid)
    (pending : chunk.size ≠ 0)
    (readable : ∀ channel, chunk = .pipe channel → Readable channel kernel) (byte : UInt8)
    (rest : List UInt8) (front : chunk.unread = byte :: rest) :
    (chunk.readByte kernel).2 = [byte] ∧ (chunk.readByte kernel).1.chunk.unread = rest ∧
      (chunk.readByte kernel).1.result = Pipe.promoted byte := by
  cases chunk with
  | bufferStream stream =>
      have takes := bufferStream_takes stream kernel valid byte rest front
      exact ⟨takes.bytes_eq, takes.unread_eq, takes.result_eq⟩
  | pipe channel =>
      have takes := pipe_takes channel kernel pending (readable channel rfl) byte rest front
      exact ⟨takes.bytes_eq, takes.unread_eq, takes.result_eq⟩

-- The read of a stream whose front chunk is not empty.
theorem chunked_readByte (first : Chunk) (others : List Chunk) (kernel : Kernel)
    (pending : first.size ≠ 0) :
    (ByteStream.chunked ⟨first :: others⟩).readByte kernel =
      ⟨(first.readByte kernel).1.result, (first.readByte kernel).2,
        .chunked ⟨if (first.readByte kernel).1.chunk.size = 0 then others
          else (first.readByte kernel).1.chunk :: others⟩, (first.readByte kernel).1.sink⟩ := by
  simp only [ByteStream.readByte, ChunkedStream.readByte, if_neg pending]

theorem chunked_takes (stream : ChunkedStream) (kernel : Kernel) (valid : AllValid stream.chunks)
    (ready : (ByteStream.chunked stream).Ready)
    (succeeds : (ByteStream.chunked stream).Succeeds kernel) (byte : UInt8) (rest : List UInt8)
    (front : contents stream.chunks = byte :: rest) : Takes (.chunked stream) kernel byte rest := by
  obtain ⟨chunks⟩ := stream
  cases chunks with
  | nil => cases front
  | cons first others =>
      obtain ⟨first_valid, others_valid⟩ := List.forall_mem_cons.mp valid
      have pending : first.size ≠ 0 := ready first rfl
      have draws := first.readByte_draws first_valid kernel
      -- the front byte of the stream is the front byte of the front chunk
      obtain ⟨more, head, tail⟩ : ∃ more, first.unread = byte :: more ∧
          rest = more ++ contents others := by
        cases held : first.unread with
        | nil => exact absurd ((first.size_eq_zero_iff first_valid).mpr held) pending
        | cons other more =>
            rw [contents, List.flatMap_cons, held, List.cons_append] at front
            obtain ⟨same, tail⟩ := List.cons.inj front
            exact ⟨more, by rw [same], tail.symm⟩
      obtain ⟨bytes, unread', result⟩ := chunk_takes first kernel first_valid pending
        (fun channel same => succeeds channel (by rw [← same]; rfl)) byte more head
      have popped := popped_contents _ others draws.valid
      rw [unread', ← tail] at popped
      have read := chunked_readByte first others kernel pending
      refine ⟨?_, ?_, ?_, ?_⟩
      · rw [read]
        exact bytes
      · rw [read]
        exact popped
      · rw [read]
        exact result
      · rw [read]
        exact popped_valid _ others draws.valid others_valid

-- A front chunk that has something is an unreadable pipe if nothing is taken from it.
theorem chunked_idles (stream : ChunkedStream) (kernel : Kernel) (valid : AllValid stream.chunks)
    (idle : ¬ (contents stream.chunks ≠ [] ∧ (ByteStream.chunked stream).Ready ∧
      (ByteStream.chunked stream).Succeeds kernel)) : Idles (.chunked stream) kernel := by
  obtain ⟨chunks⟩ := stream
  cases chunks with
  | nil => exact ⟨rfl, rfl, rfl⟩
  | cons first others =>
      obtain ⟨first_valid, _⟩ := List.forall_mem_cons.mp valid
      by_cases drained : first.size = 0
      · have read : (ByteStream.chunked ⟨first :: others⟩).readByte kernel =
            ⟨-1, [], .chunked ⟨first :: others⟩, kernel⟩ := by
          simp only [ByteStream.readByte, ChunkedStream.readByte, if_pos drained]
        exact ⟨by rw [read], by rw [read], by rw [read]⟩
      have nonempty : contents (first :: others) ≠ [] := fun nothing =>
        drained ((first.size_eq_zero_iff first_valid).mpr (List.append_eq_nil_iff.mp nothing).1)
      have ready : (ByteStream.chunked ⟨first :: others⟩).Ready := by
        intro front member
        cases member
        exact drained
      cases first with
      | bufferStream front =>
          exact absurd ⟨nonempty, ready, fun channel same => by cases same⟩ idle
      | pipe channel =>
          have failed : ¬ Readable channel kernel := fun readable =>
            idle ⟨nonempty, ready, fun other same => by cases same; exact readable⟩
          obtain ⟨same, idles⟩ := pipe_idles channel kernel fun taking => failed taking.2.2
          have read := chunked_readByte (.pipe channel) others kernel drained
          simp only [Chunk.readByte, same, if_neg drained] at read
          exact ⟨by rw [read]; exact idles.bytes_eq, by rw [read],
            by rw [read]; exact idles.result_eq⟩

theorem read_takes (stream : ByteStream) (kernel : Kernel) (valid : stream.Valid)
    (ready : stream.Ready) (succeeds : stream.Succeeds kernel) (byte : UInt8) (rest : List UInt8)
    (front : stream.unread = byte :: rest) : Takes stream kernel byte rest := by
  cases stream with
  | bufferStream stream => exact bufferStream_takes stream kernel valid byte rest front
  | pipe channel => exact pipe_takes channel kernel ready succeeds byte rest front
  | chunked stream => exact chunked_takes stream kernel valid ready succeeds byte rest front

theorem read_idles (stream : ByteStream) (kernel : Kernel) (valid : stream.Valid)
    (idle : ¬ (stream.unread ≠ [] ∧ stream.Ready ∧ stream.Succeeds kernel)) :
    Idles stream kernel := by
  cases stream with
  | bufferStream stream =>
      apply bufferStream_idles stream kernel valid
      by_contra pending
      exact idle ⟨pending, trivial, trivial⟩
  | pipe channel => exact (pipe_idles channel kernel idle).2
  | chunked stream => exact chunked_idles stream kernel valid idle

/-! What the promotion does to a byte. -/

theorem promoted_emod (byte : UInt8) : Pipe.promoted byte % 256 = byte.toNat := by
  have small := byte.toNat_lt
  simp only [Pipe.promoted]
  split <;> omega

theorem promoted_eq_iff (byte : UInt8) : Pipe.promoted byte = byte.toNat ↔ byte.toNat < 128 := by
  simp only [Pipe.promoted]
  split <;> omega

/-- The contract of `read()` in one state: a byte that can be had leaves the stream and is
returned as it is, and -1 means that none left. -/
structure Distinguishes (stream : ByteStream) (kernel : Kernel) : Prop where
  data : ∀ byte rest, stream.unread = byte :: rest → stream.Succeeds kernel →
    (stream.readByte kernel).stream.unread = rest ∧
      (stream.readByte kernel).result = byte.toNat
  ended : (stream.readByte kernel).result = -1 ↔
    (stream.readByte kernel).stream.unread = stream.unread

theorem distinguishes_iff (stream : ByteStream) (kernel : Kernel) (valid : stream.Valid) :
    Distinguishes stream kernel ↔
      ∀ byte ∈ stream.unread.head?, stream.Succeeds kernel →
        stream.Ready ∧ byte.toNat < 128 := by
  by_cases taking : stream.unread ≠ [] ∧ stream.Ready ∧ stream.Succeeds kernel
  · obtain ⟨pending, ready, succeeds⟩ := taking
    obtain ⟨byte, rest, front⟩ := List.exists_cons_of_ne_nil pending
    have takes := read_takes stream kernel valid ready succeeds byte rest front
    constructor
    · intro contract other member _
      rw [front] at member
      cases member
      have value := (contract.data byte rest front succeeds).2
      rw [takes.result_eq] at value
      exact ⟨ready, (promoted_eq_iff byte).mp value⟩
    · intro small
      have ascii := (small byte (by rw [front]; rfl) succeeds).2
      have value := (promoted_eq_iff byte).mpr ascii
      refine ⟨?_, ?_⟩
      · intro other more same _
        rw [front] at same
        cases same
        exact ⟨takes.unread_eq, takes.result_eq.trans value⟩
      · rw [takes.result_eq, takes.unread_eq, value, front]
        exact ⟨fun impossible => by omega,
          fun same => absurd same (List.cons_ne_self byte rest).symm⟩
  · have idles := read_idles stream kernel valid taking
    constructor
    · intro contract byte member succeeds
      obtain ⟨rest, front⟩ := List.head?_eq_some_iff.mp member
      have gone := (contract.data byte rest front succeeds).1
      rw [idles.unread_eq, front] at gone
      exact absurd gone (List.cons_ne_self byte rest)
    · intro needed
      refine ⟨?_, by rw [idles.result_eq, idles.unread_eq]; simp⟩
      intro byte rest front succeeds
      have ready := (needed byte (by rw [front]; rfl) succeeds).1
      exact absurd ⟨by rw [front]; simp, ready, succeeds⟩ taking

/-! The loop of a caller that reads until -1. -/

structure Drained where
  ended : Bool
  values : List Int
  stream : ByteStream
  kernel : Kernel

def drain : Nat → ByteStream → Kernel → Drained
  | 0, stream, kernel => ⟨false, [], stream, kernel⟩
  | rounds + 1, stream, kernel =>
      let read := stream.readByte kernel
      if read.result = -1 then ⟨true, [], read.stream, read.kernel⟩
      else
        let rest := drain rounds read.stream read.kernel
        { rest with values := read.result :: rest.values }

structure DrainsExactly (unread : List UInt8) (drained : Drained) : Prop where
  ended : drained.ended = true
  values_eq : drained.values = unread.map fun byte => (byte.toNat : Int)
  unread_eq : drained.stream.unread = []

def Serving (kernel : Kernel) : Prop :=
  ∀ call, kernel.calls ≤ call → (kernel.answers call).isSome = true

def Attached : ByteStream → Kernel → Prop
  | .pipe channel, kernel => channel.isOpen = true ∧ Serving kernel
  | _, kernel => Serving kernel

def NoGap : List Chunk → Prop
  | [] => True
  | front :: rest => if front.unread = [] then contents rest = [] else NoGap rest

def Reachable : ByteStream → Prop
  | .bufferStream _ => True
  | .pipe channel => channel.queue.length ≤ channel.size
  | .chunked stream => NoGap stream.chunks

theorem reachable_of_empty (stream : ByteStream) (nothing : stream.unread = []) :
    Reachable stream := by
  cases stream with
  | bufferStream stream => trivial
  | pipe channel =>
      simp only [ByteStream.unread] at nothing
      simp [Reachable, nothing]
  | chunked stream =>
      obtain ⟨chunks⟩ := stream
      cases chunks with
      | nil => trivial
      | cons front rest =>
          obtain ⟨first, others⟩ := List.append_eq_nil_iff.mp nothing
          simp only [Reachable, NoGap, if_pos first]
          exact others

theorem taking_of_reachable (stream : ByteStream) (kernel : Kernel) (valid : stream.Valid)
    (attached : Attached stream kernel) (pending : stream.unread ≠ [])
    (reachable : Reachable stream) : stream.Ready ∧ stream.Succeeds kernel := by
  cases stream with
  | bufferStream stream => exact ⟨trivial, trivial⟩
  | pipe channel =>
      have some_bytes := List.length_pos_iff.mpr pending
      simp only [ByteStream.unread, Reachable] at some_bytes reachable
      exact ⟨by show channel.size ≠ 0; omega, attached.1,
        attached.2 kernel.calls (Nat.le_refl _)⟩
  | chunked stream =>
      obtain ⟨chunks⟩ := stream
      cases chunks with
      | nil => exact absurd rfl pending
      | cons front rest =>
          have front_valid := (List.forall_mem_cons.mp valid).1
          have held : front.unread ≠ [] := by
            intro nothing
            simp only [Reachable, NoGap, if_pos nothing] at reachable
            exact pending (List.append_eq_nil_iff.mpr ⟨nothing, reachable⟩)
          refine ⟨?_, ?_⟩
          · intro first member
            cases member
            exact fun drained => held ((front.size_eq_zero_iff front_valid).mp drained)
          · intro channel same
            cases same
            refine ⟨?_, attached kernel.calls (Nat.le_refl _)⟩
            by_contra closed
            exact held (front_valid.closed (by simpa using closed))

theorem serving_next (kernel : Kernel) (serving : Serving kernel) : Serving kernel.next :=
  fun call later => serving call (Nat.le_of_succ_le later)

-- A byte taken from the front chunk leaves that chunk, or the ones behind it.
theorem chunked_taken_reachable (first : Chunk) (others : List Chunk) (kernel : Kernel)
    (valid : first.Valid) (serving : Serving kernel) (pending : first.size ≠ 0)
    (succeeds : (ByteStream.chunked ⟨first :: others⟩).Succeeds kernel) :
    let read := (ByteStream.chunked ⟨first :: others⟩).readByte kernel
    Attached read.stream read.kernel ∧
      (Reachable read.stream ↔ Reachable (.chunked ⟨first :: others⟩)) := by
  have held : first.unread ≠ [] :=
    fun nothing => pending ((first.size_eq_zero_iff valid).mpr nothing)
  have draws := first.readByte_draws valid kernel
  rw [chunked_readByte first others kernel pending]
  refine ⟨?_, ?_⟩
  · cases first with
    | bufferStream stream => exact serving
    | pipe channel =>
        obtain ⟨byte, rest, queued⟩ := List.exists_cons_of_ne_nil held
        have moved := pipe_readByte channel kernel pending (succeeds channel rfl) byte rest queued
        simp only [Chunk.readByte, moved]
        exact serving_next kernel serving
  · simp only [Reachable, NoGap, if_neg held]
    by_cases drained : (first.readByte kernel).1.chunk.size = 0
    · rw [if_pos drained]
    · rw [if_neg drained]
      rw [Chunk.size_eq_zero_iff _ draws.valid] at drained
      simp only [NoGap, if_neg drained]

theorem taken_reachable (stream : ByteStream) (kernel : Kernel) (valid : stream.Valid)
    (attached : Attached stream kernel) (ready : stream.Ready)
    (succeeds : stream.Succeeds kernel) (byte : UInt8) (rest : List UInt8)
    (front : stream.unread = byte :: rest) :
    Attached (stream.readByte kernel).stream (stream.readByte kernel).kernel ∧
      (Reachable (stream.readByte kernel).stream ↔ Reachable stream) := by
  cases stream with
  | bufferStream stream => exact ⟨attached, Iff.rfl⟩
  | pipe channel =>
      have moved := pipe_readByte channel kernel ready succeeds byte rest front
      have queued : channel.queue = byte :: rest := front
      have counted : channel.size ≠ 0 := ready
      simp only [ByteStream.readByte, moved]
      refine ⟨⟨attached.1, serving_next kernel attached.2⟩, ?_⟩
      simp only [Reachable, queued, List.length_cons]
      rw [sub_exact (by omega)]
      omega
  | chunked stream =>
      obtain ⟨chunks⟩ := stream
      cases chunks with
      | nil => cases front
      | cons first others =>
          exact chunked_taken_reachable first others kernel
            (List.forall_mem_cons.mp valid).1 attached (ready first rfl) succeeds

theorem drain_idle (stream : ByteStream) (kernel : Kernel) (rounds : Nat)
    (idles : Idles stream kernel) :
    DrainsExactly stream.unread (drain (rounds + 1) stream kernel) ↔ stream.unread = [] := by
  simp only [drain, if_pos idles.result_eq]
  constructor
  · intro drains
    exact idles.unread_eq.symm.trans drains.unread_eq
  · intro nothing
    exact ⟨rfl, by rw [nothing]; rfl, idles.unread_eq.trans nothing⟩

theorem drain_taken (stream : ByteStream) (kernel : Kernel) (rounds : Nat) (byte : UInt8)
    (rest : List UInt8) (takes : Takes stream kernel byte rest) :
    DrainsExactly (byte :: rest) (drain (rounds + 1) stream kernel) ↔
      byte.toNat < 128 ∧
        DrainsExactly rest
          (drain rounds (stream.readByte kernel).stream (stream.readByte kernel).kernel) := by
  simp only [drain]
  by_cases ended : (stream.readByte kernel).result = -1
  · -- the byte 255: the loop stops and the byte is lost
    rw [if_pos ended]
    have large : ¬ byte.toNat < 128 := by
      rw [← promoted_eq_iff, ← takes.result_eq, ended]
      omega
    constructor
    · intro drains
      cases drains.values_eq
    · intro both
      exact absurd both.1 large
  · rw [if_neg ended, ← promoted_eq_iff, ← takes.result_eq]
    constructor
    · intro drains
      obtain ⟨value, values⟩ := List.cons.inj drains.values_eq
      exact ⟨value, drains.ended, values, drains.unread_eq⟩
    · rintro ⟨value, drains⟩
      refine ⟨drains.ended, ?_, drains.unread_eq⟩
      rw [List.map_cons, ← value, ← drains.values_eq]

theorem drain_iff (rounds : Nat) (stream : ByteStream) (kernel : Kernel) (valid : stream.Valid)
    (attached : Attached stream kernel) (enough : stream.unread.length < rounds) :
    DrainsExactly stream.unread (drain rounds stream kernel) ↔
      (∀ byte ∈ stream.unread, byte.toNat < 128) ∧ Reachable stream := by
  induction rounds generalizing stream kernel with
  | zero => exact absurd enough (Nat.not_lt_zero _)
  | succ rounds ih =>
      by_cases taking : stream.unread ≠ [] ∧ stream.Ready ∧ stream.Succeeds kernel
      · obtain ⟨pending, ready, succeeds⟩ := taking
        obtain ⟨byte, rest, front⟩ := List.exists_cons_of_ne_nil pending
        have takes := read_takes stream kernel valid ready succeeds byte rest front
        obtain ⟨still, reaches⟩ :=
          taken_reachable stream kernel valid attached ready succeeds byte rest front
        have rest_iff := ih (stream.readByte kernel).stream (stream.readByte kernel).kernel
          takes.valid still (by
            rw [takes.unread_eq]
            rw [front, List.length_cons] at enough
            omega)
        rw [takes.unread_eq, reaches] at rest_iff
        rw [front, drain_taken stream kernel rounds byte rest takes, rest_iff, List.forall_mem_cons,
          and_assoc]
      · have idles := read_idles stream kernel valid taking
        rw [drain_idle stream kernel rounds idles]
        constructor
        · intro nothing
          exact ⟨by rw [nothing]; exact fun _ member => absurd member List.not_mem_nil,
            reachable_of_empty stream nothing⟩
        · rintro ⟨_, reachable⟩
          by_contra pending
          exact taking
            ⟨pending, taking_of_reachable stream kernel valid attached pending reachable⟩

/-- Single reads and the loop that drains with them. The contract of one read needs an
ASCII byte in front, where the pipe's counter or the front chunk lets the read get to it;
the loop needs that of every byte. -/
theorem byte_reads_iff (stream : ByteStream) (kernel : Kernel) (rounds : Nat)
    (valid : stream.Valid) (enough : stream.unread.length < rounds) :
    (Distinguishes stream kernel ↔
        ∀ byte ∈ stream.unread.head?, stream.Succeeds kernel →
          stream.Ready ∧ byte.toNat < 128) ∧
      (Attached stream kernel →
        (DrainsExactly stream.unread (drain rounds stream kernel) ↔
          (∀ byte ∈ stream.unread, byte.toNat < 128) ∧ Reachable stream)) :=
  ⟨distinguishes_iff stream kernel valid,
    fun attached => drain_iff rounds stream kernel valid attached enough⟩

def holding (bytes : List UInt8) : BufferStream :=
  ⟨⟨some 0, store (fun _ => 0) 0 bytes, bytes.length, bytes.length⟩, 0⟩

theorem byte_reads_text :
    Distinguishes (.bufferStream (holding [104, 105])) .willing ∧
      DrainsExactly [104, 105] (drain 3 (.bufferStream (holding [104, 105])) .willing) := by
  have both := byte_reads_iff (.bufferStream (holding [104, 105])) .willing 3
    ⟨⟨by decide, by decide⟩, by decide⟩ (by decide)
  have serving : Serving .willing := fun _ _ => rfl
  have ascii : ∀ byte ∈ ([104, 105] : List UInt8), byte.toNat < 128 :=
    List.forall_mem_cons.mpr ⟨by decide, List.forall_mem_singleton.mpr (by decide)⟩
  refine ⟨both.1.mpr ?_, (both.2 serving).mpr ⟨ascii, trivial⟩⟩
  intro byte member _
  cases member
  exact ⟨trivial, by decide⟩

/-- The byte 255 is removed and reported as the end, so a loop that drains loses it and
all that follows; 200 comes back negative. -/
theorem high_bytes_misreported :
    ((ByteStream.bufferStream (holding [255, 65])).readByte .willing).result = -1 ∧
      ((ByteStream.bufferStream (holding [255, 65])).readByte .willing).stream.unread = [65] ∧
      (drain 3 (.bufferStream (holding [255, 65])) .willing).values = [] ∧
      ((ByteStream.pipe ⟨true, 1, [200]⟩).readByte .willing).result = -56 := by
  decide

end Xio.ByteReads
