import Xio.BufferStream
import Xio.Socket

/-!
The class `Client` of `examples/echo-server.cpp`. It reads into an array of 1024 characters,
appends to a `BufferStream` and writes from there. What the loop reports and what the system
calls return are inputs. A client is deleted in its own handler.
-/

namespace Xio.EchoServer

open Storage Environment MachineWord

structure Interest where
  reads : Bool
  writes : Bool

structure Client where
  socket : Socket
  interest : Interest
  writeBuffer : BufferStream
  close : Bool

inductive Reason where
  | timedOut
  | remoteClosed
  | readError
  | writeError
  | finished
  deriving DecidableEq

/-- One readiness event, with the results of the `read` and the `write` it may lead to. -/
structure Ready where
  read : Bool
  write : Bool
  input : Option (List UInt8)
  room : Option Nat
  world : World

/-- What one call of the handler did. A reason means that it ended in `delete this`. -/
structure Handled where
  client : Client
  reason : Option Reason
  received : List UInt8
  sent : List UInt8
  stops : Bool

/-- `strncmp(text, literal, count) == 0` for texts that end in a null character. -/
def strncmp : Nat → List UInt8 → List UInt8 → Bool
  | 0, _, _ => true
  | count + 1, text, literal =>
      let character := text.head?.getD 0
      character == literal.head?.getD 0 &&
        (character == 0 || strncmp count text.tail literal.tail)

namespace Client

def create (fd : Int) : Client :=
  ⟨(Socket.adopt fd .Operational).on 10, ⟨true, false⟩, ⟨MutableBuffer.empty, 0⟩, false⟩

def watch (client : Client) (interest : Interest) : Client :=
  { client with socket := client.socket.watch, interest }

def onRead (client : Client) (input : Option (List UInt8)) (world : World) : Handled :=
  match input with
  | none => ⟨client, some .readError, [], [], false⟩
  | some bytes =>
      let buf := bytes.take 1024
      let n := buf.length
      if n = 0 then ⟨client, some .remoteClosed, [], [], false⟩
      else
        let written := client.writeBuffer.writeChars buf world
        let stops := strncmp (sub n 2) buf [46, 46]
        let close := stops || strncmp (sub n 2) buf [46]
        let client := { client with writeBuffer := written.stream }.watch ⟨true, true⟩
        ⟨{ client with close := client.close || close }, none, buf, [], stops⟩

def onWrite (client : Client) (room : Option Nat) : Handled :=
  match room with
  | none => ⟨client, some .writeError, [], [], false⟩
  | some room =>
      let n := min room client.writeBuffer.size
      let sent := load client.writeBuffer.data.bytes client.writeBuffer.readOffset n
      let writeBuffer := if 0 < n then client.writeBuffer.shift n else client.writeBuffer
      let client := { client with writeBuffer }
      if writeBuffer.size = 0 then
        if client.close then ⟨client, some .finished, [], sent, false⟩
        else ⟨client.watch ⟨true, false⟩, none, [], sent, false⟩
      else ⟨client, none, [], sent, false⟩

def handle (client : Client) (ready : Ready) : Handled :=
  let first := if ready.read then client.onRead ready.input ready.world
    else ⟨client, none, [], [], false⟩
  match first.reason with
  | some _ => first
  | none =>
      if ready.write then
        { first.client.onWrite ready.room with received := first.received, stops := first.stops }
      else first

end Client

/-! One call of the handler. -/

structure Called (client : Client) : Prop where
  valid : client.writeBuffer.Valid
  operational : client.socket.state = .Operational
  watched : client.socket.io = true
  limited : client.socket.timeout = 10
  reads : client.interest.reads = true
  writes : client.interest.writes = true ↔ client.writeBuffer.unread ≠ []
  closing : client.close = true → client.writeBuffer.unread ≠ []

structure Waiting (client : Client) : Prop extends Called client where
  timed : client.writeBuffer.unread = [] → client.socket.timer = true

/-- The pieces that end the server: any two characters, three that begin with a dot, four that
begin with two dots, and more where a null character follows the two dots. -/
def Stops (piece : List UInt8) : Prop :=
  (∃ a b, piece = [a, b]) ∨ (∃ a b, piece = [46, a, b]) ∨ (∃ a b, piece = [46, 46, a, b]) ∨
    ∃ a b rest, piece = 46 :: 46 :: 0 :: a :: b :: rest

structure Moves (client : Client) (handled : Handled) : Prop where
  balance : handled.sent ++ handled.client.writeBuffer.unread =
    client.writeBuffer.unread ++ handled.received
  fd : handled.client.socket.fd = client.socket.fd
  stops : handled.stops = true ↔ Stops handled.received

structure Echoes (client : Client) (handled : Handled) : Prop extends Moves client handled where
  waiting : handled.reason = none → Waiting handled.client
  finished : handled.reason = some .finished → handled.client.writeBuffer.unread = []

theorem not_stops_nil : ¬ Stops [] := by
  rintro (⟨_, _, same⟩ | ⟨_, _, same⟩ | ⟨_, _, same⟩ | ⟨_, _, _, same⟩) <;> cases same

theorem strncmp_cons (count : Nat) (a b : UInt8) (text literal : List UInt8) :
    strncmp (count + 1) (a :: text) (b :: literal) = true ↔
      a = b ∧ (a = 0 ∨ strncmp count text literal = true) := by
  simp [strncmp]

theorem strncmp_end (count : Nat) (a : UInt8) (text : List UInt8) :
    strncmp (count + 1) (a :: text) [] = true ↔ a = 0 := by
  simp only [strncmp, List.head?_cons, Option.getD_some, List.head?_nil, Option.getD_none,
    Bool.and_eq_true, Bool.or_eq_true, beq_iff_eq]
  exact ⟨fun both => both.1, fun null => ⟨null, Or.inl null⟩⟩

theorem strncmp_short (count : Nat) (b : UInt8) (literal : List UInt8) (other : b ≠ 0) :
    strncmp (count + 1) [] (b :: literal) ≠ true := by
  simp [strncmp, Ne.symm other]

-- With one character the count wraps around, and the null character behind it decides.
theorem strncmp_stops (piece : List UInt8) (some_bytes : piece ≠ []) :
    strncmp (sub piece.length 2) piece [46, 46] = true ↔ Stops piece := by
  have dot : ∀ a : UInt8, a = 46 → a ≠ 0 := by
    rintro a rfl
    decide
  match piece with
  | [] => exact absurd rfl some_bytes
  | [a] =>
      obtain ⟨count, wrapped⟩ : ∃ count, sub [a].length 2 = count + 2 := ⟨2 ^ 64 - 3, rfl⟩
      rw [wrapped, strncmp_cons]
      refine iff_of_false ?_ (by simp [Stops])
      rintro ⟨same, null | more⟩
      · exact dot a same null
      · exact strncmp_short count 46 [] (by decide) more
  | [a, b] => exact iff_of_true rfl (Or.inl ⟨a, b, rfl⟩)
  | [a, b, c] =>
      change strncmp 1 [a, b, c] [46, 46] = true ↔ _
      rw [strncmp_cons]
      simp [Stops, strncmp]
  | [a, b, c, d] =>
      change strncmp 2 [a, b, c, d] [46, 46] = true ↔ _
      rw [strncmp_cons, strncmp_cons]
      constructor
      · rintro ⟨rfl, null | ⟨rfl, _⟩⟩
        · exact absurd null (dot 46 rfl)
        · exact Or.inr (Or.inr (Or.inl ⟨c, d, rfl⟩))
      · rintro (⟨_, _, same⟩ | ⟨_, _, same⟩ | ⟨_, _, same⟩ | ⟨_, _, _, same⟩)
        · cases same
        · cases same
        · cases same
          exact ⟨rfl, Or.inr ⟨rfl, Or.inr rfl⟩⟩
        · cases same
  | a :: b :: c :: d :: e :: rest =>
      change strncmp (rest.length + 3) _ _ = true ↔ _
      rw [strncmp_cons, strncmp_cons, strncmp_end]
      constructor
      · rintro ⟨rfl, null | ⟨rfl, null | rfl⟩⟩
        · exact absurd null (dot 46 rfl)
        · exact absurd null (dot 46 rfl)
        · exact Or.inr (Or.inr (Or.inr ⟨d, e, rest, rfl⟩))
      · rintro (⟨_, _, same⟩ | ⟨_, _, same⟩ | ⟨_, _, same⟩ | ⟨_, _, _, same⟩)
        · cases same
        · cases same
        · cases same
        · cases same
          exact ⟨rfl, Or.inr ⟨rfl, Or.inr rfl⟩⟩

theorem dropped_echoes (client : Client) (reason : Reason) (unfinished : reason ≠ .finished) :
    Echoes client ⟨client, some reason, [], [], false⟩ where
  balance := (List.append_nil _).symm
  fd := rfl
  waiting := fun kept => by cases kept
  finished := fun ended => absurd (Option.some.inj ended) unfinished
  stops := iff_of_false Bool.false_ne_true not_stops_nil

theorem watch_timer (client : Client) (interest : Interest)
    (limited : client.socket.timeout = 10) : (client.watch interest).socket.timer = true := by
  simp [Client.watch, Socket.watch, limited]

theorem onRead_echoes (client : Client) (input : Option (List UInt8)) (world : World)
    (called : Called client)
    (proper : ∀ bytes, input = some bytes → bytes.length < 1024 ∧
      (client.writeBuffer.writeChars bytes world).world.heap.Unrefused) :
    Echoes client (client.onRead input world) := by
  cases input with
  | none => exact dropped_echoes client .readError (by decide)
  | some bytes =>
      obtain ⟨short, granted⟩ := proper bytes rfl
      have whole : bytes.take 1024 = bytes := List.take_of_length_le (Nat.le_of_lt short)
      by_cases nothing : bytes = []
      · subst nothing
        exact dropped_echoes client .remoteClosed (by decide)
      have count : bytes.length ≠ 0 := fun zero => nothing (List.length_eq_zero_iff.mp zero)
      have fits : bytes.length < addressSpace := by
        simp only [addressSpace]
        omega
      obtain ⟨accepts, all⟩ :=
        client.writeBuffer.writeChars_accepts called.valid bytes fits world
      have grown := accepts.unread_eq
      rw [(all granted).1] at grown
      have filled : client.writeBuffer.unread ++ bytes ≠ [] := by simp [nothing]
      simp only [Client.onRead, whole, if_neg count]
      refine ⟨⟨grown, rfl, strncmp_stops bytes nothing⟩, fun _ => ⟨⟨accepts.valid,
        called.operational, rfl, called.limited, rfl, ?_, ?_⟩, ?_⟩, fun ended => by cases ended⟩
      · change true = true ↔ (client.writeBuffer.writeChars bytes world).stream.unread ≠ []
        rw [grown]
        exact iff_of_true rfl filled
      · intro _
        change (client.writeBuffer.writeChars bytes world).stream.unread ≠ []
        rw [grown]
        exact filled
      · intro empty
        change (client.writeBuffer.writeChars bytes world).stream.unread = [] at empty
        rw [grown] at empty
        exact absurd empty filled

theorem onWrite_echoes (client : Client) (room : Option Nat) (called : Called client) :
    Echoes client (client.onWrite room) := by
  cases room with
  | none => exact dropped_echoes client .writeError (by decide)
  | some room =>
      obtain ⟨valid, rest⟩ := client.writeBuffer.shift_min called.valid room
      -- Shifting by nothing is left out in the source, and would change nothing.
      have shifted : ∃ writeBuffer, (if 0 < min room client.writeBuffer.size then
            client.writeBuffer.shift (min room client.writeBuffer.size)
          else client.writeBuffer) = writeBuffer ∧ writeBuffer.Valid ∧
          writeBuffer.unread = client.writeBuffer.unread.drop room := by
        refine ⟨_, rfl, ?_⟩
        split
        · exact ⟨valid, rest⟩
        next idle =>
          refine ⟨called.valid, ?_⟩
          rcases Nat.min_eq_zero_iff.mp (Nat.eq_zero_of_not_pos idle) with none | empty
          · rw [none, List.drop_zero]
          · rw [← BufferStream.unread_length] at empty
            rw [List.length_eq_zero_iff.mp empty, List.drop_nil]
      obtain ⟨writeBuffer, same, valid, rest⟩ := shifted
      have sent : load client.writeBuffer.data.bytes client.writeBuffer.readOffset
          (min room client.writeBuffer.size) = client.writeBuffer.unread.take room :=
        (client.writeBuffer.readChars_delivers called.valid room).bytes_eq
      have balance : client.writeBuffer.unread.take room ++ writeBuffer.unread =
          client.writeBuffer.unread ++ [] := by
        rw [rest, List.take_append_drop, List.append_nil]
      have empty_iff : writeBuffer.size = 0 ↔ writeBuffer.unread = [] := by
        rw [← BufferStream.unread_length]
        exact List.length_eq_zero_iff
      have quiet : false = true ↔ Stops [] := iff_of_false Bool.false_ne_true not_stops_nil
      simp only [Client.onWrite, same, sent]
      split
      next empty =>
        have nothing := empty_iff.mp empty
        split
        · exact ⟨⟨balance, rfl, quiet⟩, (fun kept => by cases kept), fun _ => nothing⟩
        next stays =>
          refine ⟨⟨balance, rfl, quiet⟩, fun _ => ⟨⟨valid, called.operational, rfl,
            called.limited, rfl, ?_, ?_⟩, ?_⟩, fun ended => by cases ended⟩
          · exact iff_of_false Bool.false_ne_true fun filled => filled nothing
          · exact fun closing => absurd closing stays
          · exact fun _ => watch_timer _ _ called.limited
      next left =>
        have filled : writeBuffer.unread ≠ [] := fun nothing => left (empty_iff.mpr nothing)
        have before : client.writeBuffer.unread ≠ [] := by
          intro nothing
          rw [nothing, List.drop_nil] at rest
          exact filled rest
        exact ⟨⟨balance, rfl, quiet⟩, fun _ => ⟨⟨valid, called.operational, called.watched,
          called.limited, called.reads, iff_of_true (called.writes.mpr before) filled,
          fun _ => filled⟩, fun nothing => absurd nothing filled⟩, fun ended => by cases ended⟩

theorem onRead_sent (client : Client) (input : Option (List UInt8)) (world : World) :
    (client.onRead input world).sent = [] := by
  cases input with
  | none => rfl
  | some bytes =>
      simp only [Client.onRead]
      split <;> rfl

theorem onWrite_received (client : Client) (room : Option Nat) :
    (client.onWrite room).received = [] := by
  cases room with
  | none => rfl
  | some room =>
      simp only [Client.onWrite]
      generalize (if 0 < min room client.writeBuffer.size then
        client.writeBuffer.shift (min room client.writeBuffer.size)
        else client.writeBuffer) = writeBuffer
      split
      · split <;> rfl
      · rfl

theorem moves_echoes (client : Client) (first : Handled) (room : Option Nat)
    (silent : first.sent = []) (moves : Moves client first)
    (echoes : Echoes first.client (first.client.onWrite room)) :
    Echoes client { first.client.onWrite room with
      received := first.received, stops := first.stops } := by
  refine ⟨⟨?_, echoes.fd.trans moves.fd, moves.stops⟩, echoes.waiting, echoes.finished⟩
  have taken := moves.balance
  rw [silent, List.nil_append] at taken
  have balance := echoes.balance
  rw [onWrite_received, List.append_nil, taken] at balance
  exact balance

theorem handle_echoes (client : Client) (ready : Ready) (called : Called client)
    (some_event : ready.read = true ∨ ready.write = true)
    (proper : ∀ bytes, ready.input = some bytes → bytes.length < 1024 ∧
      (client.writeBuffer.writeChars bytes ready.world).world.heap.Unrefused) :
    Echoes client (client.handle ready) := by
  unfold Client.handle
  cases reads : ready.read with
  | true =>
      have read := onRead_echoes client ready.input ready.world called proper
      simp only [if_true]
      cases ends : (client.onRead ready.input ready.world).reason with
      | some reason => exact read
      | none =>
          cases ready.write with
          | false => exact read
          | true =>
              have written := onWrite_echoes _ ready.room (read.waiting ends).toCalled
              exact moves_echoes client _ ready.room (onRead_sent ..) read.toMoves written
  | false =>
      have writes : ready.write = true := some_event.resolve_left (by simp [reads])
      have idle : Moves client ⟨client, none, [], [], false⟩ :=
        ⟨(List.append_nil _).symm, rfl, iff_of_false Bool.false_ne_true not_stops_nil⟩
      simp only [Bool.false_eq_true, if_false, writes, if_true]
      exact moves_echoes client _ ready.room rfl idle (onWrite_echoes client ready.room called)

end Xio.EchoServer
