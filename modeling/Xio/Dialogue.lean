import Xio.Socket

/-!
`examples/tcp-client.cpp`: one request over a `Socket`, as a chain of handlers for the connection,
the request and the response. Each handler installs the next one with `on`. What the loop reports
and what the system calls return are inputs; the array of the response and the messages play no
part. A descriptor that the socket has closed takes no bytes.
-/

namespace Xio.Dialogue

open Runs

inductive Handler where
  | connected
  | writable
  | readable
  deriving DecidableEq

/-- `GET / HTTP/1.1`, `Host: localhost`, `Connection: close` and an empty line. -/
def request : List UInt8 :=
  [71, 69, 84, 32, 47, 32, 72, 84, 84, 80, 47, 49, 46, 49, 13, 10,
    72, 111, 115, 116, 58, 32, 108, 111, 99, 97, 108, 104, 111, 115, 116, 13, 10,
    67, 111, 110, 110, 101, 99, 116, 105, 111, 110, 58, 32, 99, 108, 111, 115, 101, 13, 10, 13, 10]

/-- The socket with what has been done over it: how often the request was written, what of it was
accepted, and how many reads have delivered something. -/
structure Client where
  socket : Socket
  table : Descriptors
  handler : Handler
  attempts : Nat
  sent : List UInt8
  chunks : Nat

/-- `main` up to the event loop; there is none where `open` fails. -/
def start (outcome : Socket.Outcome) : Option Client :=
  let opened := Socket.create.openTo IPAddress.V4 0 outcome ⟨[], false⟩
  if opened.1.state = .Closed then none
  else some ⟨opened.1.on 10, opened.2, .connected, 0, [], 0⟩

/-- Readiness, with the result of `getsockopt` and those of the `write` or the `read` it may lead
to; or the end of the time. -/
inductive Event where
  | io (error : Option Int) (written read : Option Nat)
  | timeout

namespace Client

-- `socket.write`: its result is not looked at.
def write (client : Client) (written : Option Nat) : Client :=
  { client with
    attempts := client.attempts + 1
    sent := client.sent ++
      if client.socket.fd ∈ client.table.opened then request.take (written.getD 0) else [] }

def handle (client : Client) (timedOut : Bool) (written read : Option Nat) : Client :=
  match client.handler with
  | .connected =>
      if timedOut then { client with socket := client.socket.stop }
      else { client with socket := client.socket.on 10, handler := .writable }
  | .writable =>
      if timedOut then client
      else
        let client := client.write written
        { client with socket := client.socket.on 10, handler := .readable }
  | .readable =>
      if timedOut then { client with socket := client.socket.stop }
      else if 0 < read.getD 0 then { client with chunks := client.chunks + 1 }
      else { client with socket := client.socket.stop }

end Client

-- Only an armed watcher calls back.
def step : Machine Client Event Unit
  | client, .io error written read =>
      if client.socket.io then
        let after := client.socket.onIo error client.table
        ({ client with socket := after.1, table := after.2 }.handle false written read, ())
      else (client, ())
  | client, .timeout =>
      if client.socket.timer then
        ({ client with socket := client.socket.onTimeout }.handle true none none, ())
      else (client, ())

/-- How the socket stands: its descriptor is open unless the socket is closed, and it is connecting
only before the first handler has run. -/
structure Standing (client : Client) : Prop where
  numbered : 0 ≤ client.socket.fd
  backed : client.socket.state = .Closed ↔ client.socket.fd ∉ client.table.opened
  settled : client.handler ≠ .connected → client.socket.state ≠ .Connecting

structure Conversation (client : Client) : Prop where
  once : client.attempts = if client.handler = .readable then 1 else 0
  front : client.sent <+: request
  silent : client.socket.state = .Closed ∨ client.handler ≠ .readable → client.sent = []
  answered : 0 < client.chunks → client.handler = .readable ∧ client.socket.timer = false
  awaited : client.socket.io = true → client.socket.timer = true ∨ 0 < client.chunks

structure Sound (client : Client) : Prop where
  standing : Standing client
  conversation : Conversation client

/-! The events. -/

theorem start_sound (outcome : Socket.Outcome) (client : Client)
    (started : start outcome = some client) : Sound client := by
  obtain ⟨socket, fcntl, connect⟩ := outcome
  have listed : ∀ (n : Nat) (state : SocketState), state ≠ .Closed →
      Sound ⟨(Socket.mk n state false false 0).on 10, ⟨[(n : Int)], false⟩, .connected, 0,
        [], 0⟩ := by
    intro n state other
    refine ⟨⟨Int.natCast_nonneg n, ?_, fun impossible => absurd rfl impossible⟩,
      ⟨rfl, List.nil_prefix, fun _ => rfl, fun impossible => absurd impossible (Nat.lt_irrefl 0),
        fun _ => Or.inl rfl⟩⟩
    exact iff_of_false other (not_not.mpr List.mem_cons_self)
  cases socket with
  | none => cases started
  | some n =>
      cases connect with
      | done =>
          cases started
          exact listed n .Operational (by decide)
      | inProgress =>
          cases started
          exact listed n .Connecting (by decide)
      | failed => cases started

/-- What `Socket::io` leaves to the handler: a socket that is no longer connecting, whose descriptor
is closed where the connection has failed, and whose timer does not run. -/
structure Reported (before : Client) (socket : Socket) (table : Descriptors) : Prop where
  number : socket.fd = before.socket.fd
  settled : socket.state ≠ .Connecting
  timer : socket.timer = false
  backed : socket.state = .Closed ↔ socket.fd ∉ table.opened
  kept : before.socket.state ≠ .Connecting →
    socket.state = before.socket.state ∧ socket.io = before.socket.io

theorem onIo_reported (client : Client) (error : Option Int) (standing : Standing client) :
    Reported client (client.socket.onIo error client.table).1
      (client.socket.onIo error client.table).2 := by
  rw [Socket.onIo]
  by_cases connecting : client.socket.state = .Connecting
  · have opened : client.socket.fd ∈ client.table.opened := by
      by_contra absent
      have closed := standing.backed.mpr absent
      rw [connecting] at closed
      cases closed
    rw [if_pos connecting, Socket.onConnectComplete]
    by_cases reached : error = some 0
    · rw [if_pos reached]
      refine ⟨rfl, (by decide : SocketState.Operational ≠ .Connecting), rfl, ?_,
        fun other => absurd connecting other⟩
      exact iff_of_false (by decide : SocketState.Operational ≠ .Closed) (not_not.mpr opened)
    · have numbered : 0 ≤ ({ client.socket with timer := false } : Socket).stop.fd :=
        standing.numbered
      rw [if_neg reached, Socket.close, if_pos numbered]
      refine ⟨rfl, (by decide : SocketState.Closed ≠ .Connecting), rfl, ?_,
        fun other => absurd connecting other⟩
      exact iff_of_true rfl fun member => ((SocketLife.mem_close _ _ _).mp member).2 rfl
  · rw [if_neg connecting]
    exact ⟨rfl, connecting, rfl, standing.backed, fun _ => ⟨rfl, rfl⟩⟩

theorem Conversation.unstarted (client : Client) (conversation : Conversation client)
    (earlier : client.handler ≠ .readable) : client.sent = [] ∧ ¬ 0 < client.chunks :=
  ⟨conversation.silent (Or.inr earlier), fun some => earlier (conversation.answered some).1⟩

theorem write_sent (client : Client) (written : Option Nat) (nothing : client.sent = []) :
    (client.write written).sent <+: request ∧
      (client.socket.fd ∉ client.table.opened → (client.write written).sent = []) := by
  rw [Client.write, nothing]
  dsimp only
  rw [List.nil_append]
  refine ⟨?_, fun closed => if_neg closed⟩
  split
  · exact List.take_prefix _ _
  · exact List.nil_prefix

theorem io_sound (client : Client) (socket : Socket) (table : Descriptors)
    (written read : Option Nat) (sound : Sound client) (reported : Reported client socket table) :
    Sound ({ client with socket := socket, table := table }.handle false written read) := by
  obtain ⟨standing, conversation⟩ := sound
  have numbered : 0 ≤ socket.fd := by
    rw [reported.number]
    exact standing.numbered
  have once := conversation.once
  rw [Client.handle]
  cases handler : client.handler with
  | connected =>
      rw [handler] at once
      obtain ⟨nothing, unanswered⟩ := conversation.unstarted client (by rw [handler]; decide)
      exact ⟨⟨numbered, reported.backed, fun _ => reported.settled⟩,
        ⟨once, conversation.front, fun _ => nothing, fun some => absurd some unanswered,
          fun _ => Or.inl rfl⟩⟩
  | writable =>
      rw [handler] at once
      obtain ⟨nothing, unanswered⟩ := conversation.unstarted client (by rw [handler]; decide)
      obtain ⟨front, refused⟩ :=
        write_sent { client with socket := socket, table := table } written nothing
      refine ⟨⟨numbered, reported.backed, fun _ => reported.settled⟩,
        ⟨congrArg (· + 1) once, front, ?_, fun some => absurd some unanswered,
          fun _ => Or.inl rfl⟩⟩
      rintro (closed | other)
      · exact refused (reported.backed.mp closed)
      · exact absurd rfl other
  | readable =>
      have settled := standing.settled (by rw [handler]; decide)
      obtain ⟨state, io⟩ := reported.kept settled
      have closed : socket.state = .Closed ∨ client.handler ≠ .readable → client.sent = [] := by
        rw [state]
        exact conversation.silent
      rw [handler] at once closed
      change Sound (if 0 < read.getD 0 then _ else _)
      split
      · exact ⟨⟨numbered, reported.backed, fun _ => reported.settled⟩,
          ⟨once, conversation.front, closed, fun _ => ⟨rfl, reported.timer⟩,
            fun _ => Or.inr (Nat.succ_pos _)⟩⟩
      · exact ⟨⟨numbered, reported.backed, fun _ => reported.settled⟩,
          ⟨once, conversation.front, closed, fun _ => ⟨rfl, rfl⟩,
            fun impossible => absurd impossible Bool.false_ne_true⟩⟩

theorem timeout_sound (client : Client) (sound : Sound client) :
    Sound ({ client with socket := client.socket.onTimeout }.handle true none none) ∧
      ({ client with socket := client.socket.onTimeout }.handle true none none).socket.io = false ∧
      ({ client with socket := client.socket.onTimeout }.handle true none none).socket.timer =
        false := by
  obtain ⟨standing, conversation⟩ := sound
  have stopped : Sound { client with socket := client.socket.stop } :=
    ⟨⟨standing.numbered, standing.backed, standing.settled⟩,
      ⟨conversation.once, conversation.front, conversation.silent,
        fun some => ⟨(conversation.answered some).1, rfl⟩,
        fun impossible => absurd impossible Bool.false_ne_true⟩⟩
  -- Stopping twice is stopping once, and no handler starts a watcher at this point.
  have same : { client with socket := client.socket.onTimeout }.handle true none none =
      { client with socket := client.socket.stop } := by
    rw [Client.handle]
    cases client.handler with
    | connected => rfl
    | writable => rfl
    | readable => rfl
  rw [same]
  exact ⟨stopped, rfl, rfl⟩

theorem step_sound (client : Client) (event : Event) (sound : Sound client) :
    Sound (step client event).1 := by
  cases event with
  | io error written read =>
      rw [step]
      split
      · exact io_sound client _ _ written read sound (onIo_reported client error sound.standing)
      · exact sound
  | timeout =>
      rw [step]
      split
      · exact (timeout_sound client sound).1
      · exact sound

/-- Along every course of events: the request is written at most once and goes out as far as one
write takes it, nothing at all where the connection has failed; a client that waits has a time
limit until the first part of the response and none from then on. A timeout is the last thing that
happens. -/
theorem conversation_kept (outcome : Socket.Outcome) (client : Client) (events : List Event)
    (started : start outcome = some client) :
    Always step Conversation client events ∧
      Along step (fun client event => event = .timeout → client.socket.timer = true →
        (step client event).1.socket.io = false ∧ (step client event).1.socket.timer = false)
        client events := by
  have sound := start_sound outcome client started
  have unguarded : Along step (fun _ _ => True) client events :=
    along_of_forall _ _ _ _ fun _ _ _ => trivial
  have kept : ∀ client event, Sound client → True → Sound (step client event).1 :=
    fun client event sound _ => step_sound client event sound
  constructor
  · exact always_mono _ _ _ (fun client sound => sound.conversation) _ _
      (always_of_along step (fun _ _ => True) Sound kept client events sound unguarded)
  · refine along_of_along step (fun _ _ => True) Sound _ kept ?_ client events sound unguarded
    rintro client _ sound _ rfl armed
    rw [step, if_pos armed]
    exact (timeout_sound client sound).2

theorem conversation_kept_connected :
    ∃ client, start ⟨some 3, true, .done⟩ = some client ∧
      Always step Conversation client [.io none none none, .io none (some 54) none, .timeout] ∧
        Along step (fun client event => event = .timeout → client.socket.timer = true →
          (step client event).1.socket.io = false ∧ (step client event).1.socket.timer = false)
          client [.io none none none, .io none (some 54) none, .timeout] :=
  ⟨_, rfl, conversation_kept ⟨some 3, true, .done⟩ _ _ rfl⟩

end Xio.Dialogue
