import Xio.Accounts
import Xio.Socket

/-!
Which events of a `Socket` reach its handler: `on`, `watch`, `restart`, `stop`, `io`, `callback`
and `timeout` of `lib/Socket.cpp`, with the function that `on` stores and the events that the I/O
watcher asks for. The event loop calls back for armed watchers only and reports what was asked for;
on a descriptor that the kernel refuses it stops the watcher and reports an error with both
directions. Handlers run last in each function, so what they do are later operations.
-/

namespace Xio.SocketEvents

open Runs Accounts

def READ : BitVec 32 := 1

def WRITE : BitVec 32 := 2

def TIMEOUT : BitVec 32 := 0x100

def HANDSHAKE : BitVec 32 := 0x200

def CONNECTED : BitVec 32 := 0x400

def ERROR : BitVec 32 := 0x80000000

variable {Handler : Type}

/-- `stop` leaves `handler_` as it is: its `std::move` alone moves nothing. -/
structure Watched (Handler : Type) where
  socket : Socket
  table : Descriptors
  handler : Option Handler
  mode : BitVec 32

/-- A call of `handler_`; calling an empty function throws. -/
inductive Call (Handler : Type) where
  | invoked (handler : Handler) (event : BitVec 32)
  | empty

/-- What `on` asserts of its argument. -/
abbrev Mode := { mode : BitVec 32 // mode &&& TIMEOUT = 0 }

inductive Op (Handler : Type) where
  | openTo (family : Int) (flags : BitVec 32) (outcome : Socket.Outcome)
  | on (mode : Mode) (timeout : Int) (handler : Option Handler)
  | watch (mode : BitVec 32)
  | watchFor (mode : BitVec 32) (timeout : Int)
  | restart
  | stop
  | close
  | ready (readable writable : Bool) (error : Option Int)
  | refused (error : Option Int)
  | timeout

def asked (mode : BitVec 32) : BitVec 32 :=
  if mode &&& CONNECTED ≠ 0 then (mode &&& ~~~CONNECTED) ||| WRITE else mode

def reported (readable writable : Bool) : BitVec 32 :=
  (if readable then READ else 0) ||| (if writable then WRITE else 0)

def call (handler : Option Handler) (event : BitVec 32) : Call Handler :=
  match handler with
  | some handler => .invoked handler event
  | none => .empty

namespace Watched

def put (watched : Watched Handler) (after : Socket × Descriptors) : Watched Handler :=
  { watched with socket := after.1, table := after.2 }

/-- `io`. Two of its three calls ask first whether there is a handler. -/
def io (watched : Watched Handler) (revents : BitVec 32) (error : Option Int) :
    Watched Handler × Option (Call Handler) :=
  (watched.put (watched.socket.onIo error watched.table),
    match watched.socket.state with
    | .Connecting => watched.handler.map (.invoked · CONNECTED)
    | .Handshake => some (call watched.handler HANDSHAKE)
    | _ => watched.handler.map (.invoked · revents))

end Watched

def step : Machine (Watched Handler) (Op Handler) (Option (Call Handler))
  | watched, .openTo family flags outcome =>
      (watched.put (watched.socket.openTo family flags outcome watched.table), none)
  | watched, .on mode timeout handler =>
      ({ watched with socket := watched.socket.on timeout, handler, mode := asked mode }, none)
  | watched, .watch mode => ({ watched with socket := watched.socket.watch, mode }, none)
  | watched, .watchFor mode timeout =>
      ({ watched with socket := watched.socket.watchFor timeout, mode }, none)
  | watched, .restart => ({ watched with socket := watched.socket.restart }, none)
  | watched, .stop => ({ watched with socket := watched.socket.stop }, none)
  | watched, .close => (watched.put (watched.socket.close watched.table), none)
  | watched, .ready readable writable error =>
      if watched.socket.io ∧ watched.mode &&& reported readable writable ≠ 0 then
        watched.io (watched.mode &&& reported readable writable) error
      else (watched, none)
  | watched, .refused error =>
      if watched.socket.io then
        { watched with socket := { watched.socket with io := false } }.io
          (ERROR ||| READ ||| WRITE) error
      else (watched, none)
  | watched, .timeout =>
      if watched.socket.timer then
        ({ watched with socket := watched.socket.onTimeout }, some (call watched.handler TIMEOUT))
      else (watched, none)

/-- Either constructor; the first one has no descriptor and is closed. -/
def start (fd : Int) (state : SocketState) (table : Descriptors) : Watched Handler :=
  ⟨.adopt fd state, table, none, 0⟩

/-! What a readiness event does. -/

/-- How an attempt to connect can end. Without a descriptor there is nothing to close, and the
state stays as it is. -/
def Ended (socket : Socket) (state : SocketState) : Prop :=
  state = .Operational ∨ state = .Closed ∨ state = .Connecting ∧ socket.fd < 0

/-- A call that has nothing to do with a timeout or the end of an attempt to connect. Only where a
handshake is under way nobody asks whether there is a handler. -/
structure Ordinary (watched : Watched Handler) (out : Option (Call Handler)) : Prop where
  foreign : ∀ handler event, out = some (.invoked handler event) →
    event ≠ TIMEOUT ∧ event ≠ CONNECTED
  empty : out = some .empty → watched.handler = none ∧ watched.socket.state = .Handshake

/-- A readiness event is not heard, or ends an attempt to connect and stops both watchers, or stops
the timer and goes to the handler. -/
inductive Reported (watched : Watched Handler) :
    Watched Handler × Option (Call Handler) → Prop
  | unheard : Reported watched (watched, none)
  | connected (state : SocketState) (table : Descriptors) (armed : watched.socket.io = true)
      (connecting : watched.socket.state = .Connecting) (ended : Ended watched.socket state) :
      Reported watched
        ({ watched with socket := { watched.socket.stop with state }, table },
          watched.handler.map (.invoked · CONNECTED))
  | handled (io : Bool) (out : Option (Call Handler)) (armed : watched.socket.io = true)
      (other : watched.socket.state ≠ .Connecting) (ordinary : Ordinary watched out) :
      Reported watched
        ({ watched with socket := { watched.socket with timer := false, io } }, out)

theorem reported_ne (mode : BitVec 32) (readable writable : Bool) (event : BitVec 32)
    (own : event &&& (READ ||| WRITE) = 0) (positive : event ≠ 0) :
    mode &&& reported readable writable ≠ event := by
  intro same
  have within : reported readable writable &&& (READ ||| WRITE) = reported readable writable := by
    cases readable <;> cases writable <;> decide
  apply positive
  calc
    event = mode &&& (reported readable writable &&& (READ ||| WRITE)) := by rw [within, same]
    _ = event &&& (READ ||| WRITE) := by rw [← BitVec.and_assoc, same]
    _ = 0 := own

theorem onConnectComplete_ended (socket : Socket) (error : Option Int) (table : Descriptors)
    (connecting : socket.state = .Connecting) :
    ∃ state, Ended socket state ∧
      (socket.onConnectComplete error table).1 = { socket.stop with state } := by
  unfold Socket.onConnectComplete
  split
  · exact ⟨.Operational, Or.inl rfl, rfl⟩
  unfold Socket.close
  split
  · exact ⟨.Closed, Or.inr (Or.inl rfl), rfl⟩
  · next negative =>
    refine ⟨socket.state, Or.inr (Or.inr ⟨connecting, ?_⟩), rfl⟩
    change ¬ 0 ≤ socket.fd at negative
    omega

theorem map_ordinary (watched : Watched Handler) (revents : BitVec 32)
    (foreign : revents ≠ TIMEOUT ∧ revents ≠ CONNECTED) :
    Ordinary watched (watched.handler.map (.invoked · revents)) := by
  cases watched.handler with
  | none => exact ⟨fun _ _ out => (by cases out), fun out => (by cases out)⟩
  | some own =>
      refine ⟨fun handler event out => ?_, fun out => (by cases out)⟩
      cases out
      exact foreign

theorem call_ordinary (watched : Watched Handler) (handshake : watched.socket.state = .Handshake) :
    Ordinary watched (some (call watched.handler HANDSHAKE)) := by
  cases present : watched.handler with
  | none => exact ⟨fun _ _ out => (by cases out), fun _ => ⟨present, handshake⟩⟩
  | some own =>
      refine ⟨fun handler event out => ?_, fun out => (by cases out)⟩
      cases out
      decide

theorem io_reported (watched : Watched Handler) (active : Bool) (revents : BitVec 32)
    (error : Option Int) (armed : watched.socket.io = true)
    (foreign : revents ≠ TIMEOUT ∧ revents ≠ CONNECTED) :
    Reported watched
      ({ watched with socket := { watched.socket with io := active } }.io revents error) := by
  obtain ⟨⟨fd, state, io, timer, timeout⟩, table, handler, mode⟩ := watched
  cases state with
  | Connecting =>
      obtain ⟨next, ended, same⟩ :=
        onConnectComplete_ended ⟨fd, .Connecting, active, false, timeout⟩ error table rfl
      change Reported _ (⟨(Socket.onConnectComplete ⟨fd, .Connecting, active, false, timeout⟩
        error table).1, _, handler, mode⟩, _)
      rw [same]
      exact .connected next _ armed rfl ended
  | Handshake => exact .handled active _ armed SocketState.noConfusion (call_ordinary _ rfl)
  | Closed => exact .handled active _ armed SocketState.noConfusion (map_ordinary _ _ foreign)
  | Operational => exact .handled active _ armed SocketState.noConfusion (map_ordinary _ _ foreign)

theorem ready_reported (watched : Watched Handler) (readable writable : Bool) (error : Option Int) :
    Reported watched (step watched (.ready readable writable error)) := by
  simp only [step]
  split
  · next heard =>
    exact io_reported watched watched.socket.io _ error heard.1
      ⟨reported_ne _ _ _ _ (by decide) (by decide), reported_ne _ _ _ _ (by decide) (by decide)⟩
  · exact .unheard

theorem refused_reported (watched : Watched Handler) (error : Option Int) :
    Reported watched (step watched (.refused error)) := by
  simp only [step]
  split
  · next armed => exact io_reported watched false _ error armed (by decide)
  · exact .unheard

/-! Neither `open` nor `close` touches a watcher. -/

theorem openTo_changes (socket : Socket) (family : Int) (flags : BitVec 32)
    (outcome : Socket.Outcome) (table : Descriptors) :
    ∃ fd state, (socket.openTo family flags outcome table).1 = { socket with fd, state } ∧
      (state = .Handshake → socket.state = .Handshake) ∧
      (outcome.socket = none → fd = -1 ∧ state = socket.state) := by
  obtain ⟨made, fcntl, connect⟩ := outcome
  unfold Socket.openTo
  cases made with
  | none => exact ⟨-1, socket.state, rfl, id, fun _ => ⟨rfl, rfl⟩⟩
  | some n =>
      simp only [reduceCtorEq, false_implies, and_true]
      split
      · exact ⟨n, socket.state, rfl, id⟩
      split
      · cases connect with
        | done => exact ⟨n, .Operational, rfl, SocketState.noConfusion⟩
        | inProgress => exact ⟨n, .Connecting, rfl, SocketState.noConfusion⟩
        | failed => exact ⟨-1, .Closed, rfl, SocketState.noConfusion⟩
      · exact ⟨-1, socket.state, rfl, id⟩

theorem close_changes (socket : Socket) (table : Descriptors) :
    ∃ state, (socket.close table).1 = { socket with state } ∧
      (state = .Closed ∨ state = socket.state) := by
  unfold Socket.close
  split
  · exact ⟨.Closed, rfl, Or.inl rfl⟩
  · exact ⟨socket.state, rfl, Or.inr rfl⟩

/-! When the handler is left alone. -/

def Quiet (watched : Watched Handler) : Prop :=
  watched.socket.io = false ∧ watched.socket.timer = false

/-- The operations that start the watchers. `restart` only prolongs what runs already. -/
def Op.arms : Op Handler → Bool
  | .on .. | .watch _ | .watchFor .. => true
  | _ => false

def Ends (watched : Watched Handler) (op : Op Handler) : Prop :=
  op = .stop ∨ ∃ handler, (step watched op).2 = some (.invoked handler TIMEOUT) ∨
    (step watched op).2 = some (.invoked handler CONNECTED)

theorem reported_quiet (watched : Watched Handler)
    (result : Watched Handler × Option (Call Handler))
    (reported : Reported watched result) (quiet : Quiet watched) : result = (watched, none) := by
  cases reported with
  | unheard => rfl
  | connected state table armed =>
      rw [quiet.1] at armed
      cases armed
  | handled io out armed =>
      rw [quiet.1] at armed
      cases armed

theorem step_quiet (watched : Watched Handler) (op : Op Handler) (quiet : Quiet watched)
    (unarmed : op.arms = false) : Quiet (step watched op).1 ∧ (step watched op).2 = none := by
  obtain ⟨io, timer⟩ := quiet
  cases op with
  | openTo family flags outcome =>
      obtain ⟨fd, state, same, _⟩ :=
        openTo_changes watched.socket family flags outcome watched.table
      refine ⟨?_, rfl⟩
      simp only [step, Watched.put, same]
      exact ⟨io, timer⟩
  | on mode timeout handler => cases unarmed
  | watch mode => cases unarmed
  | watchFor mode timeout => cases unarmed
  | restart =>
      refine ⟨?_, rfl⟩
      simp only [step, Socket.restart, io]
      exact ⟨io, timer⟩
  | stop => exact ⟨⟨rfl, rfl⟩, rfl⟩
  | close =>
      obtain ⟨state, same, _⟩ := close_changes watched.socket watched.table
      refine ⟨?_, rfl⟩
      simp only [step, Watched.put, same]
      exact ⟨io, timer⟩
  | ready readable writable error =>
      rw [reported_quiet watched _ (ready_reported watched readable writable error) ⟨io, timer⟩]
      exact ⟨⟨io, timer⟩, rfl⟩
  | refused error =>
      rw [reported_quiet watched _ (refused_reported watched error) ⟨io, timer⟩]
      exact ⟨⟨io, timer⟩, rfl⟩
  | timeout =>
      simp only [step, timer]
      exact ⟨⟨io, timer⟩, rfl⟩

theorem reported_ends (watched : Watched Handler)
    (result : Watched Handler × Option (Call Handler)) (handler : Handler) (event : BitVec 32)
    (reported : Reported watched result) (called : result.2 = some (.invoked handler event))
    (own : event = TIMEOUT ∨ event = CONNECTED) : Quiet result.1 := by
  cases reported with
  | unheard => cases called
  | connected state table armed connecting ended => exact ⟨rfl, rfl⟩
  | handled io out armed other ordinary =>
      have foreign := ordinary.foreign handler event called
      rcases own with same | same
      · exact absurd same foreign.1
      · exact absurd same foreign.2

theorem ends_quiet (watched : Watched Handler) (op : Op Handler) (ends : Ends watched op) :
    Quiet (step watched op).1 := by
  rcases ends with rfl | ⟨handler, called⟩
  · exact ⟨rfl, rfl⟩
  have one : ∃ event, (step watched op).2 = some (.invoked handler event) ∧
      (event = TIMEOUT ∨ event = CONNECTED) := by
    rcases called with called | called
    · exact ⟨TIMEOUT, called, Or.inl rfl⟩
    · exact ⟨CONNECTED, called, Or.inr rfl⟩
  obtain ⟨event, called, own⟩ := one
  cases op with
  | ready readable writable error =>
      exact reported_ends watched _ handler event (ready_reported watched _ _ error) called own
  | refused error =>
      exact reported_ends watched _ handler event (refused_reported watched error) called own
  | timeout =>
      simp only [step] at called ⊢
      split at called
      · next armed =>
        rw [if_pos armed]
        exact ⟨rfl, rfl⟩
      · cases called
  | openTo family flags outcome => cases called
  | on mode timeout handler => cases called
  | watch mode => cases called
  | watchFor mode timeout => cases called
  | restart => cases called
  | stop => cases called
  | close => cases called

/-- After `stop`, after a timeout and after the end of an attempt to connect, successful or not, the
handler is not called again before `on` or `watch`, whatever else is done with the socket and
whatever happens to its descriptor. -/
theorem quiet_until_armed (watched : Watched Handler) (op : Op Handler) (later : List (Op Handler))
    (ends : Ends watched op) (unarmed : ∀ next ∈ later, next.arms = false) :
    ∀ out ∈ outputs step (step watched op).1 later, out = none := by
  have quiet := ends_quiet watched op ends
  generalize (step watched op).1 = state at quiet
  induction later generalizing state with
  | nil => exact List.forall_mem_nil _
  | cons next rest ih =>
      rw [List.forall_mem_cons] at unarmed
      obtain ⟨still, silent⟩ := step_quiet state next quiet unarmed.1
      rw [outputs, List.forall_mem_cons]
      exact ⟨silent, ih unarmed.2 _ still⟩

theorem quiet_until_armed_idle :
    let waiting : Watched Unit := ⟨⟨5, .Operational, true, true, 10⟩, ⟨[5], false⟩, some (), READ⟩
    Ends waiting .timeout ∧
      ∀ out ∈ outputs step (step waiting .timeout).1 [.restart, .ready true true none, .timeout],
        out = none := by
  intro waiting
  have ends : Ends waiting .timeout := Or.inr ⟨(), Or.inl rfl⟩
  exact ⟨ends, quiet_until_armed waiting .timeout _ ends (by decide)⟩

/-! How often the handler is called. -/

def Call.isTimeout : Option (Call Handler) → Bool
  | some (.invoked _ event) => event == TIMEOUT
  | _ => false

def Call.isConnected : Option (Call Handler) → Bool
  | some (.invoked _ event) => event == CONNECTED
  | _ => false

def Op.clocks : Op Handler → Bool
  | .restart => true
  | op => op.arms

def Op.opens : Op Handler → Bool
  | .openTo _ _ outcome => outcome.socket.isSome
  | _ => false

def clocks (watched : Watched Handler) : Nat := if watched.socket.timer then 1 else 0

-- A watcher may outlive the descriptor of its socket.
def Attempting (watched : Watched Handler) : Prop :=
  watched.socket.state = .Connecting ∧ (0 ≤ watched.socket.fd ∨ watched.socket.io = true)

instance (watched : Watched Handler) : Decidable (Attempting watched) :=
  inferInstanceAs (Decidable (_ ∧ _))

def attempts (watched : Watched Handler) : Nat := if Attempting watched then 1 else 0

def Valid (watched : Watched Handler) (op : Op Handler) : Prop :=
  op.arms = true → 0 ≤ watched.socket.fd

theorem clocks_le (watched : Watched Handler) : clocks watched ≤ 1 := by
  unfold clocks
  split <;> decide

theorem attempts_le (watched : Watched Handler) : attempts watched ≤ 1 := by
  unfold attempts
  split <;> decide

theorem ordinary_silent (watched : Watched Handler) (out : Option (Call Handler))
    (ordinary : Ordinary watched out) :
    Call.isTimeout out = false ∧ Call.isConnected out = false := by
  cases out with
  | none => exact ⟨rfl, rfl⟩
  | some call =>
      cases call with
      | empty => exact ⟨rfl, rfl⟩
      | invoked handler event =>
          obtain ⟨timeout, connected⟩ := ordinary.foreign handler event rfl
          exact ⟨beq_false_of_ne timeout, beq_false_of_ne connected⟩

theorem paid_of_silent (shown given : Bool) (later held : Nat) (silent : shown = false)
    (within : later ≤ held + if given then 1 else 0) :
    (if shown then 1 else 0) + later ≤ held + if given then 1 else 0 := by
  rw [silent]
  exact (Nat.zero_add later).symm ▸ within

theorem reported_clocks (watched : Watched Handler)
    (result : Watched Handler × Option (Call Handler))
    (reported : Reported watched result) :
    Call.isTimeout result.2 = false ∧ clocks result.1 ≤ clocks watched := by
  cases reported with
  | unheard => exact ⟨rfl, Nat.le_refl _⟩
  | connected state table armed connecting ended =>
      refine ⟨?_, Nat.zero_le _⟩
      cases watched.handler with
      | none => rfl
      | some handler => rfl
  | handled io out armed other ordinary =>
      exact ⟨(ordinary_silent watched out ordinary).1, Nat.zero_le _⟩

theorem step_clocks (watched : Watched Handler) (op : Op Handler) :
    (if Call.isTimeout (step watched op).2 then 1 else 0) + clocks (step watched op).1 ≤
      clocks watched + if op.clocks then 1 else 0 := by
  have most := clocks_le (step watched op).1
  cases op with
  | openTo family flags outcome =>
      obtain ⟨fd, state, same, _⟩ :=
        openTo_changes watched.socket family flags outcome watched.table
      refine paid_of_silent _ _ _ _ rfl ?_
      simp only [step, Watched.put, same]
      exact Nat.le_refl _
  | on mode timeout handler =>
      exact paid_of_silent _ _ _ _ rfl (Nat.le_add_left_of_le most)
  | watch mode => exact paid_of_silent _ _ _ _ rfl (Nat.le_add_left_of_le most)
  | watchFor mode timeout => exact paid_of_silent _ _ _ _ rfl (Nat.le_add_left_of_le most)
  | restart => exact paid_of_silent _ _ _ _ rfl (Nat.le_add_left_of_le most)
  | stop => exact Nat.zero_le _
  | close =>
      obtain ⟨state, same, _⟩ := close_changes watched.socket watched.table
      refine paid_of_silent _ _ _ _ rfl ?_
      simp only [step, Watched.put, same]
      exact Nat.le_refl _
  | ready readable writable error =>
      obtain ⟨silent, fewer⟩ :=
        reported_clocks watched _ (ready_reported watched readable writable error)
      exact paid_of_silent _ _ _ _ silent fewer
  | refused error =>
      obtain ⟨silent, fewer⟩ := reported_clocks watched _ (refused_reported watched error)
      exact paid_of_silent _ _ _ _ silent fewer
  | timeout =>
      rw [step]
      split
      · next armed =>
        have had : clocks watched = 1 := if_pos armed
        have one : (if Call.isTimeout (some (call watched.handler TIMEOUT)) then 1 else 0) ≤ 1 := by
          split <;> decide
        rw [had]
        exact Nat.add_le_add one (Nat.zero_le _)
      · exact paid_of_silent _ _ _ _ rfl (Nat.le_refl _)

theorem attempts_mono (watched next : Watched Handler)
    (kept : Attempting next → Attempting watched) : attempts next ≤ attempts watched := by
  unfold attempts
  split
  · next there => exact Nat.le_of_eq (if_pos (kept there)).symm
  · exact Nat.zero_le _

theorem reported_attempts (watched : Watched Handler)
    (result : Watched Handler × Option (Call Handler)) (reported : Reported watched result) :
    (if Call.isConnected result.2 then 1 else 0) + attempts result.1 ≤ attempts watched := by
  cases reported with
  | unheard => exact Nat.le_of_eq (Nat.zero_add _)
  | connected state table armed connecting ended =>
      have had : attempts watched = 1 := if_pos ⟨connecting, Or.inr armed⟩
      have finished : ¬ Attempting
          { watched with socket := { watched.socket.stop with state }, table := table } := by
        rintro ⟨still, there | active⟩
        · rcases ended with operational | closed | ⟨_, negative⟩
          · exact SocketState.noConfusion (operational.symm.trans still)
          · exact SocketState.noConfusion (closed.symm.trans still)
          · exact absurd there (Int.not_le.mpr negative)
        · cases active
      rw [had, attempts, if_neg finished, Nat.add_zero]
      split <;> decide
  | handled io out armed other ordinary =>
      have finished : ¬ Attempting
          { watched with socket := { watched.socket with timer := false, io } } :=
        fun still => other still.1
      rw [(ordinary_silent watched out ordinary).2, attempts, if_neg finished]
      exact Nat.zero_le _

theorem step_attempts (watched : Watched Handler) (op : Op Handler) (valid : Valid watched op) :
    (if Call.isConnected (step watched op).2 then 1 else 0) + attempts (step watched op).1 ≤
      attempts watched + if op.opens then 1 else 0 := by
  have started (armed : op.arms = true) (next : Watched Handler)
      (state : next.socket.state = watched.socket.state) : attempts next ≤ attempts watched :=
    attempts_mono watched next fun there => ⟨state.symm.trans there.1, Or.inl (valid armed)⟩
  cases op with
  | openTo family flags outcome =>
      refine paid_of_silent _ _ _ _ rfl ?_
      obtain ⟨fd, state, same, _, failed⟩ :=
        openTo_changes watched.socket family flags outcome watched.table
      cases made : outcome.socket with
      | some n =>
          have counted : (Op.openTo family flags outcome : Op Handler).opens = true := by
            rw [Op.opens, made]
            rfl
          rw [counted]
          exact Nat.le_add_left_of_le (attempts_le _)
      | none =>
          obtain ⟨negative, unchanged⟩ := failed made
          refine Nat.le_add_right_of_le (attempts_mono _ _ ?_)
          simp only [step, Watched.put, same]
          rintro ⟨connecting, there | active⟩
          · simp only [negative] at there
            exact absurd there (by decide)
          · exact ⟨unchanged.symm.trans connecting, Or.inr active⟩
  | on mode timeout handler => exact paid_of_silent _ _ _ _ rfl (started rfl _ rfl)
  | watch mode => exact paid_of_silent _ _ _ _ rfl (started rfl _ rfl)
  | watchFor mode timeout => exact paid_of_silent _ _ _ _ rfl (started rfl _ rfl)
  | restart =>
      refine paid_of_silent _ _ _ _ rfl (attempts_mono _ _ ?_)
      simp only [step, Socket.restart]
      split <;> exact id
  | stop =>
      refine paid_of_silent _ _ _ _ rfl (attempts_mono _ _ ?_)
      exact fun there => ⟨there.1, there.2.imp_right fun active => by cases active⟩
  | close =>
      obtain ⟨state, same, closed⟩ := close_changes watched.socket watched.table
      refine paid_of_silent _ _ _ _ rfl (attempts_mono _ _ ?_)
      simp only [step, Watched.put, same]
      rintro ⟨connecting, rest⟩
      rcases closed with closed | unchanged
      · exact SocketState.noConfusion (closed.symm.trans connecting)
      · exact ⟨unchanged.symm.trans connecting, rest⟩
  | ready readable writable error =>
      exact reported_attempts watched _ (ready_reported watched readable writable error)
  | refused error => exact reported_attempts watched _ (refused_reported watched error)
  | timeout =>
      rw [step]
      split
      · refine paid_of_silent _ _ _ _ ?_ (attempts_mono _ _ ?_)
        · cases watched.handler with
          | none => rfl
          | some handler => rfl
        · exact fun there => ⟨there.1, there.2.imp_right fun active => by cases active⟩
      · exact paid_of_silent _ _ _ _ rfl (Nat.le_refl _)

/-- Each timeout was set anew: the handler hears of no more of them than timers were started, and
of the end of no more attempts to connect than `open` got descriptors. -/
theorem calls_accounted (watched : Watched Handler) (ops : List (Op Handler))
    (valid : Along step Valid watched ops) :
    (outputs step watched ops).countP Call.isTimeout + clocks (final step watched ops) ≤
        clocks watched + ops.countP Op.clocks ∧
      (outputs step watched ops).countP Call.isConnected + attempts (final step watched ops) ≤
        attempts watched + ops.countP Op.opens :=
  ⟨bounded step Valid clocks Op.clocks Call.isTimeout (fun watched op _ => step_clocks watched op)
      watched ops valid,
    bounded step Valid attempts Op.opens Call.isConnected step_attempts watched ops valid⟩

theorem calls_accounted_patient :
    let opened : Watched Unit := ⟨⟨5, .Connecting, false, false, 0⟩, ⟨[5], false⟩, none, 0⟩
    let ops : List (Op Unit) := [.on ⟨CONNECTED, by decide⟩ 10 (some ()), .timeout, .watch WRITE,
      .ready false true (some 0)]
    (outputs step opened ops).countP Call.isTimeout = 1 ∧
      (outputs step opened ops).countP Call.isConnected = 1 ∧
      (outputs step opened ops).countP Call.isTimeout + clocks (final step opened ops) ≤
        clocks opened + ops.countP Op.clocks := by
  intro opened ops
  have descriptor : (0 : Int) ≤ 5 := by decide
  exact ⟨by decide, by decide, (calls_accounted opened ops ⟨fun _ => descriptor,
    fun _ => descriptor, fun _ => descriptor, fun _ => descriptor, trivial⟩).1⟩

/-! Calls of an empty function. -/

def Safe (watched : Watched Handler) : Prop :=
  ∀ op, (step watched op).2 ≠ some .empty

/-- What has to be seen to before a handler is given: no time limit is set, and a socket in a
handshake is not watched. A handler that is given is one. -/
def Careful (watched : Watched Handler) : Op Handler → Prop
  | .on _ _ handler => handler ≠ none
  | .watch _ => watched.handler = none →
      watched.socket.timeout = 0 ∧ watched.socket.state ≠ .Handshake
  | .watchFor _ timeout => watched.handler = none →
      timeout = 0 ∧ watched.socket.timeout = 0 ∧ watched.socket.state ≠ .Handshake
  | _ => True

structure Prepared (watched : Watched Handler) : Prop where
  limit : watched.handler = none → watched.socket.timeout = 0
  timer : watched.handler = none → watched.socket.timer = false
  handshake : watched.handler = none → watched.socket.io = true → watched.socket.state ≠ .Handshake

theorem reported_prepared (watched : Watched Handler)
    (result : Watched Handler × Option (Call Handler)) (reported : Reported watched result)
    (prepared : Prepared watched) : Prepared result.1 ∧ result.2 ≠ some .empty := by
  cases reported with
  | unheard => exact ⟨prepared, by simp⟩
  | connected state table armed connecting ended =>
      refine ⟨⟨prepared.limit, fun _ => rfl, fun _ active => by cases active⟩, ?_⟩
      cases watched.handler with
      | none => simp
      | some handler => simp
  | handled io out armed other ordinary =>
      refine ⟨⟨prepared.limit, fun _ => rfl, fun none _ => prepared.handshake none armed⟩, ?_⟩
      intro empty
      obtain ⟨none, handshake⟩ := ordinary.empty empty
      exact prepared.handshake none armed handshake

theorem prepared_safe (watched : Watched Handler) (prepared : Prepared watched) : Safe watched := by
  intro op
  cases op with
  | ready readable writable error =>
      exact (reported_prepared watched _ (ready_reported watched _ _ error) prepared).2
  | refused error => exact (reported_prepared watched _ (refused_reported watched error) prepared).2
  | timeout =>
      simp only [step]
      split
      · next armed =>
        cases present : watched.handler with
        | none =>
            rw [prepared.timer present] at armed
            cases armed
        | some handler => simp [call]
      · simp
  | openTo family flags outcome => simp [step]
  | on mode timeout handler => simp [step]
  | watch mode => simp [step]
  | watchFor mode timeout => simp [step]
  | restart => simp [step]
  | stop => simp [step]
  | close => simp [step]

theorem safe_needs (watched : Watched Handler) (safe : Safe watched)
    (none : watched.handler = none) :
    watched.socket.timer = false ∧
      (watched.socket.io = true → watched.socket.state ≠ .Handshake) := by
  constructor
  · by_contra armed
    rw [Bool.not_eq_false] at armed
    apply safe .timeout
    simp only [step, armed, if_true, none, call]
  · intro armed handshake
    apply safe (.refused Option.none)
    simp only [step, armed, if_true, Watched.io, handshake, none, call]

theorem step_prepared (watched : Watched Handler) (op : Op Handler) (prepared : Prepared watched)
    (careful : Careful watched op) : Prepared (step watched op).1 := by
  cases op with
  | openTo family flags outcome =>
      obtain ⟨fd, state, same, handshake, _⟩ :=
        openTo_changes watched.socket family flags outcome watched.table
      simp only [step, Watched.put, same]
      exact ⟨prepared.limit, prepared.timer, fun none armed still =>
        prepared.handshake none armed (handshake still)⟩
  | on mode timeout handler =>
      exact ⟨fun none => absurd none careful, fun none => absurd none careful,
        fun none => absurd none careful⟩
  | watch mode =>
      refine ⟨prepared.limit, fun none => ?_, fun none _ => (careful none).2⟩
      change (watched.socket.timer || decide (watched.socket.timeout ≠ 0)) = false
      rw [prepared.timer none, (careful none).1]
      rfl
  | watchFor mode timeout =>
      have unlimited (none : watched.handler = none) :
          (if timeout ≠ 0 then timeout else watched.socket.timeout) = 0 := by
        obtain ⟨zero, limit, _⟩ := careful none
        rw [if_neg (not_not.mpr zero), limit]
      refine ⟨unlimited, fun none => ?_, fun none _ => (careful none).2.2⟩
      change (watched.socket.timer || decide
        ((if timeout ≠ 0 then timeout else watched.socket.timeout) ≠ 0)) = false
      rw [prepared.timer none, unlimited none]
      rfl
  | restart =>
      simp only [step, Socket.restart]
      split
      · refine ⟨prepared.limit, fun none => ?_, prepared.handshake⟩
        change decide (watched.socket.timeout ≠ 0) = false
        rw [prepared.limit none]
        rfl
      · exact prepared
  | stop => exact ⟨prepared.limit, fun _ => rfl, fun _ active => by cases active⟩
  | close =>
      obtain ⟨state, same, closed⟩ := close_changes watched.socket watched.table
      simp only [step, Watched.put, same]
      refine ⟨prepared.limit, prepared.timer, fun none armed still => ?_⟩
      rcases closed with closed | unchanged
      · exact SocketState.noConfusion (closed.symm.trans still)
      · exact prepared.handshake none armed (unchanged.symm.trans still)
  | ready readable writable error =>
      exact (reported_prepared watched _ (ready_reported watched _ _ error) prepared).1
  | refused error => exact (reported_prepared watched _ (refused_reported watched error) prepared).1
  | timeout =>
      rw [step]
      split
      · exact ⟨prepared.limit, fun _ => rfl, fun _ active => by cases active⟩
      · exact prepared

theorem step_careful (watched : Watched Handler) (op : Op Handler)
    (safe : Safe (step watched op).1) : Careful watched op := by
  cases op with
  | on mode timeout handler =>
      intro none
      have needs := (safe_needs _ safe none).1
      cases needs
  | watch mode =>
      intro none
      obtain ⟨timer, handshake⟩ := safe_needs _ safe none
      change (watched.socket.timer || decide (watched.socket.timeout ≠ 0)) = false at timer
      rw [Bool.or_eq_false_iff, decide_eq_false_iff_not, not_not] at timer
      exact ⟨timer.2, handshake rfl⟩
  | watchFor mode timeout =>
      intro none
      obtain ⟨timer, handshake⟩ := safe_needs _ safe none
      change (watched.socket.timer || decide
        ((if timeout ≠ 0 then timeout else watched.socket.timeout) ≠ 0)) = false at timer
      rw [Bool.or_eq_false_iff, decide_eq_false_iff_not, not_not] at timer
      by_cases zero : timeout = 0
      · rw [if_neg (not_not.mpr zero)] at timer
        exact ⟨zero, timer.2, handshake rfl⟩
      · rw [if_pos zero] at timer
        exact absurd timer.2 zero
  | _ => trivial

/-- `timeout` and a handshake call the handler without looking: no socket ever calls an empty
function exactly as long as every operation is careful. -/
theorem handlers_present_iff (fd : Int) (state : SocketState) (table : Descriptors)
    (ops : List (Op Handler)) :
    Always step Safe (start fd state table) ops ↔ Along step Careful (start fd state table) ops :=
  always_iff_along step Careful Prepared Safe prepared_safe step_prepared
    (fun watched op _ => step_careful watched op) _ ops
    ⟨fun _ => rfl, fun _ => rfl, fun _ active => by cases active⟩

end Xio.SocketEvents
