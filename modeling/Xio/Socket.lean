import Mathlib.Logic.Function.Basic
import Xio.Runs
import Xio.IPAddress

/-!
The life cycle of `lib/Socket.cpp`. The outcome of every system call is an input. Handlers
run last in each function, so what they do to the socket are later events; reading and
writing leave descriptor, state and watchers alone. A watcher is armed once it is started:
what libev itself makes of a negative descriptor is not modelled.
-/

namespace Xio

/-- The descriptors that are open in this process. The flag records a `::close` of a number
that was closed already and not obtained again since. -/
structure Descriptors where
  opened : List Int
  misclosed : Bool

namespace Descriptors

def obtain (table : Descriptors) (fd : Int) : Descriptors :=
  { table with opened := fd :: table.opened }

def close (table : Descriptors) (fd : Int) : Descriptors :=
  ⟨table.opened.filter (· ≠ fd), table.misclosed || decide (fd ∉ table.opened)⟩

end Descriptors

inductive SocketState where
  | Closed
  | Connecting
  | Handshake
  | Operational
  deriving DecidableEq

structure Socket where
  fd : Int
  state : SocketState
  io : Bool
  timer : Bool
  timeout : Int

def O_NONBLOCK : BitVec 32 := 0x800

def O_CLOEXEC : BitVec 32 := 0x80000

def plainFlags (flags : BitVec 32) : BitVec 32 := flags &&& ~~~(O_NONBLOCK ||| O_CLOEXEC)

namespace Socket

inductive Connect where
  | done
  | inProgress
  | failed
  deriving DecidableEq

structure Outcome where
  socket : Option Nat
  fcntl : Bool
  connect : Connect

def create : Socket := ⟨-1, .Closed, false, false, 0⟩

def adopt (fd : Int) (state : SocketState) : Socket := ⟨fd, state, false, false, 0⟩

-- Neither `fd_` nor the watchers are reset.
def close (socket : Socket) (table : Descriptors) : Socket × Descriptors :=
  if 0 ≤ socket.fd then ({ socket with state := .Closed }, table.close socket.fd)
  else (socket, table)

def applyFlags (flags : BitVec 32) (fcntl : Bool) : Bool :=
  if plainFlags flags ≠ 0 then fcntl else true

def openTo (socket : Socket) (family : Int) (flags : BitVec 32) (outcome : Outcome)
    (table : Descriptors) : Socket × Descriptors :=
  match outcome.socket with
  | none => ({ socket with fd := -1 }, table)
  | some n =>
      let table := table.obtain n
      if applyFlags flags outcome.fcntl = false then ({ socket with fd := n }, table)
      else if family = IPAddress.V4 ∨ family = IPAddress.V6 then
        match outcome.connect with
        | .done => ({ socket with fd := n, state := .Operational }, table)
        | .inProgress => ({ socket with fd := n, state := .Connecting }, table)
        | .failed => ({ socket with fd := -1, state := .Closed }, table.close n)
      else ({ socket with fd := -1 }, table.close n)

def on (socket : Socket) (timeout : Int) : Socket :=
  { socket with timeout := timeout, timer := true, io := true }

def watch (socket : Socket) : Socket :=
  { socket with timer := socket.timer || decide (socket.timeout ≠ 0), io := true }

-- `watch(mode, timeout)`
def watchFor (socket : Socket) (timeout : Int) : Socket :=
  watch { socket with timeout := if timeout ≠ 0 then timeout else socket.timeout }

def restart (socket : Socket) : Socket :=
  if socket.io then { socket with timer := decide (socket.timeout ≠ 0) } else socket

def stop (socket : Socket) : Socket := { socket with timer := false, io := false }

/-- `error` is what `getsockopt(SO_ERROR)` stores; `none` is its failure. -/
def onConnectComplete (socket : Socket) (error : Option Int) (table : Descriptors) :
    Socket × Descriptors :=
  if error = some 0 then ({ socket.stop with state := .Operational }, table)
  else socket.stop.close table

-- The callback `io` of the I/O watcher.
def onIo (socket : Socket) (error : Option Int) (table : Descriptors) : Socket × Descriptors :=
  let stopped := { socket with timer := false }
  if socket.state = .Connecting then stopped.onConnectComplete error table
  else (stopped, table)

-- The callback `timeout` of the timer.
def onTimeout (socket : Socket) : Socket := socket.stop

end Socket

namespace SocketLife

open Runs Socket

structure System where
  sockets : Nat → Option Socket
  table : Descriptors

def initial : System := ⟨fun _ => none, [], false⟩

inductive Op where
  | construct (i : Nat)
  | adopt (i : Nat) (fd : Int) (state : SocketState)
  | openTo (i : Nat) (family : Int) (flags : BitVec 32) (outcome : Outcome)
  | on (i : Nat) (timeout : Int)
  | watch (i : Nat)
  | watchFor (i : Nat) (timeout : Int)
  | restart (i : Nat)
  | stop (i : Nat)
  | io (i : Nat) (error : Option Int)
  | timeout (i : Nat)
  | close (i : Nat)
  | destroy (i : Nat)

-- An event of a socket that does not exist cannot happen and changes nothing.
def System.act (system : System) (i : Nat)
    (event : Socket → Descriptors → Socket × Descriptors) : System :=
  match system.sockets i with
  | none => system
  | some socket =>
      ⟨Function.update system.sockets i (some (event socket system.table).1),
        (event socket system.table).2⟩

-- Nor does the kernel hand out a number that is open.
def System.actNew (system : System) (i : Nat) (fd : Option Nat)
    (event : Socket → Descriptors → Socket × Descriptors) : System :=
  if ∀ n ∈ fd, (n : Int) ∉ system.table.opened then system.act i event else system

def System.add (system : System) (i : Nat) (socket : Socket) : System :=
  match system.sockets i with
  | some _ => system
  | none =>
      if 0 ≤ socket.fd then
        if socket.fd ∈ system.table.opened then system
        else ⟨Function.update system.sockets i (some socket), system.table.obtain socket.fd⟩
      else ⟨Function.update system.sockets i (some socket), system.table⟩

def perform (system : System) : Op → System
  | .construct i => system.add i create
  | .adopt i fd state => system.add i (.adopt fd state)
  | .openTo i family flags outcome =>
      system.actNew i outcome.socket fun socket table => socket.openTo family flags outcome table
  | .on i timeout => system.act i fun socket table => (socket.on timeout, table)
  | .watch i => system.act i fun socket table => (socket.watch, table)
  | .watchFor i timeout => system.act i fun socket table => (socket.watchFor timeout, table)
  | .restart i => system.act i fun socket table => (socket.restart, table)
  | .stop i => system.act i fun socket table => (socket.stop, table)
  -- only an armed watcher calls back
  | .io i error => system.act i fun socket table =>
      if socket.io then socket.onIo error table else (socket, table)
  | .timeout i => system.act i fun socket table =>
      (if socket.timer then socket.onTimeout else socket, table)
  | .close i => system.act i Socket.close
  | .destroy i =>
      match system.sockets i with
      | none => system
      | some socket => ⟨Function.update system.sockets i none, (socket.close system.table).2⟩

def step : Machine System Op Unit := fun system op => (perform system op, ())

structure Settled (socket : Socket) : Prop where
  closed_iff : socket.state = .Closed ↔ socket.fd = -1
  quiet : socket.state = .Closed → socket.io = false ∧ socket.timer = false

def Orderly (system : System) : Prop :=
  (∀ i socket, system.sockets i = some socket → Settled socket) ∧ system.table.misclosed = false

/-- What an `open` needs of the socket it is called on, exit by exit. -/
def Openable (socket : Socket) (family : Int) (flags : BitVec 32) (outcome : Outcome) : Prop :=
  if outcome.socket = none then socket.state = .Closed
  else if applyFlags flags outcome.fcntl = false then socket.state ≠ .Closed
  else if family = IPAddress.V4 ∨ family = IPAddress.V6 then
    outcome.connect = .failed → socket.io = false ∧ socket.timer = false
  else socket.state = .Closed

/-- The condition on the next event. `close()` and a failed connect only pass on sockets
without a descriptor, and watchers are only started on sockets that are not closed. -/
def Careful (system : System) : Op → Prop
  | .adopt i fd state =>
      system.sockets i = none → (0 ≤ fd → fd ∉ system.table.opened) →
        (state = .Closed ↔ fd = -1)
  | .openTo i family flags outcome => ∀ socket, system.sockets i = some socket →
      (∀ n ∈ outcome.socket, (n : Int) ∉ system.table.opened) →
        Openable socket family flags outcome
  | .on i _ | .watch i | .watchFor i _ => ∀ socket, system.sockets i = some socket →
      socket.state ≠ .Closed
  | .io i error => ∀ socket, system.sockets i = some socket →
      socket.io = true → socket.state = .Connecting → error = some 0 ∨ socket.fd < 0
  | .close i => ∀ socket, system.sockets i = some socket → socket.fd < 0
  | .construct _ | .restart _ | .stop _ | .timeout _ | .destroy _ => True

/-! One event of one socket. -/

/-- Besides settling the socket, an event may replace its descriptor by a new one or give
it up, and touches no other open descriptor. -/
structure Passage (socket : Socket) (table : Descriptors) (after : Socket × Descriptors) :
    Prop where
  settled : Settled after.1
  owned : 0 ≤ after.1.fd → after.1.fd ∈ after.2.opened
  fresh : 0 ≤ after.1.fd → after.1.fd = socket.fd ∨ after.1.fd ∉ table.opened
  others : ∀ fd ∈ table.opened, fd ≠ socket.fd → fd ∈ after.2.opened
  clean : table.misclosed = false → after.2.misclosed = false

structure Sound (system : System) : Prop where
  settled : ∀ i socket, system.sockets i = some socket → Settled socket
  owned : ∀ i socket, system.sockets i = some socket → 0 ≤ socket.fd →
    socket.fd ∈ system.table.opened
  apart : ∀ i j socket other, system.sockets i = some socket → system.sockets j = some other →
    0 ≤ socket.fd → socket.fd = other.fd → i = j
  clean : system.table.misclosed = false

theorem mem_close (table : Descriptors) (fd other : Int) :
    other ∈ (table.close fd).opened ↔ other ∈ table.opened ∧ other ≠ fd := by
  simp [Descriptors.close]

theorem close_clean (table : Descriptors) (fd : Int) :
    (table.close fd).misclosed = false ↔ table.misclosed = false ∧ fd ∈ table.opened := by
  simp [Descriptors.close]

-- A descriptor closed right after it was obtained leaves the table as it was.
theorem obtain_close_opened (table : Descriptors) (fd other : Int) (fresh : fd ∉ table.opened) :
    other ∈ ((table.obtain fd).close fd).opened ↔ other ∈ table.opened := by
  rw [mem_close]
  simp only [Descriptors.obtain, List.mem_cons]
  constructor
  · rintro ⟨same | before, different⟩
    · exact absurd same different
    · exact before
  · intro before
    exact ⟨Or.inr before, fun same => fresh (same ▸ before)⟩

theorem passage_of_same (socket after : Socket) (table : Descriptors)
    (held : 0 ≤ socket.fd → socket.fd ∈ table.opened) (fd : after.fd = socket.fd)
    (settled : Settled after) : Passage socket table (after, table) :=
  ⟨settled, fun open_fd => fd ▸ held (fd ▸ open_fd), fun _ => Or.inl fd,
    fun _ member _ => member, id⟩

/-! The exits of `open` with a descriptor differ in the state only, those without in why. -/

theorem passage_obtained (socket : Socket) (table : Descriptors) (n : Nat)
    (new : (n : Int) ∉ table.opened) (state : SocketState) (running : state ≠ .Closed) :
    Passage socket table ({ socket with fd := n, state := state }, table.obtain n) := by
  have positive : (n : Int) ≠ -1 := by omega
  refine ⟨⟨iff_of_false running positive, fun closed => absurd closed running⟩, ?_, ?_, ?_, id⟩
  · exact fun _ => List.mem_cons_self
  · exact fun _ => Or.inr new
  · exact fun fd member _ => List.mem_cons_of_mem _ member

theorem passage_dropped (socket : Socket) (table : Descriptors) (n : Nat)
    (new : (n : Int) ∉ table.opened) (quiet : socket.io = false ∧ socket.timer = false) :
    Passage socket table
      ({ socket with fd := -1, state := .Closed }, (table.obtain n).close n) := by
  refine ⟨⟨iff_of_true rfl rfl, fun _ => quiet⟩, ?_, ?_, ?_, ?_⟩
  · intro negative
    cases negative
  · intro negative
    cases negative
  · exact fun fd member _ => (obtain_close_opened table n fd new).mpr member
  · exact fun clean => (close_clean _ _).mpr ⟨clean, List.mem_cons_self⟩

theorem openTo_passage (socket : Socket) (family : Int) (flags : BitVec 32) (outcome : Outcome)
    (table : Descriptors) (settled : Settled socket)
    (fresh : ∀ n ∈ outcome.socket, (n : Int) ∉ table.opened)
    (openable : Openable socket family flags outcome) :
    Passage socket table (socket.openTo family flags outcome table) := by
  simp only [Openable] at openable
  simp only [Socket.openTo]
  cases made : outcome.socket with
  | none =>
      rw [made, if_pos rfl] at openable
      refine ⟨⟨iff_of_true openable rfl, settled.quiet⟩, ?_, ?_, fun _ member _ => member, id⟩
      · intro negative
        cases negative
      · intro negative
        cases negative
  | some n =>
      have new : (n : Int) ∉ table.opened := fresh n made
      rw [made, if_neg (by simp)] at openable
      simp only
      split
      · rename_i unapplied
        rw [if_pos unapplied] at openable
        exact passage_obtained socket table n new socket.state openable
      rename_i applied
      rw [if_neg applied] at openable
      split
      · rename_i internet
        rw [if_pos internet] at openable
        cases connected : outcome.connect with
        | done => exact passage_obtained socket table n new .Operational (by decide)
        | inProgress => exact passage_obtained socket table n new .Connecting (by decide)
        | failed => exact passage_dropped socket table n new (openable connected)
      · rename_i foreign
        rw [if_neg foreign] at openable
        have same : { socket with fd := -1 } = { socket with fd := -1, state := .Closed } := by
          rw [← openable]
        rw [same]
        exact passage_dropped socket table n new (settled.quiet openable)

theorem openTo_needs (socket : Socket) (family : Int) (flags : BitVec 32) (outcome : Outcome)
    (table : Descriptors) (settled : Settled (socket.openTo family flags outcome table).1) :
    Openable socket family flags outcome := by
  simp only [Openable]
  cases made : outcome.socket with
  | none =>
      simp only [Socket.openTo, made] at settled
      exact settled.closed_iff.mpr rfl
  | some n =>
      have positive : (n : Int) ≠ -1 := by omega
      simp only [Socket.openTo, made] at settled
      rw [if_neg (by simp)]
      split
      · rename_i unapplied
        simp only [unapplied, ↓reduceIte] at settled
        exact fun closed => positive (settled.closed_iff.mp closed)
      rename_i applied
      simp only [applied] at settled
      split
      · rename_i internet
        simp only [internet, ↓reduceIte] at settled
        intro failed
        simp only [failed] at settled
        exact settled.quiet rfl
      · rename_i foreign
        simp only [foreign, ↓reduceIte] at settled
        exact settled.closed_iff.mpr rfl

theorem lookup_update (sockets : Nat → Option Socket) (i j : Nat) (slot : Option Socket)
    (socket : Socket) (found : Function.update sockets i slot j = some socket) :
    j = i ∧ slot = some socket ∨ j ≠ i ∧ sockets j = some socket := by
  by_cases here : j = i
  · subst j
    rw [Function.update_self] at found
    exact Or.inl ⟨rfl, found⟩
  · rw [Function.update_of_ne here] at found
    exact Or.inr ⟨here, found⟩

theorem put_sound (system : System) (i : Nat) (slot : Option Socket) (table : Descriptors)
    (sound : Sound system) (settled : ∀ socket, slot = some socket → Settled socket)
    (owned : ∀ socket, slot = some socket → 0 ≤ socket.fd → socket.fd ∈ table.opened)
    (unshared : ∀ socket, slot = some socket → ∀ j other, j ≠ i → system.sockets j = some other →
      0 ≤ other.fd → other.fd ≠ socket.fd)
    (others : ∀ j other, j ≠ i → system.sockets j = some other → 0 ≤ other.fd →
      other.fd ∈ table.opened)
    (clean : table.misclosed = false) : Sound ⟨Function.update system.sockets i slot, table⟩ := by
  refine ⟨?_, ?_, ?_, clean⟩
  · intro j socket found
    rcases lookup_update _ i j slot socket found with ⟨_, here⟩ | ⟨_, there⟩
    · exact settled socket here
    · exact sound.settled j socket there
  · intro j socket found positive
    rcases lookup_update _ i j slot socket found with ⟨_, here⟩ | ⟨apart, there⟩
    · exact owned socket here positive
    · exact others j socket apart there positive
  · intro j k first second at_j at_k positive same
    rcases lookup_update _ i j slot first at_j with ⟨j_here, here⟩ | ⟨apart, there⟩
    · rcases lookup_update _ i k slot second at_k with ⟨k_here, _⟩ | ⟨also, second_there⟩
      · exact j_here.trans k_here.symm
      · exact absurd same.symm (unshared first here k second also second_there (same ▸ positive))
    · rcases lookup_update _ i k slot second at_k with ⟨_, here⟩ | ⟨also, second_there⟩
      · exact absurd same (unshared second here j first apart there positive)
      · exact sound.apart j k first second there second_there positive same

theorem act_sound (system : System) (i : Nat)
    (event : Socket → Descriptors → Socket × Descriptors) (sound : Sound system)
    (passes : ∀ socket, system.sockets i = some socket →
      Passage socket system.table (event socket system.table)) : Sound (system.act i event) := by
  simp only [System.act]
  cases found : system.sockets i with
  | none => exact sound
  | some socket =>
      have passage := passes socket found
      apply put_sound system i _ _ sound
      · rintro _ ⟨⟩
        exact passage.settled
      · rintro _ ⟨⟩
        exact passage.owned
      · rintro _ ⟨⟩ j other apart there positive same
        rcases passage.fresh (same ▸ positive) with old | new
        · exact apart (sound.apart j i other socket there found positive (same.trans old))
        · exact new (same ▸ sound.owned j other there positive)
      · intro j other apart there positive
        apply passage.others _ (sound.owned j other there positive)
        exact fun same => apart (sound.apart j i other socket there found positive same)
      · exact passage.clean sound.clean

-- Events that touch neither descriptor nor table.
theorem act_sound_of_same (system : System) (i : Nat) (event : Socket → Socket)
    (sound : Sound system) (fd : ∀ socket, (event socket).fd = socket.fd)
    (settled : ∀ socket, system.sockets i = some socket → Settled socket → Settled (event socket)) :
    Sound (system.act i fun socket table => (event socket, table)) := by
  apply act_sound system i _ sound
  intro socket found
  exact passage_of_same socket (event socket) system.table (sound.owned i socket found) (fd socket)
    (settled socket found (sound.settled i socket found))

theorem arm_sound (system : System) (i : Nat) (event : Socket → Socket) (sound : Sound system)
    (fd : ∀ socket, (event socket).fd = socket.fd)
    (state : ∀ socket, (event socket).state = socket.state)
    (running : ∀ socket, system.sockets i = some socket → socket.state ≠ .Closed) :
    Sound (system.act i fun socket table => (event socket, table)) := by
  apply act_sound_of_same system i event sound fd
  intro socket found settled
  refine ⟨?_, fun closed => ?_⟩
  · rw [state, fd]
    exact settled.closed_iff
  · rw [state] at closed
    exact absurd closed (running socket found)

theorem add_sound (system : System) (i : Nat) (socket : Socket) (sound : Sound system)
    (settled : system.sockets i = none → (0 ≤ socket.fd → socket.fd ∉ system.table.opened) →
      Settled socket) : Sound (system.add i socket) := by
  simp only [System.add]
  cases found : system.sockets i with
  | some _ => exact sound
  | none =>
      simp only
      split
      · split
        · exact sound
        · rename_i new
          apply put_sound system i _ _ sound
          · rintro _ ⟨⟩
            exact settled found fun _ => new
          · rintro _ ⟨⟩ _
            exact List.mem_cons_self
          · rintro _ ⟨⟩ j other _ there positive same
            exact new (same ▸ sound.owned j other there positive)
          · intro j other _ there positive
            exact List.mem_cons_of_mem _ (sound.owned j other there positive)
          · exact sound.clean
      · rename_i negative
        apply put_sound system i _ _ sound
        · rintro _ ⟨⟩
          exact settled found fun positive => absurd positive negative
        · rintro _ ⟨⟩ positive
          exact absurd positive negative
        · rintro _ ⟨⟩ j other _ _ positive same
          exact negative (same ▸ positive)
        · exact fun j other _ there positive => sound.owned j other there positive
        · exact sound.clean

theorem destroy_sound (system : System) (i : Nat) (sound : Sound system) :
    Sound (perform system (.destroy i)) := by
  simp only [perform]
  cases found : system.sockets i with
  | none => exact sound
  | some socket =>
      apply put_sound system i none _ sound
      · rintro _ ⟨⟩
      · rintro _ ⟨⟩
      · rintro _ ⟨⟩
      · intro j other apart there positive
        have held := sound.owned j other there positive
        simp only [Socket.close]
        split
        · refine (mem_close _ _ _).mpr ⟨held, fun same => apart ?_⟩
          exact sound.apart j i other socket there found positive same
        · exact held
      · simp only [Socket.close]
        split
        · rename_i positive
          exact (close_clean _ _).mpr ⟨sound.clean, sound.owned i socket found positive⟩
        · exact sound.clean

theorem close_unopened (socket : Socket) (table : Descriptors) (unopened : socket.fd < 0) :
    socket.close table = (socket, table) :=
  if_neg (by omega)

theorem close_needs (socket : Socket) (table : Descriptors)
    (settled : Settled (socket.close table).1) : socket.fd < 0 := by
  by_contra positive
  have closes : 0 ≤ socket.fd := by omega
  simp only [Socket.close, if_pos closes] at settled
  have gone := settled.closed_iff.mp rfl
  simp only at gone
  omega

theorem onIo_passage (socket : Socket) (error : Option Int) (table : Descriptors)
    (settled : Settled socket) (held : 0 ≤ socket.fd → socket.fd ∈ table.opened)
    (careful : socket.state = .Connecting → error = some 0 ∨ socket.fd < 0) :
    Passage socket table (socket.onIo error table) := by
  simp only [Socket.onIo]
  split
  · rename_i connecting
    have given : socket.fd ≠ -1 := by
      intro nothing
      have closed := settled.closed_iff.mpr nothing
      rw [connecting] at closed
      cases closed
    simp only [Socket.onConnectComplete]
    split
    · refine passage_of_same socket _ table held rfl ⟨iff_of_false (by simp) given, ?_⟩
      rintro ⟨⟩
    · rename_i failed
      have unopened : ({ socket with timer := false } : Socket).stop.fd < 0 :=
        (careful connecting).resolve_left failed
      rw [close_unopened _ _ unopened]
      refine passage_of_same socket _ table held rfl ⟨?_, fun _ => ⟨rfl, rfl⟩⟩
      exact settled.closed_iff
  · exact passage_of_same socket _ table held rfl
      ⟨settled.closed_iff, fun closed => ⟨(settled.quiet closed).1, rfl⟩⟩

theorem onIo_needs (socket : Socket) (error : Option Int) (table : Descriptors)
    (settled : Settled (socket.onIo error table).1) (connecting : socket.state = .Connecting) :
    error = some 0 ∨ socket.fd < 0 := by
  by_cases connected : error = some 0
  · exact Or.inl connected
  · right
    simp only [Socket.onIo, if_pos connecting, Socket.onConnectComplete, if_neg connected]
      at settled
    exact close_needs ({ socket with timer := false } : Socket).stop table settled

theorem stop_settled (socket : Socket) (settled : Settled socket) : Settled socket.stop :=
  ⟨settled.closed_iff, fun _ => ⟨rfl, rfl⟩⟩

theorem restart_settled (socket : Socket) (settled : Settled socket) : Settled socket.restart := by
  simp only [Socket.restart]
  split
  · rename_i armed
    refine ⟨settled.closed_iff, fun closed => ?_⟩
    have quiet := (settled.quiet closed).1
    rw [armed] at quiet
    cases quiet
  · exact settled

theorem perform_sound (system : System) (op : Op) (sound : Sound system)
    (careful : Careful system op) : Sound (perform system op) := by
  cases op with
  | construct i =>
      exact add_sound system i create sound fun _ _ => ⟨iff_of_true rfl rfl, fun _ => ⟨rfl, rfl⟩⟩
  | adopt i fd state =>
      exact add_sound system i _ sound fun slot new => ⟨careful slot new, fun _ => ⟨rfl, rfl⟩⟩
  | openTo i family flags outcome =>
      simp only [perform, System.actNew]
      split
      · rename_i fresh
        apply act_sound system i _ sound
        intro socket found
        exact openTo_passage socket family flags outcome system.table
          (sound.settled i socket found) fresh (careful socket found fresh)
      · exact sound
  | on i timeout =>
      exact arm_sound system i (·.on timeout) sound (fun _ => rfl) (fun _ => rfl) careful
  | watch i =>
      exact arm_sound system i Socket.watch sound (fun _ => rfl) (fun _ => rfl) careful
  | watchFor i timeout =>
      exact arm_sound system i (·.watchFor timeout) sound (fun _ => rfl) (fun _ => rfl) careful
  | restart i =>
      apply act_sound_of_same system i Socket.restart sound
      · intro socket
        simp only [Socket.restart]
        split <;> rfl
      · exact fun socket _ settled => restart_settled socket settled
  | stop i =>
      apply act_sound_of_same system i Socket.stop sound (fun _ => rfl)
      exact fun socket _ settled => stop_settled socket settled
  | io i error =>
      simp only [perform]
      apply act_sound system i _ sound
      intro socket found
      have settled := sound.settled i socket found
      have held := sound.owned i socket found
      split
      · rename_i armed
        exact onIo_passage socket error system.table settled held (careful socket found armed)
      · exact passage_of_same socket socket system.table held rfl settled
  | timeout i =>
      apply act_sound_of_same system i
        (fun socket => if socket.timer then socket.onTimeout else socket) sound
      · intro socket
        split <;> rfl
      · intro socket _ settled
        split
        · exact stop_settled socket settled
        · exact settled
  | close i =>
      apply act_sound system i _ sound
      intro socket found
      rw [close_unopened socket system.table (careful socket found)]
      exact passage_of_same socket socket system.table (sound.owned i socket found) rfl
        (sound.settled i socket found)
  | destroy i => exact destroy_sound system i sound

theorem act_settled (system : System) (i : Nat)
    (event : Socket → Descriptors → Socket × Descriptors) (orderly : Orderly (system.act i event))
    (socket : Socket) (found : system.sockets i = some socket) :
    Settled (event socket system.table).1 := by
  simp only [System.act, found] at orderly
  exact orderly.1 i _ (Function.update_self ..)

theorem add_lookup (system : System) (i : Nat) (socket : Socket) (slot : system.sockets i = none)
    (new : 0 ≤ socket.fd → socket.fd ∉ system.table.opened) :
    (system.add i socket).sockets i = some socket := by
  simp only [System.add, slot]
  split
  · rename_i positive
    rw [if_neg (new positive)]
    exact Function.update_self ..
  · exact Function.update_self ..

theorem perform_needs (system : System) (op : Op) (orderly : Orderly (perform system op)) :
    Careful system op := by
  cases op with
  | construct _ | restart _ | stop _ | timeout _ | destroy _ => trivial
  | adopt i fd state =>
      intro slot new
      exact (orderly.1 i _ (add_lookup system i (.adopt fd state) slot new)).closed_iff
  | openTo i family flags outcome =>
      intro socket found fresh
      simp only [perform, System.actNew, if_pos fresh] at orderly
      exact openTo_needs socket family flags outcome system.table
        (act_settled system i _ orderly socket found)
  | on i _ | watch i | watchFor i _ =>
      intro socket found closed
      have armed := ((act_settled system i _ orderly socket found).quiet closed).1
      cases armed
  | io i error =>
      intro socket found armed connecting
      have settled := act_settled system i _ orderly socket found
      simp only [armed, ↓reduceIte] at settled
      exact onIo_needs socket error system.table settled connecting
  | close i =>
      intro socket found
      exact close_needs socket system.table (act_settled system i _ orderly socket found)

/-- The life cycle is kept in exactly the runs of careful events. -/
theorem orderly_iff_careful (ops : List Op) :
    Always step Orderly initial ops ↔ Along step Careful initial ops := by
  refine always_iff_along step Careful Sound Orderly (fun _ sound => ⟨sound.settled, sound.clean⟩)
    (fun system op sound careful => perform_sound system op sound careful)
    (fun system op _ orderly => perform_needs system op orderly) initial ops ⟨?_, ?_, ?_, rfl⟩
  · rintro _ _ ⟨⟩
  · rintro _ _ ⟨⟩
  · rintro _ _ _ _ ⟨⟩

/-- `open` connects at once, `close()` leaves a closed socket with descriptor 3, and the
destructor closes 3 again. -/
theorem close_keeps_descriptor :
    ¬ Always step Orderly initial
        [.construct 0, .openTo 0 IPAddress.V4 0 ⟨some 3, true, .done⟩, .close 0] ∧
      (final step initial [.construct 0, .openTo 0 IPAddress.V4 0 ⟨some 3, true, .done⟩, .close 0,
        .destroy 0]).table.misclosed = true := by
  constructor
  · intro always
    have last := (always_final step Orderly _ _ always).1 0 _ rfl
    have gone := last.closed_iff.mp rfl
    revert gone
    decide
  · decide

end SocketLife

end Xio
