import Mathlib.Data.List.Count
import Xio.ServerSocket

/-!
How `lib/ServerSocket.cpp` serves connections. They wait in a queue of the kernel until the
listening socket is reported readable; `accept` then takes one, or up to `multiAcceptCount` of
them, and runs the callback for each. A blocking listener can keep the process inside `::accept`,
which then goes on when the next connection arrives. The callback may use the server itself, in
the middle of the loop, and may close the client; that it calls `handleOne` or `acceptOne`, or
opens the server anew, is not modelled. Connections that are left in the queue of a closed server
are never served.
-/

namespace Xio.AcceptLoop

open Runs

abbrev Connection := Nat

/-- `WITH_MULTI_ACCEPT`, `HAVE_ACCEPT4 && WITH_ACCEPT4`, and whether the kernel has the call. -/
structure Setting where
  multiAccept : Bool
  accept4 : Bool
  known : Bool

inductive Errno where
  | EINTR
  | EAGAIN
  | EBADF
  | other (code : Nat)
  deriving DecidableEq

/-- What a callback, or any other code of the process, does to the server, and the closing of a
client's descriptor by its owner. Of `setNonBlocking`, `ok` is the outcome of `fcntl(F_SETFL)`. -/
inductive Reaction where
  | start
  | stop
  | close
  | setMultiAcceptCount (value : Nat)
  | setNonBlocking (enable ok : Bool)
  | release (fd : Nat)
  deriving DecidableEq

/-- What the kernel and the callback do in one turn of the loop: the error of `accept` if it
fails although a connection may be waiting, else the number of the new descriptor; whether
`fcntl` succeeds, and its error. -/
structure Attempt where
  refusal : Option Errno
  fd : Nat
  setfl : Bool
  errno : Errno
  reactions : List Reaction

structure Station where
  server : ServerSocket
  multiAcceptCount : Nat
  active : Bool
  queue : List Connection
  files : Files
  table : Descriptors
  -- The turns left to a loop that waits inside `::accept`, 0 for one that does not.
  waiting : Nat
  aborted : Bool
  -- The descriptors that their owners have closed; no code reads it.
  released : List Nat

/-- A connection reaches its callback, or is closed for a failed `fcntl`; an error reaches the
callback as a null pointer. -/
inductive Served where
  | delivered (connection : Connection) (fd : Nat)
  | dropped (connection : Connection) (fd : Nat)
  | reported
  deriving DecidableEq

inductive Answer where
  | taken (connection : Connection) (fd : Nat)
  | refused (errno : Errno)
  | waits

inductive Obtained where
  | client
  | nothing (errno : Errno)
  | waits

inductive Handled where
  | proceed
  | enough
  | waits

-- `EWOULDBLOCK` is `EAGAIN`.
def Errno.passing : Errno → Bool
  | .EINTR | .EAGAIN => true
  | _ => false

namespace Answer

def accept : Answer → Option Nat
  | .taken _ fd => some fd
  | _ => none

def accept4 (known : Bool) (answer : Answer) : ServerSocket.Accepted :=
  match known, answer with
  | false, _ => .unsupported
  | true, .taken _ fd => .descriptor fd
  | true, _ => .failed

end Answer

-- `fcntl(fd, F_SETFL, ..)` with `O_NONBLOCK` set in the old flags, or cleared.
def setNonBlocking (files : Files) (fd : Int) (enable : Bool) : Files :=
  Function.update files fd { files fd with nonblock := enable }

namespace Station

/-- A failed assertion of `start` ends the process. -/
def react (station : Station) : Reaction → Station
  | .start =>
      if 0 ≤ station.server.fd ∧ station.active = false then { station with active := true }
      else { station with aborted := true }
  | .stop => { station with active := false }
  | .close =>
      if 0 ≤ station.server.fd then
        { station with
          active := false
          server := { station.server with fd := -1 }
          table := station.table.close station.server.fd }
      else station
  | .setMultiAcceptCount value => { station with multiAcceptCount := max value 1 }
  | .setNonBlocking enable ok =>
      if 0 ≤ station.server.fd ∧ ok = true then
        { station with files := setNonBlocking station.files station.server.fd enable }
      else station
  | .release fd =>
      { station with table := station.table.close fd, released := fd :: station.released }

def reactAll (station : Station) (reactions : List Reaction) : Station :=
  reactions.foldl (fun station reaction =>
    if station.aborted then station else station.react reaction) station

def answer (station : Station) (attempt : Attempt) : Answer :=
  if station.server.fd < 0 then .refused .EBADF
  else match attempt.refusal with
    | some errno => .refused errno
    | none => match station.queue with
      | [] => if (station.files station.server.fd).nonblock then .refused .EAGAIN else .waits
      | connection :: _ => .taken connection attempt.fd

def acceptOne (setting : Setting) (attempt : Attempt) (station : Station) :
    Obtained × Station × List Served :=
  let answer := station.answer attempt
  match answer with
  | .waits => (.waits, station, [])
  | .refused errno => (.nothing errno, station, [])
  | .taken connection fd =>
      let taken := { station with queue := station.queue.tail, table := station.table.obtain fd }
      match station.server.acceptOne setting.accept4 (answer.accept4 setting.known) answer.accept
          attempt.setfl station.files with
      | some (_, files) => (.client, { taken with files := files }, [.delivered connection fd])
      | none =>
          (.nothing attempt.errno, { taken with table := taken.table.close fd },
            [.dropped connection fd])

def report (station : Station) (errno : Errno) (reactions : List Reaction) :
    Station × List Served :=
  if errno.passing then (station, []) else (station.reactAll reactions, [.reported])

def handleOne (setting : Setting) (attempt : Attempt) (station : Station) :
    Handled × Station × List Served :=
  match station.acceptOne setting attempt with
  | (.waits, station, served) => (.waits, station, served)
  | (.client, station, served) => (.proceed, station.reactAll attempt.reactions, served)
  | (.nothing errno, station, served) =>
      let reported := station.report errno attempt.reactions
      (.enough, reported.1, served ++ reported.2)

/-- The loop of `accept` with so many turns left. -/
def acceptLoop (setting : Setting) (attempts : Nat → Attempt) :
    Nat → Station → Station × List Served
  | 0, station => ({ station with waiting := 0 }, [])
  | left + 1, station =>
      if station.aborted then ({ station with waiting := 0 }, [])
      else match handleOne setting (attempts left) station with
        | (.waits, station, served) => ({ station with waiting := left + 1 }, served)
        | (.enough, station, served) => ({ station with waiting := 0 }, served)
        | (.proceed, station, served) =>
            let rest := acceptLoop setting attempts left station
            (rest.1, served ++ rest.2)

def limit (setting : Setting) (station : Station) : Nat :=
  if setting.multiAccept then station.multiAcceptCount else 1

def accept (setting : Setting) (attempts : Nat → Attempt) (station : Station) :
    Station × List Served :=
  acceptLoop setting attempts (station.limit setting) station

end Station

/-- A connection arrives, the socket is reported readable, a signal interrupts a system call, or
the process uses the server or closes a client. -/
inductive Event where
  | connect (connection : Connection) (attempts : Nat → Attempt)
  | ready (attempts : Nat → Attempt)
  | signal
  | react (reaction : Reaction)

structure Seen where
  arrived : List Connection
  served : List Served

-- A process that waits inside `::accept`, or has ended, runs no other code.
def step (setting : Setting) : Machine Station Event Seen
  | station, .connect connection attempts =>
      let queued := { station with queue := station.queue ++ [connection] }
      if station.waiting = 0 then (queued, ⟨[connection], []⟩)
      else
        let after := queued.acceptLoop setting attempts station.waiting
        (after.1, ⟨[connection], after.2⟩)
  | station, .ready attempts =>
      if station.waiting = 0 ∧ station.active = true ∧ station.aborted = false then
        let after := station.accept setting attempts
        (after.1, ⟨[], after.2⟩)
      else (station, ⟨[], []⟩)
  | station, .signal => ({ station with waiting := 0 }, ⟨[], []⟩)
  | station, .react reaction =>
      if station.waiting = 0 then (station.reactAll [reaction], ⟨[], []⟩)
      else (station, ⟨[], []⟩)

/-! One turn of the loop. -/

inductive Taking (setting : Setting) (attempt : Attempt) (station : Station) :
    Obtained × Station × List Served → Prop
  | waits (listening : 0 ≤ station.server.fd)
      (blocking : (station.files station.server.fd).nonblock = false)
      (unrefused : attempt.refusal = none) (idle : station.queue = []) :
      Taking setting attempt station (.waits, station, [])
  | refused (errno : Errno)
      (reason : station.server.fd < 0 ∨ attempt.refusal = some errno ∨
        (errno = .EAGAIN ∧ station.queue = [] ∧
          (station.files station.server.fd).nonblock = true)) :
      Taking setting attempt station (.nothing errno, station, [])
  | delivered (connection : Connection) (rest : List Connection) (files : Files)
      (queued : station.queue = connection :: rest)
      (others : ∀ fd, fd ≠ (attempt.fd : Int) → files fd = station.files fd) :
      Taking setting attempt station (.client,
        { station with
          queue := rest
          table := station.table.obtain attempt.fd
          files := files },
        [.delivered connection attempt.fd])
  | dropped (connection : Connection) (rest : List Connection)
      (queued : station.queue = connection :: rest)
      (plain : (setting.accept4 && setting.known) = false) (flagged : station.server.flags ≠ 0)
      (failed : attempt.setfl = false) :
      Taking setting attempt station (.nothing attempt.errno,
        { station with
          queue := rest
          table := (station.table.obtain attempt.fd).close attempt.fd },
        [.dropped connection attempt.fd])

inductive Turn (setting : Setting) (attempt : Attempt) (station : Station) :
    Handled × Station × List Served → Prop
  | waits (listening : 0 ≤ station.server.fd)
      (blocking : (station.files station.server.fd).nonblock = false)
      (unrefused : attempt.refusal = none) (idle : station.queue = []) :
      Turn setting attempt station (.waits, station, [])
  | refused (errno : Errno)
      (reason : station.server.fd < 0 ∨ attempt.refusal = some errno ∨
        (errno = .EAGAIN ∧ station.queue = [] ∧
          (station.files station.server.fd).nonblock = true)) :
      Turn setting attempt station (.enough, station.report errno attempt.reactions)
  | delivered (connection : Connection) (rest : List Connection) (files : Files)
      (queued : station.queue = connection :: rest)
      (others : ∀ fd, fd ≠ (attempt.fd : Int) → files fd = station.files fd) :
      Turn setting attempt station (.proceed,
        { station with
          queue := rest
          table := station.table.obtain attempt.fd
          files := files }.reactAll attempt.reactions,
        [.delivered connection attempt.fd])
  | dropped (connection : Connection) (rest : List Connection)
      (queued : station.queue = connection :: rest)
      (plain : (setting.accept4 && setting.known) = false) (flagged : station.server.flags ≠ 0)
      (failed : attempt.setfl = false) (after : Station × List Served)
      (same : after = { station with
          queue := rest
          table := (station.table.obtain attempt.fd).close attempt.fd }.report
            attempt.errno attempt.reactions) :
      Turn setting attempt station (.enough, after.1, .dropped connection attempt.fd :: after.2)

theorem create_others (files : Files) (n : Nat) (mask : BitVec 32) (fd : Int) (other : fd ≠ n) :
    files.create n mask fd = files fd :=
  Function.update_of_ne other ..

theorem setfl_others (files : Files) (n : Nat) (flags : BitVec 32) (fd : Int) (other : fd ≠ n) :
    files.setfl n flags fd = files fd :=
  Function.update_of_ne other ..

theorem acceptOne_taken (setting : Setting) (server : ServerSocket) (files : Files) (setfl : Bool)
    (connection : Connection) (n : Nat) :
    (∃ after, server.acceptOne setting.accept4 ((Answer.taken connection n).accept4 setting.known)
        (some n) setfl files = some (n, after) ∧ ∀ fd, fd ≠ (n : Int) → after fd = files fd) ∨
      (server.acceptOne setting.accept4 ((Answer.taken connection n).accept4 setting.known)
          (some n) setfl files = none ∧
        (setting.accept4 && setting.known) = false ∧ server.flags ≠ 0 ∧ setfl = false) := by
  obtain ⟨multi, accept4, known⟩ := setting
  by_cases direct : (accept4 && known) = true
  · obtain ⟨rfl, rfl⟩ := Bool.and_eq_true_iff.mp direct
    exact Or.inl ⟨_, rfl, create_others files n _⟩
  · have fallback : server.acceptOne accept4 ((Answer.taken connection n).accept4 known)
        (some n) setfl files =
          if server.flags = 0 then some (n, files.create n 0)
          else if setfl then some (n, (files.create n 0).setfl n server.flags) else none := by
      cases accept4 <;> cases known <;> first | rfl | exact absurd rfl direct
    rw [fallback]
    by_cases plain : server.flags = 0
    · rw [if_pos plain]
      exact Or.inl ⟨_, rfl, create_others files n 0⟩
    · rw [if_neg plain]
      cases setfl with
      | true =>
          refine Or.inl ⟨_, rfl, ?_⟩
          intro fd other
          rw [setfl_others _ _ _ _ other, create_others _ _ _ _ other]
      | false => exact Or.inr ⟨rfl, by simpa using direct, plain, rfl⟩

theorem acceptOne_taking (setting : Setting) (attempt : Attempt) (station : Station) :
    Taking setting attempt station (station.acceptOne setting attempt) := by
  unfold Station.acceptOne Station.answer
  by_cases closed : station.server.fd < 0
  · rw [if_pos closed]
    exact .refused .EBADF (Or.inl closed)
  rw [if_neg closed]
  cases refusal : attempt.refusal with
  | some errno => exact .refused errno (Or.inr (Or.inl refusal))
  | none =>
      cases queued : station.queue with
      | nil =>
          dsimp only
          by_cases nonblock : (station.files station.server.fd).nonblock = true
          · rw [if_pos nonblock]
            exact .refused .EAGAIN (Or.inr (Or.inr ⟨rfl, queued, nonblock⟩))
          · rw [if_neg nonblock]
            exact .waits (by omega) (by simpa using nonblock) refusal queued
      | cons connection rest =>
          dsimp only [Answer.accept]
          rcases acceptOne_taken setting station.server station.files attempt.setfl connection
            attempt.fd with ⟨files, accepted, others⟩ | ⟨lost, plain, flagged, failed⟩
          · rw [accepted]
            exact .delivered connection rest files queued others
          · rw [lost]
            exact .dropped connection rest queued plain flagged failed

theorem handleOne_turn (setting : Setting) (attempt : Attempt) (station : Station) :
    Turn setting attempt station (station.handleOne setting attempt) := by
  have taking := acceptOne_taking setting attempt station
  unfold Station.handleOne
  generalize station.acceptOne setting attempt = result at taking ⊢
  cases taking with
  | waits listening blocking unrefused idle => exact .waits listening blocking unrefused idle
  | refused errno reason => exact .refused errno reason
  | delivered connection rest files queued others =>
      exact .delivered connection rest files queued others
  | dropped connection rest queued plain flagged failed =>
      exact .dropped connection rest queued plain flagged failed _ rfl

theorem acceptLoop_rule (setting : Setting) (attempts : Nat → Attempt)
    (motive : Nat → Station → Station × List Served → Prop)
    (done : ∀ station, motive 0 station ({ station with waiting := 0 }, []))
    (aborted : ∀ left station, station.aborted = true →
      motive (left + 1) station ({ station with waiting := 0 }, []))
    (waits : ∀ left station after served, station.aborted = false →
      station.handleOne setting (attempts left) = (.waits, after, served) →
      Turn setting (attempts left) station (.waits, after, served) →
      motive (left + 1) station ({ after with waiting := left + 1 }, served))
    (enough : ∀ left station after served, station.aborted = false →
      station.handleOne setting (attempts left) = (.enough, after, served) →
      Turn setting (attempts left) station (.enough, after, served) →
      motive (left + 1) station ({ after with waiting := 0 }, served))
    (proceed : ∀ left station after served rest, station.aborted = false →
      station.handleOne setting (attempts left) = (.proceed, after, served) →
      Turn setting (attempts left) station (.proceed, after, served) → motive left after rest →
      motive (left + 1) station (rest.1, served ++ rest.2))
    (left : Nat) (station : Station) :
    motive left station (station.acceptLoop setting attempts left) := by
  induction left generalizing station with
  | zero => exact done station
  | succ left ih =>
      rw [Station.acceptLoop]
      split
      · next ended => exact aborted left station ended
      next running =>
      have running := Bool.eq_false_iff.mpr running
      have turn := handleOne_turn setting (attempts left) station
      generalize made : station.handleOne setting (attempts left) = result at turn ⊢
      obtain ⟨handled, after, served⟩ := result
      cases handled with
      | waits => exact waits left station after served running made turn
      | enough => exact enough left station after served running made turn
      | proceed => exact proceed left station after served _ running made turn (ih after)

/-! What the callback can do. -/

structure Calm (before after : Station) : Prop where
  queue : after.queue = before.queue
  waiting : after.waiting = before.waiting
  flags : after.server.flags = before.server.flags
  place : after.server.fd = before.server.fd ∨ after.server.fd = -1

theorem Calm.refl (station : Station) : Calm station station := ⟨rfl, rfl, rfl, Or.inl rfl⟩

theorem Calm.trans {before between after : Station} (first : Calm before between)
    (second : Calm between after) : Calm before after where
  queue := second.queue.trans first.queue
  waiting := second.waiting.trans first.waiting
  flags := second.flags.trans first.flags
  place := by
    rcases second.place with same | closed
    · rw [same]
      exact first.place
    · exact Or.inr closed

theorem react_calm (station : Station) (reaction : Reaction) :
    Calm station (station.react reaction) := by
  cases reaction with
  | start =>
      rw [Station.react]
      split
      · exact ⟨rfl, rfl, rfl, Or.inl rfl⟩
      · exact ⟨rfl, rfl, rfl, Or.inl rfl⟩
  | stop => exact ⟨rfl, rfl, rfl, Or.inl rfl⟩
  | close =>
      rw [Station.react]
      split
      · exact ⟨rfl, rfl, rfl, Or.inr rfl⟩
      · exact .refl station
  | setMultiAcceptCount value => exact ⟨rfl, rfl, rfl, Or.inl rfl⟩
  | setNonBlocking enable ok =>
      rw [Station.react]
      split
      · exact ⟨rfl, rfl, rfl, Or.inl rfl⟩
      · exact .refl station
  | release fd => exact ⟨rfl, rfl, rfl, Or.inl rfl⟩

theorem reactAll_cons (station : Station) (reaction : Reaction) (rest : List Reaction) :
    station.reactAll (reaction :: rest) =
      (if station.aborted then station else station.react reaction).reactAll rest :=
  rfl

theorem reactAll_calm (station : Station) (reactions : List Reaction) :
    Calm station (station.reactAll reactions) := by
  induction reactions generalizing station with
  | nil => exact .refl station
  | cons reaction rest ih =>
      rw [reactAll_cons]
      split
      · exact ih station
      · exact (react_calm station reaction).trans (ih _)

theorem report_calm (station : Station) (errno : Errno) (reactions : List Reaction) :
    Calm station (station.report errno reactions).1 := by
  unfold Station.report
  split
  · exact .refl station
  · exact reactAll_calm station reactions

/-! The order of the connections. -/

def Served.connection : Served → Option Connection
  | .delivered connection _ | .dropped connection _ => some connection
  | .reported => none

def connections (served : List Served) : List Connection := served.filterMap Served.connection

def Seen.taken (seen : Seen) : List Connection := connections seen.served

theorem connections_append (first second : List Served) :
    connections (first ++ second) = connections first ++ connections second :=
  List.filterMap_append ..

theorem report_connections (station : Station) (errno : Errno) (reactions : List Reaction) :
    connections (station.report errno reactions).2 = [] := by
  unfold Station.report
  split
  · rfl
  · rfl

theorem turn_queue {setting : Setting} {attempt : Attempt} {station : Station}
    {result : Handled × Station × List Served} (turn : Turn setting attempt station result) :
    connections result.2.2 ++ result.2.1.queue = station.queue := by
  cases turn with
  | waits => rfl
  | refused errno =>
      rw [report_connections, (report_calm station errno _).queue]
      rfl
  | delivered connection rest files queued =>
      rw [(reactAll_calm _ _).queue, queued]
      rfl
  | dropped connection rest queued _ _ _ reported same =>
      subst same
      change connection :: connections _ ++ _ = _
      rw [report_connections, (report_calm _ _ _).queue, queued]
      rfl

theorem acceptLoop_queue (setting : Setting) (attempts : Nat → Attempt) (left : Nat)
    (station : Station) :
    connections (station.acceptLoop setting attempts left).2 ++
      (station.acceptLoop setting attempts left).1.queue = station.queue := by
  refine acceptLoop_rule setting attempts
    (fun _ station result => connections result.2 ++ result.1.queue = station.queue)
    (fun _ => rfl) (fun _ _ _ => rfl) (fun _ _ _ _ _ _ turn => turn_queue turn)
    (fun _ _ _ _ _ _ turn => turn_queue turn) ?_ left station
  intro left station after served rest _ _ turn tail
  rw [connections_append, List.append_assoc, tail, turn_queue turn]

theorem step_queue (setting : Setting) (station : Station) (event : Event) :
    (step setting station event).2.taken ++ (step setting station event).1.queue =
      station.queue ++ (step setting station event).2.arrived := by
  cases event with
  | connect connection attempts =>
      rw [step]
      split
      · rfl
      · exact acceptLoop_queue setting attempts _ _
  | ready attempts =>
      rw [step]
      split
      · rw [List.append_nil]
        exact acceptLoop_queue setting attempts _ _
      · exact (List.append_nil _).symm
  | signal => exact (List.append_nil _).symm
  | react reaction =>
      rw [step]
      split
      · rw [List.append_nil]
        exact (reactAll_calm station [reaction]).queue
      · exact (List.append_nil _).symm

def Direct (setting : Setting) (station : Station) : Prop :=
  (setting.accept4 && setting.known) = true ∨ station.server.flags = 0

def Complete (served : List Served) : Prop := ∀ connection fd, .dropped connection fd ∉ served

theorem report_complete (station : Station) (errno : Errno) (reactions : List Reaction) :
    Complete (station.report errno reactions).2 := by
  intro connection fd
  unfold Station.report
  split
  · exact List.not_mem_nil
  · simp

theorem turn_direct {setting : Setting} {attempt : Attempt} {station : Station}
    {result : Handled × Station × List Served} (turn : Turn setting attempt station result)
    (direct : Direct setting station) :
    Direct setting result.2.1 ∧ Complete result.2.2 := by
  cases turn with
  | waits => exact ⟨direct, fun _ _ => List.not_mem_nil⟩
  | refused errno =>
      refine ⟨?_, report_complete _ _ _⟩
      rwa [Direct, (report_calm station errno _).flags]
  | delivered connection rest files queued =>
      refine ⟨?_, fun _ _ => by simp⟩
      rwa [Direct, (reactAll_calm _ _).flags]
  | dropped connection rest queued plain flagged =>
      rcases direct with set | none
      · rw [plain] at set
        cases set
      · exact absurd none flagged

theorem acceptLoop_direct (setting : Setting) (attempts : Nat → Attempt) (left : Nat)
    (station : Station) (direct : Direct setting station) :
    Direct setting (station.acceptLoop setting attempts left).1 ∧
      Complete (station.acceptLoop setting attempts left).2 := by
  revert direct
  refine acceptLoop_rule setting attempts
    (fun _ station result => Direct setting station →
      Direct setting result.1 ∧ Complete result.2)
    (fun _ direct => ⟨direct, fun _ _ => List.not_mem_nil⟩)
    (fun _ _ _ direct => ⟨direct, fun _ _ => List.not_mem_nil⟩)
    (fun _ _ _ _ _ _ turn => turn_direct turn) (fun _ _ _ _ _ _ turn => turn_direct turn)
    ?_ left station
  intro left station after served rest _ _ turn tail direct
  have here := turn_direct turn direct
  have later := tail here.1
  refine ⟨later.1, fun connection fd member => ?_⟩
  rcases List.mem_append.mp member with first | second
  · exact here.2 connection fd first
  · exact later.2 connection fd second

theorem step_direct (setting : Setting) (station : Station) (event : Event)
    (direct : Direct setting station) :
    Direct setting (step setting station event).1 ∧
      Complete (step setting station event).2.served := by
  have quiet : Complete [] := fun _ _ => List.not_mem_nil
  cases event with
  | connect connection attempts =>
      rw [step]
      split
      · exact ⟨direct, quiet⟩
      · exact acceptLoop_direct setting attempts _ _ direct
  | ready attempts =>
      rw [step]
      split
      · exact acceptLoop_direct setting attempts _ _ direct
      · exact ⟨direct, quiet⟩
  | signal => exact ⟨direct, quiet⟩
  | react reaction =>
      rw [step]
      split
      · refine ⟨?_, quiet⟩
        rwa [Direct, (reactAll_calm station [reaction]).flags]
      · exact ⟨direct, quiet⟩

/-- Connections leave the queue one by one and in the order of their arrival, whatever the
kernel, the signals and the callbacks do. With `accept4`, or without flags, each of them reaches
its callback. -/
theorem connections_in_order (setting : Setting) (station : Station) (events : List Event) :
    total (· ++ ·) [] Seen.taken (outputs (step setting) station events) ++
        (final (step setting) station events).queue =
      station.queue ++ total (· ++ ·) [] Seen.arrived (outputs (step setting) station events) ∧
    (Direct setting station →
      Along (step setting) (fun station event => Complete (step setting station event).2.served)
        station events) := by
  have unguarded : Along (step setting) (fun _ _ => True) station events :=
    along_of_forall _ _ _ _ fun _ _ _ => trivial
  constructor
  · exact conserved (· ++ ·) [] (step setting) (fun _ _ => True) (fun _ => True) Station.queue
      Seen.taken Seen.arrived (fun _ _ _ _ => trivial)
      (fun station event _ _ => step_queue setting station event) station events trivial unguarded
  · intro direct
    exact along_of_along (step setting) (fun _ _ => True) (Direct setting) _
      (fun station event direct _ => (step_direct setting station event direct).1)
      (fun station event direct _ => (step_direct setting station event direct).2)
      station events direct unguarded

end Xio.AcceptLoop
