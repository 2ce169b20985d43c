import Xio.OpenFailure

/-!
The life of `UnixServer` objects in a process that was handed no sockets: `open`, `start`,
`stop`, `close` and the destructor, for any number of servers. A name in the file system leads
to the server that bound it. `close` of the class removes the name; the destructor of the base
class calls the `close` of the base class, which does not.
-/

namespace Xio

structure Listener where
  server : UnixServer
  active : Bool

namespace Listener

def isOpen (listener : Listener) : Prop := 0 ≤ listener.server.fd

instance (listener : Listener) : Decidable listener.isOpen :=
  inferInstanceAs (Decidable (0 ≤ listener.server.fd))

-- The name that `bind` and `unlink` use, up to the first null character.
def name (listener : Listener) : List UInt8 := IPAddress.cString listener.server.path

def create : Listener := ⟨.create, false⟩

/-- `start`; there is no result where one of its assertions fails. -/
def start (listener : Listener) : Option Listener :=
  if listener.isOpen ∧ listener.active = false then some { listener with active := true } else none

def stop (listener : Listener) : Listener := { listener with active := false }

def closeSocket (listener : Listener) (table : Descriptors) : Listener × Descriptors :=
  if listener.isOpen then
    (⟨{ listener.server with fd := -1 }, false⟩, table.close listener.server.fd)
  else (listener, table)

end Listener

namespace ServerLife

open Runs

/-- A process that was handed no sockets, neither in the environment nor by systemd. One that
was can adopt a descriptor twice. -/
abbrev Unaided := { process : Process // process.env = none ∧ process.listenFds ≤ 0 }

structure System where
  servers : Nat → Option Listener
  names : List UInt8 → Option Nat
  table : Descriptors
  aborted : Bool

def initial : System := ⟨fun _ => none, fun _ => none, ⟨[], false⟩, false⟩

inductive Op where
  | construct (i : Nat)
  | openOn (i : Nat) (path : List UInt8) (flags : BitVec 32) (calls : Calls)
  | start (i : Nat)
  | stop (i : Nat)
  | close (i : Nat)
  | destroy (i : Nat)

namespace System

def put (system : System) (i : Nat) (listener : Listener) : System :=
  { system with servers := Function.update system.servers i (some listener) }

/-- The kernel binds no name that exists; without a name it chooses an abstract address. -/
def granted (system : System) (path : List UInt8) (calls : Calls) : Calls :=
  { calls with bind := calls.bind && (system.names (IPAddress.cString path)).isNone }

def binds (path : List UInt8) (flags : BitVec 32) (calls : Calls) : Bool :=
  calls.socket.isSome && (decide (flags = 0) || calls.setfl) && calls.bind &&
    decide (path.length < 108)

/-- The name that `open` leaves in the file system, if any: also where `listen` then fails. -/
def boundName (path : List UInt8) (flags : BitVec 32) (calls : Calls) : Option (List UInt8) :=
  if binds path flags calls ∧ IPAddress.cString path ≠ [] then some (IPAddress.cString path)
  else none

def bindName (system : System) (i : Nat) (path : List UInt8) (flags : BitVec 32) (calls : Calls) :
    System :=
  match boundName path flags calls with
  | some name => { system with names := Function.update system.names name (some i) }
  | none => system

def unlink (system : System) (name : List UInt8) : System :=
  { system with names := Function.update system.names name none }

def startOn (system : System) (i : Nat) (listener : Listener) : System :=
  match listener.start with
  | some listener => system.put i listener
  | none => { system.put i listener with aborted := true }

end System

section Process
variable (process : Unaided)

-- Which flags the descriptor has does not matter here.
def attempt (calls : Calls) (listener : Listener) (path : List UInt8) (flags : BitVec 32) :
    Option (Traced UnixServer) :=
  UnixServer.openTraced process.1 calls listener.server path flags fun _ => ⟨false, false⟩

/-- `open(path, flags)`. The output is the name that the call has bound. -/
def openOn (system : System) (i : Nat) (listener : Listener) (path : List UInt8)
    (flags : BitVec 32) (calls : Calls) : System × Option (List UInt8) :=
  let calls := system.granted path calls
  match attempt process calls listener path flags with
  | none => (system, none)
  | some traced =>
      let table := match calls.socket with
        | some n => system.table.obtain n
        | none => system.table
      let after := { system with table := traced.closed.foldl Descriptors.close table }
      let after := after.bindName i path flags calls
      let listener := { listener with server := traced.server }
      (if traced.ok then after.startOn i listener else after.put i listener,
        System.boundName path flags calls)

def step : Machine System Op (Option (List UInt8))
  | system, .construct i =>
      match system.servers i with
      | some _ => (system, none)
      | none => (system.put i .create, none)
  | system, .openOn i path flags calls =>
      match system.servers i with
      | none => (system, none)
      | some listener =>
          -- The kernel never hands out a number that is open.
          if ∀ n ∈ calls.socket, (n : Int) ∉ system.table.opened then
            openOn process system i listener path flags calls
          else (system, none)
  | system, .start i =>
      match system.servers i with
      | none => (system, none)
      | some listener => (system.startOn i listener, none)
  | system, .stop i =>
      match system.servers i with
      | none => (system, none)
      | some listener => (system.put i listener.stop, none)
  | system, .close i =>
      match system.servers i with
      | none => (system, none)
      | some listener =>
          let closed := listener.closeSocket system.table
          let after := { system.put i closed.1 with table := closed.2 }
          (if listener.server.path = [] then after else after.unlink listener.name, none)
  | system, .destroy i =>
      match system.servers i with
      | none => (system, none)
      | some listener =>
          ({ system with
              servers := Function.update system.servers i none
              table := (listener.stop.closeSocket system.table).2 }, none)

end Process

/-- No assertion failed, no descriptor was lost or closed twice, watchers run on open sockets
only, and the name of an open server leads to it. -/
structure Orderly (system : System) : Prop where
  asserted : system.aborted = false
  clean : system.table.misclosed = false
  watching : ∀ i listener, system.servers i = some listener → listener.active = true →
    listener.isOpen
  owned : ∀ fd, fd ∈ system.table.opened ↔
    ∃ i listener, system.servers i = some listener ∧ listener.isOpen ∧ listener.server.fd = fd
  reached : ∀ i listener, system.servers i = some listener → listener.isOpen →
    listener.name ≠ [] → system.names listener.name = some i

/-- Only a closed server is opened, only an open one that does not run is started, and `close`
is not called on a server whose last name is now that of another open one. -/
def Careful (system : System) : Op → Prop
  | .openOn i _ _ calls => ∀ listener, system.servers i = some listener →
      (∀ n ∈ calls.socket, (n : Int) ∉ system.table.opened) → ¬ listener.isOpen
  | .start i => ∀ listener, system.servers i = some listener →
      listener.isOpen ∧ listener.active = false
  | .close i => ∀ listener, system.servers i = some listener → listener.name ≠ [] →
      ∀ j other, system.servers j = some other → j ≠ i → other.isOpen →
        other.name ≠ listener.name
  | _ => True

/-! How `open` can end. -/

theorem openFresh_binds (server : UnixServer) (calls : Calls) (path : List UInt8)
    (flags : BitVec 32) (files : Files)
    (opened : (server.openFresh calls path flags files).ok = true) :
    System.binds path flags calls = true := by
  unfold UnixServer.openFresh at opened
  cases made : calls.socket with
  | none =>
      rw [made] at opened
      cases opened
  | some n =>
      simp only [made] at opened
      cases applied : UnixServer.applyFlags calls flags n (files.create n 0) with
      | none =>
          rw [applied] at opened
          cases opened
      | some after =>
          simp only [applied] at opened
          have flagged : (decide (flags = 0) || calls.setfl) = true := by
            unfold UnixServer.applyFlags at applied
            by_cases none : flags = 0
            · simp [none]
            · rw [if_pos none] at applied
              cases set : calls.setfl with
              | true => simp
              | false =>
                  rw [set] at applied
                  cases applied
          split at opened
          · cases opened
          next bound =>
            rw [Bool.not_eq_true', Bool.not_eq_false] at bound
            unfold System.binds
            rw [made, flagged, Option.isSome_some, Bool.true_and, Bool.true_and]
            exact bound

theorem attempt_eq (process : Unaided) (calls : Calls) (listener : Listener) (path : List UInt8)
    (flags : BitVec 32) :
    attempt process calls listener path flags =
      let stored := { listener.server with
        flags := (splitFlags flags).1, typeMask := (splitFlags flags).2 }
      let fresh := stored.openFresh calls path flags
        (Files.listened (fun _ => ⟨false, false⟩) process.1.listenFds)
      some (match calls.socket with
        | some n => OpenFailure.leave fresh n [(n : Int)]
        | none => OpenFailure.leave fresh (-1) []) := by
  obtain ⟨process, unset, unpassed⟩ := process
  have lookup : ListenFds.getSocketUnix process.isSocket process.env (IPAddress.cString path) =
      some (-1) := by
    rw [unset, ListenFds.getSocketUnix]
  unfold attempt UnixServer.openTraced OpenFailure.attempt
  rw [lookup]
  exact congrArg some ((if_neg (by decide)).trans (if_neg (not_lt.mpr unpassed)))

theorem attempt_cases (process : Unaided) (calls : Calls) (listener : Listener)
    (path : List UInt8) (flags : BitVec 32) :
    ∃ traced, attempt process calls listener path flags = some traced ∧
      ((traced.ok = false ∧ traced.server.fd = -1 ∧
          ((calls.socket = none ∧ traced.closed = []) ∨
            ∃ n, calls.socket = some n ∧ traced.closed = [(n : Int)])) ∨
        ∃ n, traced.ok = true ∧ calls.socket = some n ∧ traced.closed = [] ∧
          traced.server.fd = n ∧ traced.server.path = path ∧
          System.binds path flags calls = true) := by
  let stored := { listener.server with
    flags := (splitFlags flags).1, typeMask := (splitFlags flags).2 }
  let files : Files := Files.listened (fun _ => ⟨false, false⟩) process.1.listenFds
  let fresh := stored.openFresh calls path flags files
  have binds := openFresh_binds stored calls path flags files
  have shape : attempt process calls listener path flags = some (match calls.socket with
      | some n => OpenFailure.leave fresh n [(n : Int)]
      | none => OpenFailure.leave fresh (-1) []) := attempt_eq process calls listener path flags
  refine ⟨_, shape, ?_⟩
  rcases UnixServer.openFresh_exits calls stored path flags files with
    ⟨failed, after, _, _, exit⟩ | ⟨n, after, made, _, exit⟩
  · have same : fresh = failed.failed after := exit
    rw [same]
    cases calls.socket with
    | none => exact Or.inl ⟨rfl, rfl, Or.inl ⟨rfl, rfl⟩⟩
    | some n =>
        refine Or.inl ?_
        have natural : (0 : Int) ≤ n := Int.natCast_nonneg n
        simp only [OpenFailure.leave, UnixServer.failed, Bool.false_eq_true, if_false,
          if_pos natural]
        exact ⟨trivial, trivial, Or.inr ⟨n, rfl, rfl⟩⟩
  · have same : fresh = ⟨true, { stored with path := path, fd := n }, after⟩ := exit
    rw [exit] at binds
    rw [same, made]
    exact Or.inr ⟨n, rfl, rfl, rfl, rfl, rfl, binds rfl⟩

end ServerLife

end Xio
