import Mathlib.Data.BitVec
import Xio.ListenFds
import Xio.Socket

/-!
Listening sockets: `lib/ServerSocket.cpp`, `lib/InetServer.cpp` and `lib/UnixServer.cpp`.
`open` takes a descriptor from `XZERO_LISTEN_FDS`, from systemd or from `::socket`. What the
system calls return is an input, and of a descriptor only the two flags that callers ask
for are kept. `fcntl(F_GETFL)` and `fcntl(F_GETFD)` do not fail on an open descriptor.
Error texts and the event watcher play no part and are left out.
-/

namespace Xio

open ListenFds

/-! Descriptors and their flags. -/

structure Status where
  nonblock : Bool
  cloexec : Bool
  deriving DecidableEq

abbrev Files := Int → Status

def SOCK_NONBLOCK : BitVec 32 := O_NONBLOCK

def SOCK_CLOEXEC : BitVec 32 := O_CLOEXEC

def has (flags bit : BitVec 32) : Bool := decide (flags &&& bit ≠ 0)

namespace Files

/-- A new descriptor: `socket`, `accept` and `accept4` take the flags from the type mask. -/
def create (files : Files) (fd : Int) (typeMask : BitVec 32) : Files :=
  Function.update files fd ⟨has typeMask SOCK_NONBLOCK, has typeMask SOCK_CLOEXEC⟩

/-- `fcntl(fd, F_SETFL, fcntl(fd, F_GETFL) | flags)`: a status flag is set, `O_CLOEXEC` is
not one of them. -/
def setfl (files : Files) (fd : Int) (flags : BitVec 32) : Files :=
  Function.update files fd
    { files fd with nonblock := (files fd).nonblock || has flags O_NONBLOCK }

def setfd (files : Files) (fd : Int) : Files :=
  Function.update files fd { files fd with cloexec := true }

/-- `sd_listen_fds` marks every descriptor it reports as close-on-exec. -/
def listened (files : Files) (count : Int) : Files := fun fd =>
  if 3 ≤ fd ∧ fd < 3 + count then { files fd with cloexec := true } else files fd

end Files

/-! Addresses as texts. -/

/-- The documented behaviour of `inet_ntop`: it prints the addresses of the two Internet
families and fails on any other. -/
structure InetNtop where
  prints : Int → List UInt8 → Option Address
  internet : ∀ family bytes,
    (prints family bytes).isSome = true ↔ family = IPAddress.V4 ∨ family = IPAddress.V6

namespace IPAddress

/-- `str()`. When `inet_ntop` fails, the text is what the local array happens to hold. -/
def str (inet_ntop : InetNtop) (address : IPAddress) (uninitialised : List UInt8) : List UInt8 :=
  match inet_ntop.prints address.family address.bytes with
  | some text => text.1
  | none => cString uninitialised

def equals (left right : IPAddress) : Bool :=
  decide (left.family = right.family) && left.toBool && decide (left.bytes = right.bytes)

end IPAddress

/-! The servers. -/

structure ServerSocket where
  fd : Int
  flags : BitVec 32
  typeMask : BitVec 32

structure InetServer extends ServerSocket where
  ipaddr : IPAddress
  port : Int
  reusePort : Bool

structure UnixServer extends ServerSocket where
  path : List UInt8

def ServerSocket.create : ServerSocket := ⟨-1, 0, 0⟩

def InetServer.create : InetServer := { ServerSocket.create with
  ipaddr := .default, port := -1, reusePort := false }

def UnixServer.create : UnixServer := { ServerSocket.create with path := [] }

/-- What a process inherits: the variable, what `fstat` says of descriptors, how many
descriptors systemd passed, and which of them `sd_is_socket_inet` or `sd_is_socket_unix`
accepts for the arguments at hand. -/
structure Process where
  env : Option (List UInt8)
  isSocket : Int → Bool
  listenFds : Int
  isListener : Int → Bool

/-- What the other system calls of one `open` return. -/
structure Calls where
  setfl : Bool
  setfd : Bool
  reuseAddr : Bool
  reusePort : Bool
  tcpOptions : Bool
  socket : Option Nat
  bind : Bool
  listen : Bool

structure Opened (Server : Type) where
  ok : Bool
  server : Server
  files : Files

-- The first descriptor from SD_LISTEN_FDS_START on that is accepted.
def Process.listener (process : Process) : Option Int :=
  ((List.range process.listenFds.toNat).map fun (k : Nat) => (3 + k : Int)).find? process.isListener

def Process.given (process : Process) (found : Int) : Option Int :=
  if 0 ≤ found then some found
  else if 0 < process.listenFds then process.listener else none

def Process.Binds (process : Process) (found : Option Int) : Prop :=
  ∃ fd, found = some fd ∧ fd < 0 ∧ process.listenFds ≤ 0

def splitFlags (flags : BitVec 32) : BitVec 32 × BitVec 32 :=
  let cloexec := if has flags O_CLOEXEC then (flags &&& ~~~O_CLOEXEC, SOCK_CLOEXEC) else (flags, 0)
  if has flags O_NONBLOCK then (cloexec.1 &&& ~~~O_NONBLOCK, cloexec.2 ||| SOCK_NONBLOCK)
  else cloexec

namespace InetServer

/-- The two `fcntl` calls that all three ways of `open` make; `none` is a failed one. -/
def applyFlags (calls : Calls) (flags : BitVec 32) (fd : Int) (files : Files) : Option Files :=
  if has flags O_NONBLOCK && !calls.setfl then none
  else if has flags O_CLOEXEC && !calls.setfd then none
  else
    let files := if has flags O_NONBLOCK then files.setfl fd O_NONBLOCK else files
    some (if has flags O_CLOEXEC then files.setfd fd else files)

-- `::bind` has succeeded. Its `sockaddr_in` names no family and has room for four address bytes
-- only; whether the kernel takes it is `calls.bind`.
def bound (server : InetServer) (ipaddr : IPAddress) (port : Int) : InetServer :=
  { server with ipaddr := server.ipaddr.assign ipaddr, port := port }

-- The label `err`.
def failed (server : InetServer) (files : Files) : Opened InetServer :=
  ⟨false, { server with fd := -1 }, files⟩

-- A descriptor that exists already gets its flags and, if it comes from systemd, TCP options.
def adopt (server : InetServer) (calls : Calls) (options : Bool) (flags : BitVec 32) (fd : Int)
    (files : Files) : Opened InetServer :=
  match applyFlags calls flags fd files with
  | none => server.failed files
  | some files =>
      if !options then server.failed files else ⟨true, { server with fd := fd }, files⟩

/-- The end of `open`: socket, options, bind and listen. No protocol family but the two
Internet ones has IPPROTO_TCP. -/
def openFresh (server : InetServer) (calls : Calls) (ipaddr : IPAddress) (port : Int)
    (flags : BitVec 32) (files : Files) : Opened InetServer :=
  match (if ipaddr.toBool then calls.socket else none) with
  | none => server.failed files
  | some n =>
      let files := files.create n server.typeMask
      match applyFlags calls flags n files with
      | none => server.failed files
      | some files =>
          if !calls.reuseAddr then server.failed files
          else
            let server := { server with reusePort := server.reusePort && calls.reusePort }
            if !calls.tcpOptions || !calls.bind then server.failed files
            else if !calls.listen then (server.bound ipaddr port).failed files
            else ⟨true, { server.bound ipaddr port with fd := n }, files⟩

/-- `open(ipaddr, port, flags)`; `none` is a crash of the lookup. -/
def openOn (inet_ntop : InetNtop) (process : Process) (calls : Calls)
    (uninitialised : List UInt8) (server : InetServer) (ipaddr : IPAddress) (port : Int)
    (flags : BitVec 32) (files : Files) : Option (Opened InetServer) :=
  let files := files.listened process.listenFds
  let server := { server with flags := (splitFlags flags).1, typeMask := (splitFlags flags).2 }
  (getSocketInet process.isSocket process.env (ipaddr.str inet_ntop uninitialised) port).map
    fun (fd : Int) =>
    if 0 ≤ fd then server.adopt calls true flags fd files
    else if 0 < process.listenFds then
      match process.listener with
      | some fd => server.adopt calls calls.tcpOptions flags fd files
      | none => server.failed files
    else server.openFresh calls ipaddr port flags files

def serialize (inet_ntop : InetNtop) (server : InetServer) (uninitialised : List UInt8) :
    List UInt8 :=
  inetRecord (server.ipaddr.str inet_ntop uninitialised) server.port server.fd

def clone (inet_ntop : InetNtop) (process : Process) (calls : Calls)
    (uninitialised : List UInt8) (server : InetServer) (files : Files) :
    Option (Opened InetServer) :=
  openOn inet_ntop process calls uninitialised { create with reusePort := server.reusePort }
    server.ipaddr server.port server.flags files

end InetServer

namespace UnixServer

-- All flags in one `F_SETFL`.
def applyFlags (calls : Calls) (flags : BitVec 32) (fd : Int) (files : Files) : Option Files :=
  if flags ≠ 0 then (if calls.setfl then some (files.setfl fd flags) else none) else some files

def failed (server : UnixServer) (files : Files) : Opened UnixServer :=
  ⟨false, { server with fd := -1 }, files⟩

def adopt (server : UnixServer) (calls : Calls) (flags : BitVec 32) (fd : Int) (files : Files) :
    Opened UnixServer :=
  match applyFlags calls flags fd files with
  | some files => ⟨true, { server with fd := fd }, files⟩
  | none => server.failed files

-- `::socket` is called without the type mask; `bind` needs a path shorter than `sun_path`.
def openFresh (server : UnixServer) (calls : Calls) (path : List UInt8) (flags : BitVec 32)
    (files : Files) : Opened UnixServer :=
  match calls.socket with
  | none => server.failed files
  | some n =>
      let files := files.create n 0
      match applyFlags calls flags n files with
      | none => server.failed files
      | some files =>
          if !(calls.bind && decide (path.length < 108)) then server.failed files
          else if !calls.listen then { server with path := path }.failed files
          else ⟨true, { server with path := path, fd := n }, files⟩

def openOn (process : Process) (calls : Calls) (server : UnixServer) (path : List UInt8)
    (flags : BitVec 32) (files : Files) : Option (Opened UnixServer) :=
  let files := files.listened process.listenFds
  let server := { server with flags := (splitFlags flags).1, typeMask := (splitFlags flags).2 }
  (getSocketUnix process.isSocket process.env (IPAddress.cString path)).map fun (fd : Int) =>
    if 0 ≤ fd then server.adopt calls flags fd files
    else if 0 < process.listenFds then
      match process.listener with
      | some fd => server.adopt calls flags fd files
      | none => server.failed files
    else server.openFresh calls path flags files

def serialize (server : UnixServer) : List UInt8 :=
  unixRecord (IPAddress.cString server.path) server.fd

def clone (process : Process) (calls : Calls) (server : UnixServer) (files : Files) :
    Option (Opened UnixServer) :=
  openOn process calls create server.path server.flags files

end UnixServer

namespace ServerSocket

inductive Accepted where
  | descriptor (n : Nat)
  | unsupported
  | failed
  deriving DecidableEq

/-- `acceptOne()`: the client's descriptor. `supported` says whether the library was built
with `accept4`; a kernel without it makes the call fall back to `accept`. -/
def acceptOne (supported : Bool) (accept4 : Accepted) (accept : Option Nat) (setfl : Bool)
    (server : ServerSocket) (files : Files) : Option (Nat × Files) :=
  match supported, accept4 with
  | true, .descriptor n => some (n, files.create n server.typeMask)
  | true, .failed => none
  | true, .unsupported | false, _ =>
      accept.bind fun n =>
        let files := files.create n 0
        if server.flags = 0 then some (n, files)
        else if setfl then some (n, files.setfl n server.flags) else none

end ServerSocket

/-! The three ways of `open`. -/

namespace Process

-- With a descriptor at hand there is none to bind.
theorem not_binds_of_given (process : Process) (found fd : Int)
    (served : process.given found = some fd) : ¬ process.Binds (some found) := by
  rintro ⟨_, ⟨⟩, absent, alone⟩
  rw [given, if_neg (by omega), if_neg (by omega)] at served
  cases served

/-- Both classes try the ways in the same order: a descriptor found in the variable, one of
those that systemd passed, a socket of their own. -/
theorem ways {Server : Type} (process : Process) (lookup : Option Int)
    (inherited passed : Int → Opened Server) (missing fresh result : Opened Server)
    (opened : (lookup.map fun (fd : Int) =>
        if 0 ≤ fd then inherited fd
        else if 0 < process.listenFds then
          match process.listener with
          | some fd => passed fd
          | none => missing
        else fresh) = some result) :
    ∃ found, lookup = some found ∧
      ((∃ fd, process.given found = some fd ∧ (result = inherited fd ∨ result = passed fd)) ∨
        result = missing ∨ (process.Binds (some found) ∧ result = fresh)) := by
  obtain ⟨found, looked, rfl⟩ := Option.map_eq_some_iff.mp opened
  refine ⟨found, looked, ?_⟩
  by_cases present : 0 ≤ found
  · rw [given, if_pos present, if_pos present]
    exact Or.inl ⟨found, rfl, Or.inl rfl⟩
  by_cases activated : 0 < process.listenFds
  · rw [given, if_neg present, if_pos activated, if_neg present, if_pos activated]
    cases process.listener with
    | none => exact Or.inr (Or.inl rfl)
    | some fd => exact Or.inl ⟨fd, rfl, Or.inr rfl⟩
  · rw [if_neg present, if_neg activated]
    exact Or.inr (Or.inr ⟨⟨found, rfl, by omega, by omega⟩, rfl⟩)

end Process

/-! What a successful `open` has done. -/

namespace InetServer

variable (inet_ntop : InetNtop) (process : Process) (calls : Calls) (uninitialised : List UInt8)
variable (server : InetServer) (ipaddr : IPAddress) (port : Int) (flags : BitVec 32) (files : Files)

structure Adopted (fd : Int) (result : Opened InetServer) : Prop where
  fd_eq : result.server.fd = fd
  ipaddr_eq : result.server.ipaddr = server.ipaddr
  port_eq : result.server.port = server.port
  files_eq : applyFlags calls flags fd (files.listened process.listenFds) = some result.files

structure Created (n : Nat) (result : Opened InetServer) : Prop where
  internet : ipaddr.toBool = true
  fd_eq : result.server.fd = n
  ipaddr_eq : result.server.ipaddr = server.ipaddr.assign ipaddr
  port_eq : result.server.port = port
  files_eq : applyFlags calls flags n
    ((files.listened process.listenFds).create n (splitFlags flags).2) = some result.files

theorem adopt_exits (options : Bool) (fd : Int) :
    (∃ after, server.adopt calls options flags fd files = server.failed after) ∨
      ∃ after, applyFlags calls flags fd files = some after ∧
        server.adopt calls options flags fd files = ⟨true, { server with fd := fd }, after⟩ := by
  unfold adopt
  cases applyFlags calls flags fd files with
  | none => exact Or.inl ⟨files, rfl⟩
  | some after =>
      cases options with
      | false => exact Or.inl ⟨after, rfl⟩
      | true => exact Or.inr ⟨after, rfl, rfl⟩

theorem openFresh_exits :
    (∃ (stored : InetServer) (after : Files), stored.flags = server.flags ∧
        stored.typeMask = server.typeMask ∧
        server.openFresh calls ipaddr port flags files = stored.failed after) ∨
      ∃ n reused after, ipaddr.toBool = true ∧ calls.socket = some n ∧
        applyFlags calls flags n (files.create n server.typeMask) = some after ∧
        server.openFresh calls ipaddr port flags files =
          ⟨true, { { server with reusePort := reused }.bound ipaddr port with fd := n },
            after⟩ := by
  let reused := { server with reusePort := server.reusePort && calls.reusePort }
  unfold openFresh
  cases internet : ipaddr.toBool with
  | false => exact Or.inl ⟨server, files, rfl, rfl, rfl⟩
  | true =>
      rw [if_pos rfl]
      cases calls.socket with
      | none => exact Or.inl ⟨server, files, rfl, rfl, rfl⟩
      | some n =>
          dsimp only
          cases applied : applyFlags calls flags n (files.create n server.typeMask) with
          | none => exact Or.inl ⟨server, _, rfl, rfl, rfl⟩
          | some after =>
              dsimp only
              split
              · exact Or.inl ⟨server, after, rfl, rfl, rfl⟩
              split
              · exact Or.inl ⟨reused, after, rfl, rfl, rfl⟩
              split
              · exact Or.inl ⟨reused.bound ipaddr port, after, rfl, rfl, rfl⟩
              · exact Or.inr ⟨n, _, after, rfl, rfl, applied, rfl⟩

theorem adopt_ok (options : Bool) (fd : Int)
    (opened : (server.adopt calls options flags fd files).ok = true) :
    (server.adopt calls options flags fd files).server = { server with fd := fd } ∧
      applyFlags calls flags fd files =
        some (server.adopt calls options flags fd files).files := by
  rcases adopt_exits calls server flags files options fd with ⟨_, exit⟩ | ⟨after, applied, exit⟩
  · rw [exit] at opened
    cases opened
  · rw [exit]
    exact ⟨rfl, applied⟩

theorem openFresh_ok
    (opened : (server.openFresh calls ipaddr port flags files).ok = true) :
    ∃ n : Nat, ipaddr.toBool = true ∧
      (server.openFresh calls ipaddr port flags files).server.fd = n ∧
      (server.openFresh calls ipaddr port flags files).server.ipaddr = server.ipaddr.assign ipaddr ∧
      (server.openFresh calls ipaddr port flags files).server.port = port ∧
      applyFlags calls flags n (files.create n server.typeMask) =
        some (server.openFresh calls ipaddr port flags files).files := by
  rcases openFresh_exits calls server ipaddr port flags files with
    ⟨_, _, _, _, exit⟩ | ⟨n, _, after, internet, _, applied, exit⟩
  · rw [exit] at opened
    cases opened
  · rw [exit]
    exact ⟨n, internet, rfl, rfl, rfl, applied⟩

theorem openOn_ways (result : Opened InetServer)
    (opened : openOn inet_ntop process calls uninitialised server ipaddr port flags files =
      some result) :
    ∃ found stored, getSocketInet process.isSocket process.env
        (ipaddr.str inet_ntop uninitialised) port = some found ∧
      stored = { server with flags := (splitFlags flags).1, typeMask := (splitFlags flags).2 } ∧
      ((∃ fd options, process.given found = some fd ∧
          result = stored.adopt calls options flags fd (files.listened process.listenFds)) ∨
        result = stored.failed (files.listened process.listenFds) ∨
        (process.Binds (some found) ∧
          result = stored.openFresh calls ipaddr port flags
            (files.listened process.listenFds))) := by
  obtain ⟨found, lookup, way⟩ := process.ways _ _ _ _ _ _ opened
  refine ⟨found, _, lookup, rfl, ?_⟩
  rcases way with ⟨fd, given, inherited | passed⟩ | missing | fresh
  · exact Or.inl ⟨fd, _, given, inherited⟩
  · exact Or.inl ⟨fd, _, given, passed⟩
  · exact Or.inr (Or.inl missing)
  · exact Or.inr (Or.inr fresh)

theorem openOn_ok (result : Opened InetServer)
    (opened : openOn inet_ntop process calls uninitialised server ipaddr port flags files =
      some result) (ok : result.ok = true) :
    ∃ found, getSocketInet process.isSocket process.env (ipaddr.str inet_ntop uninitialised) port =
        some found ∧
      ((∃ fd, process.given found = some fd ∧ Adopted process calls server flags files fd result) ∨
        (process.Binds (some found) ∧
          ∃ n, Created process calls server ipaddr port flags files n result)) := by
  obtain ⟨found, _, lookup, rfl, ⟨fd, _, given, rfl⟩ | rfl | ⟨binds, rfl⟩⟩ :=
    openOn_ways _ _ _ _ _ _ _ _ _ _ opened
  · obtain ⟨same, applied⟩ := adopt_ok _ _ _ _ _ _ ok
    exact ⟨found, lookup, Or.inl ⟨fd, given, by rw [same], by rw [same], by rw [same], applied⟩⟩
  · cases ok
  · obtain ⟨n, internet, fd, address, number, applied⟩ := openFresh_ok _ _ _ _ _ _ ok
    exact ⟨found, lookup, Or.inr ⟨binds, n, internet, fd, address, number, applied⟩⟩

theorem adopt_flags (options : Bool) (fd : Int) :
    (server.adopt calls options flags fd files).server.flags = server.flags ∧
      (server.adopt calls options flags fd files).server.typeMask = server.typeMask := by
  rcases adopt_exits calls server flags files options fd with ⟨_, exit⟩ | ⟨_, _, exit⟩
  · rw [exit]
    exact ⟨rfl, rfl⟩
  · rw [exit]
    exact ⟨rfl, rfl⟩

theorem openFresh_flags :
    (server.openFresh calls ipaddr port flags files).server.flags = server.flags ∧
      (server.openFresh calls ipaddr port flags files).server.typeMask = server.typeMask := by
  rcases openFresh_exits calls server ipaddr port flags files with
    ⟨_, _, words, mask, exit⟩ | ⟨_, _, _, _, _, _, exit⟩
  · rw [exit]
    exact ⟨words, mask⟩
  · rw [exit]
    exact ⟨rfl, rfl⟩

theorem openOn_flags (result : Opened InetServer)
    (opened : openOn inet_ntop process calls uninitialised server ipaddr port flags files =
      some result) :
    result.server.flags = (splitFlags flags).1 ∧ result.server.typeMask = (splitFlags flags).2 := by
  obtain ⟨_, _, _, rfl, ⟨fd, options, _, rfl⟩ | rfl | ⟨_, rfl⟩⟩ :=
    openOn_ways _ _ _ _ _ _ _ _ _ _ opened
  · exact adopt_flags calls _ flags _ options fd
  · exact ⟨rfl, rfl⟩
  · exact openFresh_flags calls _ ipaddr port flags _

end InetServer

namespace UnixServer

variable (process : Process) (calls : Calls) (server : UnixServer) (path : List UInt8)
variable (flags : BitVec 32) (files : Files)

structure Adopted (fd : Int) (result : Opened UnixServer) : Prop where
  fd_eq : result.server.fd = fd
  path_eq : result.server.path = server.path
  files_eq : applyFlags calls flags fd (files.listened process.listenFds) = some result.files

structure Created (n : Nat) (result : Opened UnixServer) : Prop where
  fd_eq : result.server.fd = n
  path_eq : result.server.path = path
  files_eq : applyFlags calls flags n ((files.listened process.listenFds).create n 0) =
    some result.files

theorem adopt_exits (fd : Int) :
    (∃ after, server.adopt calls flags fd files = server.failed after) ∨
      ∃ after, applyFlags calls flags fd files = some after ∧
        server.adopt calls flags fd files = ⟨true, { server with fd := fd }, after⟩ := by
  unfold adopt
  cases applyFlags calls flags fd files with
  | none => exact Or.inl ⟨files, rfl⟩
  | some after => exact Or.inr ⟨after, rfl, rfl⟩

theorem openFresh_exits :
    (∃ (stored : UnixServer) (after : Files), stored.flags = server.flags ∧
        stored.typeMask = server.typeMask ∧
        server.openFresh calls path flags files = stored.failed after) ∨
      ∃ n after, calls.socket = some n ∧
        applyFlags calls flags n (files.create n 0) = some after ∧
        server.openFresh calls path flags files =
          ⟨true, { server with path := path, fd := n }, after⟩ := by
  unfold openFresh
  cases calls.socket with
  | none => exact Or.inl ⟨server, files, rfl, rfl, rfl⟩
  | some n =>
      dsimp only
      cases applied : applyFlags calls flags n (files.create n 0) with
      | none => exact Or.inl ⟨server, _, rfl, rfl, rfl⟩
      | some after =>
          dsimp only
          split
          · exact Or.inl ⟨server, after, rfl, rfl, rfl⟩
          split
          · exact Or.inl ⟨{ server with path := path }, after, rfl, rfl, rfl⟩
          · exact Or.inr ⟨n, after, rfl, applied, rfl⟩

theorem adopt_ok (fd : Int) (opened : (server.adopt calls flags fd files).ok = true) :
    (server.adopt calls flags fd files).server = { server with fd := fd } ∧
      applyFlags calls flags fd files = some (server.adopt calls flags fd files).files := by
  rcases adopt_exits calls server flags files fd with ⟨_, exit⟩ | ⟨after, applied, exit⟩
  · rw [exit] at opened
    cases opened
  · rw [exit]
    exact ⟨rfl, applied⟩

theorem openFresh_ok (opened : (server.openFresh calls path flags files).ok = true) :
    ∃ n : Nat, (server.openFresh calls path flags files).server.fd = n ∧
      (server.openFresh calls path flags files).server.path = path ∧
      applyFlags calls flags n (files.create n 0) =
        some (server.openFresh calls path flags files).files := by
  rcases openFresh_exits calls server path flags files with
    ⟨_, _, _, _, exit⟩ | ⟨n, after, _, applied, exit⟩
  · rw [exit] at opened
    cases opened
  · rw [exit]
    exact ⟨n, rfl, rfl, applied⟩

theorem openOn_ways (result : Opened UnixServer)
    (opened : openOn process calls server path flags files = some result) :
    ∃ found stored, getSocketUnix process.isSocket process.env (IPAddress.cString path) =
        some found ∧
      stored = { server with flags := (splitFlags flags).1, typeMask := (splitFlags flags).2 } ∧
      ((∃ fd, process.given found = some fd ∧
          result = stored.adopt calls flags fd (files.listened process.listenFds)) ∨
        result = stored.failed (files.listened process.listenFds) ∨
        (process.Binds (some found) ∧
          result = stored.openFresh calls path flags (files.listened process.listenFds))) := by
  obtain ⟨found, lookup, way⟩ := process.ways _ _ _ _ _ _ opened
  refine ⟨found, _, lookup, rfl, ?_⟩
  rcases way with ⟨fd, given, inherited | passed⟩ | missing | fresh
  · exact Or.inl ⟨fd, given, inherited⟩
  · exact Or.inl ⟨fd, given, passed⟩
  · exact Or.inr (Or.inl missing)
  · exact Or.inr (Or.inr fresh)

theorem openOn_ok (result : Opened UnixServer)
    (opened : openOn process calls server path flags files = some result)
    (ok : result.ok = true) :
    ∃ found, getSocketUnix process.isSocket process.env (IPAddress.cString path) = some found ∧
      ((∃ fd, process.given found = some fd ∧ Adopted process calls server flags files fd result) ∨
        (process.Binds (some found) ∧ ∃ n, Created process calls path flags files n result)) := by
  obtain ⟨found, _, lookup, rfl, ⟨fd, given, rfl⟩ | rfl | ⟨binds, rfl⟩⟩ :=
    openOn_ways _ _ _ _ _ _ _ opened
  · obtain ⟨same, applied⟩ := adopt_ok _ _ _ _ _ ok
    exact ⟨found, lookup, Or.inl ⟨fd, given, by rw [same], by rw [same], applied⟩⟩
  · cases ok
  · obtain ⟨n, fd, bound, applied⟩ := openFresh_ok _ _ _ _ _ ok
    exact ⟨found, lookup, Or.inr ⟨binds, n, fd, bound, applied⟩⟩

theorem adopt_flags (fd : Int) :
    (server.adopt calls flags fd files).server.flags = server.flags ∧
      (server.adopt calls flags fd files).server.typeMask = server.typeMask := by
  rcases adopt_exits calls server flags files fd with ⟨_, exit⟩ | ⟨_, _, exit⟩
  · rw [exit]
    exact ⟨rfl, rfl⟩
  · rw [exit]
    exact ⟨rfl, rfl⟩

theorem openFresh_flags :
    (server.openFresh calls path flags files).server.flags = server.flags ∧
      (server.openFresh calls path flags files).server.typeMask = server.typeMask := by
  rcases openFresh_exits calls server path flags files with
    ⟨_, _, words, mask, exit⟩ | ⟨_, _, _, _, exit⟩
  · rw [exit]
    exact ⟨words, mask⟩
  · rw [exit]
    exact ⟨rfl, rfl⟩

theorem openOn_flags (result : Opened UnixServer)
    (opened : openOn process calls server path flags files = some result) :
    result.server.flags = (splitFlags flags).1 ∧ result.server.typeMask = (splitFlags flags).2 := by
  obtain ⟨_, _, _, rfl, ⟨fd, _, rfl⟩ | rfl | ⟨_, rfl⟩⟩ := openOn_ways _ _ _ _ _ _ _ opened
  · exact adopt_flags calls _ flags _ fd
  · exact ⟨rfl, rfl⟩
  · exact openFresh_flags calls _ path flags _

end UnixServer

end Xio
