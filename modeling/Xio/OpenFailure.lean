import Xio.HandOver

/-!
What a failed `open` closes. The member `fd_` is the descriptor at hand, the variable of the
loop over the descriptors of systemd and the argument of `::close` behind the label `err`,
so the runs of `InetServer::open` and `UnixServer::open` are followed once more with the
values that it takes.
-/

namespace Xio

open ListenFds

/-- A run of `open` with the final `fd_`, the descriptors that the run took over as a match
or created, and the arguments of `::close`. -/
structure Traced (Server : Type) extends Opened Server where
  fd : Int
  owned : List Int
  closed : List Int

namespace OpenFailure

variable {Server : Type}

/-- The loop `for (; fd_ < last; ++fd_)`: where `fd_` stops, and whether at a match. -/
def scan (isListener : Int → Bool) : Nat → Int → Int × Bool
  | 0, fd => (fd, false)
  | left + 1, fd => if isListener fd then (fd, true) else scan isListener left (fd + 1)

-- The labels `done` and `err`.
def leave (opened : Opened Server) (fd : Int) (owned : List Int) : Traced Server :=
  if opened.ok then ⟨opened, fd, owned, []⟩
  else if 0 ≤ fd then ⟨opened, -1, owned, [fd]⟩
  else ⟨opened, fd, owned, []⟩

/-- The three phases of `open`, given what the two classes do with a descriptor in each. -/
def attempt (process : Process) (lookup : Option Int) (socket : Option Nat)
    (inherited passed : Int → Opened Server) (missing fresh : Opened Server) :
    Option (Traced Server) :=
  lookup.map fun (fd : Int) =>
    if 0 ≤ fd then leave (inherited fd) fd [fd]
    else if 0 < process.listenFds then
      match scan process.isListener process.listenFds.toNat 3 with
      | (fd, true) => leave (passed fd) fd [fd]
      | (fd, false) => leave missing fd []
    else
      match socket with
      | some n => leave fresh n [(n : Int)]
      | none => leave fresh (-1) []

end OpenFailure

def InetServer.openTraced (inet_ntop : InetNtop) (process : Process) (calls : Calls)
    (uninitialised : List UInt8) (server : InetServer) (ipaddr : IPAddress) (port : Int)
    (flags : BitVec 32) (files : Files) : Option (Traced InetServer) :=
  let files := files.listened process.listenFds
  let server := { server with flags := (splitFlags flags).1, typeMask := (splitFlags flags).2 }
  OpenFailure.attempt process
    (getSocketInet process.isSocket process.env (ipaddr.str inet_ntop uninitialised) port)
    (if ipaddr.toBool then calls.socket else none)
    (fun fd => server.adopt calls true flags fd files)
    (fun fd => server.adopt calls calls.tcpOptions flags fd files)
    (server.failed files) (server.openFresh calls ipaddr port flags files)

def UnixServer.openTraced (process : Process) (calls : Calls) (server : UnixServer)
    (path : List UInt8) (flags : BitVec 32) (files : Files) : Option (Traced UnixServer) :=
  let files := files.listened process.listenFds
  let server := { server with flags := (splitFlags flags).1, typeMask := (splitFlags flags).2 }
  OpenFailure.attempt process
    (getSocketUnix process.isSocket process.env (IPAddress.cString path)) calls.socket
    (fun fd => server.adopt calls flags fd files) (fun fd => server.adopt calls flags fd files)
    (server.failed files) (server.openFresh calls path flags files)

namespace OpenFailure

variable {Server : Type}

/-! The loop finds what `Process.listener` says. -/

theorem scan_eq (isListener : Int → Bool) (left : Nat) (start : Int) :
    scan isListener left start =
      match ((List.range left).map fun (k : Nat) => (start + k : Int)).find? isListener with
      | some fd => (fd, true)
      | none => (start + left, false) := by
  induction left generalizing start with
  | zero => simp [scan]
  | succ left ih =>
      have shifted : (fun (k : Nat) => (start + k : Int)) ∘ Nat.succ =
          fun (k : Nat) => start + 1 + k := by
        funext k
        simp only [Function.comp_apply, Nat.cast_succ]
        omega
      rw [List.range_succ_eq_map, List.map_cons, List.map_map, shifted, Nat.cast_zero, Int.add_zero,
        scan, List.find?_cons]
      cases accepted : isListener start with
      | true => rfl
      | false =>
          rw [if_neg (by simp), ih]
          have last : start + 1 + (left : Int) = start + (left + 1 : Nat) := by omega
          rw [last]

theorem scan_listener (process : Process) :
    scan process.isListener process.listenFds.toNat 3 =
      match process.listener with
      | some fd => (fd, true)
      | none => (3 + process.listenFds.toNat, false) :=
  scan_eq process.isListener process.listenFds.toNat 3

theorem listener_ge (process : Process) (fd : Int) (found : process.listener = some fd) :
    3 ≤ fd := by
  obtain ⟨k, _, rfl⟩ := List.mem_map.mp (List.mem_of_find?_eq_some found)
  omega

/-! Without the descriptors it is `open` as before. -/

theorem leave_toOpened (opened : Opened Server) (fd : Int) (owned : List Int) :
    (leave opened fd owned).toOpened = opened := by
  rw [leave]
  split
  · rfl
  · split <;> rfl

theorem attempt_toOpened (process : Process) (lookup : Option Int) (socket : Option Nat)
    (inherited passed : Int → Opened Server) (missing fresh : Opened Server) :
    (attempt process lookup socket inherited passed missing fresh).map Traced.toOpened =
      lookup.map fun (fd : Int) =>
        if 0 ≤ fd then inherited fd
        else if 0 < process.listenFds then
          match process.listener with
          | some fd => passed fd
          | none => missing
        else fresh := by
  cases lookup with
  | none => rfl
  | some found =>
      simp only [attempt, Option.map_some, scan_listener]
      split
      · rw [leave_toOpened]
      split
      · cases process.listener with
        | some fd => rw [leave_toOpened]
        | none => rw [leave_toOpened]
      · cases socket with
        | some n => rw [leave_toOpened]
        | none => rw [leave_toOpened]

/-! What is closed. -/

def Clean (traced : Option (Traced Server)) : Prop :=
  ∀ result, traced = some result → result.ok = false →
    result.fd = -1 ∧ ∀ fd ∈ result.closed, fd ∈ result.owned

def Unmatched (process : Process) (lookup : Option Int) : Prop :=
  ∃ found, lookup = some found ∧ found < 0 ∧ 0 < process.listenFds ∧ process.listener = none

theorem leave_clean (opened : Opened Server) (fd : Int) (owned : List Int)
    (own : fd = -1 ∨ fd ∈ owned) (least : -1 ≤ fd) : Clean (some (leave opened fd owned)) := by
  rintro _ ⟨⟩ failed
  rw [leave_toOpened] at failed
  rw [leave, if_neg (by simp [failed])]
  split
  · refine ⟨rfl, ?_⟩
    intro closed inside
    rw [List.mem_singleton.mp inside]
    exact own.resolve_left (by omega)
  · exact ⟨by change fd = -1; omega, by simp⟩

theorem leave_not_clean (opened : Opened Server) (fd : Int) (failed : opened.ok = false)
    (open_ : 0 ≤ fd) : ¬ Clean (some (leave opened fd [])) := by
  intro clean
  have := (clean _ rfl (by rw [leave_toOpened, failed])).2
  rw [leave, if_neg (by simp [failed]), if_pos open_] at this
  exact absurd (this fd (by simp)) (by simp)

theorem attempt_clean_iff (process : Process) (lookup : Option Int) (socket : Option Nat)
    (inherited passed : Int → Opened Server) (missing fresh : Opened Server)
    (fails : missing.ok = false) :
    Clean (attempt process lookup socket inherited passed missing fresh) ↔
      ¬ Unmatched process lookup := by
  cases lookup with
  | none => exact iff_of_true (by rintro _ ⟨⟩) (by rintro ⟨_, ⟨⟩, _⟩)
  | some found =>
      simp only [attempt, Option.map_some, scan_listener]
      by_cases present : 0 ≤ found
      · rw [if_pos present]
        refine iff_of_true (leave_clean _ _ _ (by simp) (by omega)) ?_
        rintro ⟨_, ⟨⟩, absent, _⟩
        omega
      by_cases activated : 0 < process.listenFds
      · rw [if_neg present, if_pos activated]
        cases listening : process.listener with
        | some fd =>
            have := listener_ge process fd listening
            refine iff_of_true (leave_clean _ _ _ (by simp) (by omega)) ?_
            rintro ⟨_, _, _, _, none⟩
            rw [listening] at none
            cases none
        | none =>
            refine iff_of_false (leave_not_clean _ _ fails (by omega)) ?_
            exact not_not.mpr ⟨found, rfl, by omega, activated, listening⟩
      · rw [if_neg present, if_neg activated]
        refine iff_of_true ?_ (by rintro ⟨_, _, _, positive, _⟩; exact activated positive)
        cases socket with
        | some n => exact leave_clean _ _ _ (by simp) (by omega)
        | none => exact leave_clean _ _ _ (by simp) (by omega)

/-! The two classes. -/

section Inet

variable (server : InetServer) (calls : Calls) (ipaddr : IPAddress) (port : Int)
variable (flags : BitVec 32) (files : Files)

theorem inet_toOpened (inet_ntop : InetNtop) (process : Process) (uninitialised : List UInt8) :
    (InetServer.openTraced inet_ntop process calls uninitialised server ipaddr port flags files).map
        Traced.toOpened =
      InetServer.openOn inet_ntop process calls uninitialised server ipaddr port flags files :=
  attempt_toOpened _ _ _ _ _ _ _

end Inet

section Unix

variable (server : UnixServer) (calls : Calls) (path : List UInt8)
variable (flags : BitVec 32) (files : Files)

theorem unix_toOpened (process : Process) :
    (UnixServer.openTraced process calls server path flags files).map Traced.toOpened =
      UnixServer.openOn process calls server path flags files :=
  attempt_toOpened _ _ _ _ _ _ _

end Unix

/-- A failed `open` closes only what it acquired, except under systemd without a match: then
`fd_` has run past the descriptors of systemd, and the one behind them is closed. -/
theorem failure_clean_iff (inet_ntop : InetNtop) (process : Process) (calls : Calls)
    (uninitialised : List UInt8) (inet : InetServer) (ipaddr : IPAddress) (port : Int)
    (unix : UnixServer) (path : List UInt8) (flags : BitVec 32) (files : Files) :
    (Clean (inet.openTraced inet_ntop process calls uninitialised ipaddr port flags files) ↔
      ¬ Unmatched process (getSocketInet process.isSocket process.env
        (ipaddr.str inet_ntop uninitialised) port)) ∧
    (Clean (unix.openTraced process calls path flags files) ↔
      ¬ Unmatched process (getSocketUnix process.isSocket process.env (IPAddress.cString path))) :=
  ⟨attempt_clean_iff _ _ _ _ _ _ _ rfl, attempt_clean_iff _ _ _ _ _ _ _ rfl⟩

/-- One descriptor from systemd that is another server's: both classes close descriptor 4. -/
theorem unmatched_closes_next :
    let process : Process := ⟨none, fun _ => false, 1, fun _ => false⟩
    let calls : Calls := ⟨true, true, true, true, true, some 7, true, true⟩
    (∃ result, InetServer.openTraced HandOver.unspecified process calls [] .create
        ⟨IPAddress.V6, fun _ => 0⟩ 80 0 (fun _ => ⟨false, false⟩) = some result ∧
      result.ok = false ∧ result.closed = [4] ∧ result.owned = []) ∧
    ∃ result, UnixServer.openTraced process calls .create [47, 115] 0
        (fun _ => ⟨false, false⟩) = some result ∧
      result.ok = false ∧ result.closed = [4] ∧ result.owned = [] :=
  ⟨⟨_, rfl, rfl, rfl, rfl⟩, _, rfl, rfl, rfl, rfl⟩

end OpenFailure

end Xio
