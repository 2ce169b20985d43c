import Xio.ServerSocket

/-!
Where the flags given to `open` arrive. The word is split into `flags_` and `typeMask_` and
put together again in three places: at the listening descriptor, at each accepted one and in
`clone`. The Internet listener gets both flags, the others lose what only one half holds.
-/

namespace Xio.ServerFlags

/-! The two bits. -/

theorem has_nonblock (flags : BitVec 32) : has flags O_NONBLOCK = flags[11] := by
  have bit : O_NONBLOCK = BitVec.twoPow 32 11 := by decide
  rw [has, bit, BitVec.and_twoPow, BitVec.getLsbD_eq_getElem (by decide)]
  cases flags[11] with
  | false => decide
  | true => decide

theorem has_cloexec (flags : BitVec 32) : has flags O_CLOEXEC = flags[19] := by
  have bit : O_CLOEXEC = BitVec.twoPow 32 19 := by decide
  rw [has, bit, BitVec.and_twoPow, BitVec.getLsbD_eq_getElem (by decide)]
  cases flags[19] with
  | false => decide
  | true => decide

theorem flags_plain (flags : BitVec 32) :
    has (splitFlags flags).1 O_NONBLOCK = false ∧ has (splitFlags flags).1 O_CLOEXEC = false := by
  simp only [splitFlags, has_nonblock, has_cloexec]
  cases nonblock : flags[11] with
  | false =>
      cases cloexec : flags[19] with
      | false => simp [nonblock, cloexec]
      | true => simp [nonblock, O_CLOEXEC]
  | true =>
      cases cloexec : flags[19] with
      | false => simp [cloexec, O_NONBLOCK]
      | true => simp [O_NONBLOCK, O_CLOEXEC]

theorem typeMask_bits (flags : BitVec 32) :
    has (splitFlags flags).2 SOCK_NONBLOCK = has flags O_NONBLOCK ∧
      has (splitFlags flags).2 SOCK_CLOEXEC = has flags O_CLOEXEC := by
  simp only [splitFlags]
  cases has flags O_NONBLOCK with
  | false =>
      cases has flags O_CLOEXEC with
      | false =>
          simp only [Bool.false_eq_true, ↓reduceIte]
          decide
      | true =>
          simp only [Bool.false_eq_true, ↓reduceIte]
          decide
  | true =>
      cases has flags O_CLOEXEC with
      | false =>
          simp only [Bool.false_eq_true, ↓reduceIte]
          decide
      | true =>
          simp only [↓reduceIte]
          decide

def Plain (flags : BitVec 32) : Prop :=
  has flags O_NONBLOCK = false ∧ has flags O_CLOEXEC = false

theorem splitFlags_plain (flags : BitVec 32) (plain : Plain flags) :
    splitFlags flags = (flags, 0) := by
  simp only [splitFlags, plain.1, plain.2, Bool.false_eq_true, ↓reduceIte]

theorem typeMask_zero_iff (flags : BitVec 32) : (splitFlags flags).2 = 0 ↔ Plain flags := by
  constructor
  · intro zero
    obtain ⟨nonblock, cloexec⟩ := typeMask_bits flags
    rw [zero] at nonblock cloexec
    exact ⟨nonblock.symm, cloexec.symm⟩
  · intro plain
    rw [splitFlags_plain flags plain]

/-! The descriptors. -/

def Flagged (flags : BitVec 32) (status : Status) : Prop :=
  (has flags O_NONBLOCK = true → status.nonblock = true) ∧
    (has flags O_CLOEXEC = true → status.cloexec = true)

theorem flagged_of_plain (flags : BitVec 32) (plain : Plain flags) (status : Status) :
    Flagged flags status := by
  constructor
  · intro asked
    rw [plain.1] at asked
    cases asked
  · intro asked
    rw [plain.2] at asked
    cases asked

theorem inet_applied (calls : Calls) (flags : BitVec 32) (fd : Int) (files after : Files)
    (applied : InetServer.applyFlags calls flags fd files = some after) :
    Flagged flags (after fd) := by
  simp only [InetServer.applyFlags] at applied
  split at applied
  · cases applied
  split at applied
  · cases applied
  · cases applied
    cases nonblock : has flags O_NONBLOCK with
    | false =>
        cases cloexec : has flags O_CLOEXEC with
        | false => exact flagged_of_plain flags ⟨nonblock, cloexec⟩ _
        | true => simp [Flagged, nonblock, Files.setfd]
    | true =>
        have itself : has O_NONBLOCK O_NONBLOCK = true := rfl
        cases cloexec : has flags O_CLOEXEC with
        | false => simp [Flagged, cloexec, Files.setfl, itself]
        | true => simp [Flagged, Files.setfl, Files.setfd, itself]

/-- `F_SETFL` alone: the descriptor has to be close-on-exec already. -/
theorem unix_applied_iff (calls : Calls) (flags : BitVec 32) (fd : Int) (files after : Files)
    (applied : UnixServer.applyFlags calls flags fd files = some after) :
    Flagged flags (after fd) ↔ (has flags O_CLOEXEC = true → (files fd).cloexec = true) := by
  simp only [UnixServer.applyFlags] at applied
  split at applied
  · split at applied
    · cases applied
      simp only [Flagged, Files.setfl, Function.update_self, and_iff_right_iff_imp]
      intro _ asked
      rw [asked, Bool.or_true]
    · cases applied
  · rename_i zero
    cases applied
    have plain : Plain flags := by
      rw [not_not.mp zero]
      exact ⟨rfl, rfl⟩
    refine iff_of_true (flagged_of_plain flags plain _) fun asked => ?_
    rw [plain.2] at asked
    cases asked

theorem create_bare (files : Files) (fd : Int) : files.create fd 0 fd = ⟨false, false⟩ := by
  rw [Files.create, Function.update_self]
  decide

theorem unflagged_iff (flags : BitVec 32) : Flagged flags ⟨false, false⟩ ↔ Plain flags := by
  simp only [Flagged, Plain, Bool.false_eq_true, imp_false, Bool.not_eq_true]

theorem acceptOne_fallback (supported : Bool) (accept4 : ServerSocket.Accepted)
    (accept : Option Nat) (setfl : Bool) (server : ServerSocket) (files : Files)
    (indirect : ¬ (supported = true ∧ accept4 ≠ .unsupported)) :
    server.acceptOne supported accept4 accept setfl files =
      accept.bind fun n =>
        if server.flags = 0 then some (n, files.create n 0)
        else if setfl then some (n, (files.create n 0).setfl n server.flags) else none := by
  cases supported with
  | false => rfl
  | true =>
      cases accept4 with
      | unsupported => rfl
      | failed => exact absurd ⟨rfl, by decide⟩ indirect
      | descriptor m => exact absurd ⟨rfl, by simp⟩ indirect

theorem acceptOne_flagged_iff (flags : BitVec 32) (supported : Bool)
    (accept4 : ServerSocket.Accepted)
    (accept : Option Nat) (setfl : Bool) (server : ServerSocket) (files after : Files) (n : Nat)
    (split_flags : server.flags = (splitFlags flags).1)
    (split_mask : server.typeMask = (splitFlags flags).2)
    (accepted : server.acceptOne supported accept4 accept setfl files = some (n, after)) :
    Flagged flags (after n) ↔
      (supported = true ∧ accept4 ≠ .unsupported) ∨ Plain flags := by
  have mask := typeMask_bits flags
  have plain := flags_plain flags
  by_cases direct : supported = true ∧ accept4 ≠ .unsupported
  · refine iff_of_true ?_ (Or.inl direct)
    obtain ⟨built, usable⟩ := direct
    subst built
    cases accept4 with
    | unsupported => exact absurd rfl usable
    | failed => cases accepted
    | descriptor m =>
        simp only [ServerSocket.acceptOne, Option.some.injEq, Prod.mk.injEq] at accepted
        obtain ⟨rfl, rfl⟩ := accepted
        simp only [Flagged, Files.create, Function.update_self, split_mask, mask,
          imp_self, and_self]
  · rw [acceptOne_fallback supported accept4 accept setfl server files direct,
      Option.bind_eq_some_iff] at accepted
    obtain ⟨m, _, made⟩ := accepted
    rw [or_iff_right direct]
    split at made
    · cases made
      rw [create_bare]
      exact unflagged_iff flags
    split at made
    · -- `flags_` brings neither of the two
      cases made
      rw [Files.setfl, Function.update_self, create_bare, split_flags, plain.1]
      exact unflagged_iff flags
    · cases made

/-- `clone` hands on `flags_` only, so the new type mask is empty. -/
theorem clone_flags_iff (flags : BitVec 32) (server cloned : ServerSocket)
    (split_flags : server.flags = (splitFlags flags).1)
    (split_mask : server.typeMask = (splitFlags flags).2)
    (again : cloned.flags = (splitFlags server.flags).1 ∧
      cloned.typeMask = (splitFlags server.flags).2) :
    (cloned.flags = server.flags ∧ cloned.typeMask = server.typeMask) ↔ Plain flags := by
  have reset := splitFlags_plain (splitFlags flags).1 (flags_plain flags)
  rw [split_flags, reset] at again
  rw [again.1, again.2, split_flags, split_mask, ← typeMask_zero_iff]
  constructor
  · exact fun same => same.2.symm
  · exact fun zero => ⟨rfl, zero.symm⟩

theorem unix_listener_iff (process : Process) (calls : Calls) (server : UnixServer)
    (path : List UInt8) (flags : BitVec 32) (files : Files) (result : Opened UnixServer)
    (opened : UnixServer.openOn process calls server path flags files = some result)
    (ok : result.ok = true) :
    Flagged flags (result.files result.server.fd) ↔
      (has flags O_CLOEXEC = true → ∃ found fd,
        ListenFds.getSocketUnix process.isSocket process.env (IPAddress.cString path) = some found ∧
          process.given found = some fd ∧
            (files.listened process.listenFds fd).cloexec = true) := by
  obtain ⟨found, lookup, ways⟩ := UnixServer.openOn_ok process calls server path flags files result
    opened ok
  rcases ways with ⟨fd, given, adopted⟩ | ⟨binds, n, created⟩
  · rw [adopted.fd_eq, unix_applied_iff calls flags fd _ _ adopted.files_eq]
    apply imp_congr_right
    intro _
    constructor
    · exact fun closed => ⟨found, fd, lookup, given, closed⟩
    · rintro ⟨found', fd', lookup', given', closed⟩
      cases lookup.symm.trans lookup'
      cases given.symm.trans given'
      exact closed
  · rw [created.fd_eq, unix_applied_iff calls flags n _ _ created.files_eq, create_bare]
    apply imp_congr_right
    intro _
    constructor
    · rintro ⟨⟩
    · rintro ⟨found', fd', lookup', given', _⟩
      cases lookup.symm.trans lookup'
      exact absurd binds (process.not_binds_of_given found fd' given')

/-- Part by part, for each successful `open`: the Internet listener always has its flags, the
local one exactly if it needs no `O_CLOEXEC` or was given a descriptor that had it; a client
has them exactly if `accept4` made it or none were asked for; and `clone` keeps the pair
exactly if none were asked for. -/
theorem requested_flags_iff (process : Process) (calls : Calls) (flags : BitVec 32)
    (files : Files) :
    (∀ inet_ntop uninitialised server ipaddr port result,
      InetServer.openOn inet_ntop process calls uninitialised server ipaddr port flags files =
          some result → result.ok = true →
        Flagged flags (result.files result.server.fd) ∧
        (∀ supported accept4 accept setfl before after n,
          result.server.acceptOne supported accept4 accept setfl before = some (n, after) →
            (Flagged flags (after n) ↔
              (supported = true ∧ accept4 ≠ .unsupported) ∨ Plain flags)) ∧
        (∀ process' calls' uninitialised' before cloned,
          InetServer.clone inet_ntop process' calls' uninitialised' result.server before =
              some cloned →
            ((cloned.server.flags = result.server.flags ∧
                cloned.server.typeMask = result.server.typeMask) ↔ Plain flags))) ∧
    (∀ server path result,
      UnixServer.openOn process calls server path flags files = some result → result.ok = true →
        (Flagged flags (result.files result.server.fd) ↔
          (has flags O_CLOEXEC = true → ∃ found fd,
            ListenFds.getSocketUnix process.isSocket process.env (IPAddress.cString path) =
                some found ∧
              process.given found = some fd ∧
              (files.listened process.listenFds fd).cloexec = true)) ∧
        (∀ supported accept4 accept setfl before after n,
          result.server.acceptOne supported accept4 accept setfl before = some (n, after) →
            (Flagged flags (after n) ↔
              (supported = true ∧ accept4 ≠ .unsupported) ∨ Plain flags)) ∧
        (∀ process' calls' before cloned,
          UnixServer.clone process' calls' result.server before = some cloned →
            ((cloned.server.flags = result.server.flags ∧
                cloned.server.typeMask = result.server.typeMask) ↔ Plain flags))) := by
  constructor
  · intro inet_ntop uninitialised server ipaddr port result opened ok
    have words := InetServer.openOn_flags inet_ntop process calls uninitialised server ipaddr port
      flags files result opened
    refine ⟨?_, ?_, ?_⟩
    · obtain ⟨_, _, ways⟩ := InetServer.openOn_ok inet_ntop process calls uninitialised server
        ipaddr port flags files result opened ok
      rcases ways with ⟨fd, _, adopted⟩ | ⟨_, n, created⟩
      · rw [adopted.fd_eq]
        exact inet_applied calls flags fd _ _ adopted.files_eq
      · rw [created.fd_eq]
        exact inet_applied calls flags n _ _ created.files_eq
    · intro supported accept4 accept setfl before after n accepted
      exact acceptOne_flagged_iff flags supported accept4 accept setfl _ before after n words.1
        words.2 accepted
    · intro process' calls' uninitialised' before cloned copy
      exact clone_flags_iff flags _ _ words.1 words.2
        (InetServer.openOn_flags inet_ntop process' calls' uninitialised' _ _ _ _ before
          cloned copy)
  · intro server path result opened ok
    have words := UnixServer.openOn_flags process calls server path flags files result opened
    refine ⟨unix_listener_iff process calls server path flags files result opened ok, ?_, ?_⟩
    · intro supported accept4 accept setfl before after n accepted
      exact acceptOne_flagged_iff flags supported accept4 accept setfl _ before after n words.1
        words.2 accepted
    · intro process' calls' before cloned copy
      exact clone_flags_iff flags _ _ words.1 words.2
        (UnixServer.openOn_flags process' calls' _ _ _ before cloned copy)

def bare : Process := ⟨none, fun _ => true, 0, fun _ => false⟩

def granted : Calls := ⟨true, true, true, true, true, some 7, true, true⟩

def blank : Files := fun _ => ⟨false, false⟩

theorem requested_flags_iff_unix :
    ∃ result, UnixServer.openOn bare granted .create [47, 115] O_CLOEXEC blank = some result ∧
      result.ok = true ∧ ¬ Flagged O_CLOEXEC (result.files result.server.fd) := by
  refine ⟨_, rfl, rfl, ?_⟩
  rw [((requested_flags_iff bare granted O_CLOEXEC blank).2 .create [47, 115] _ rfl rfl).1]
  intro reached
  obtain ⟨found, fd, lookup, given, _⟩ := reached rfl
  cases lookup
  cases given

/-- A local listener opened with `O_CLOEXEC` is not close-on-exec, a client from plain
`accept` is not non-blocking, and a clone forgets both flags. -/
theorem flags_lost :
    (∃ result, UnixServer.openOn bare granted .create [47, 115] (O_CLOEXEC ||| O_NONBLOCK) blank =
        some result ∧ result.ok = true ∧
      (result.files result.server.fd).cloexec = false ∧
      (∃ after, result.server.acceptOne false .unsupported (some 8) true blank = some (8, after) ∧
        (after 8).nonblock = false) ∧
      ∃ cloned, UnixServer.clone bare granted result.server blank = some cloned ∧
        cloned.server.typeMask ≠ result.server.typeMask) := by
  refine ⟨_, rfl, rfl, ?_, ⟨_, rfl, ?_⟩, ⟨_, rfl, ?_⟩⟩
  · decide
  · decide
  · decide

end Xio.ServerFlags
