import Xio.MachineWord
import Xio.ServerSocket

/-!
Socket activation: `support/sd-daemon/sd-daemon.c` as `open` of both server classes uses it.
`sd_listen_fds` reads two numbers from the environment and marks the descriptors that systemd has
passed; `sd_is_socket_inet` and `sd_is_socket_unix` say which of them suits a server. `fcntl`,
`fstat`, `getsockopt` and `getsockname` answer from a table of the descriptors of the process;
the names that the kernel returns have the length of their family. The environment is never unset.
-/

namespace Xio.Systemd

open ListenFds

def SOCK_STREAM : Int := 1

def AF_UNIX : Int := 1

def EBADF : Int := 9

def EACCES : Int := 13

def EINVAL : Int := 22

def ERANGE : Int := 34

/-! Numbers in the environment. -/

structure Strtoul where
  value : Nat
  rest : List UInt8
  range : Bool

-- The sign in front of the digits, if there is one.
def splitSign : List UInt8 → Bool × List UInt8
  | [] => (false, [])
  | first :: rest =>
      if first = 45 then (true, rest)
      else if first = 43 then (false, rest)
      else (false, first :: rest)

/-- The documented behaviour of `strtoul` with base 10: a minus sign negates the unsigned value,
and without a digit nothing at all is read. -/
def strtoul (text : List UInt8) : Strtoul :=
  let signed := splitSign (text.dropWhile isSpace)
  let value := digitsValue signed.2
  if signed.2.takeWhile isDigit = [] then ⟨0, text, false⟩
  else if value < 2 ^ 64 then
    ⟨if signed.1 then MachineWord.sub 0 value else value, signed.2.dropWhile isDigit, false⟩
  else ⟨2 ^ 64 - 1, signed.2.dropWhile isDigit, true⟩

/-! Descriptors and what they are. -/

/-- What `getsockname` tells: of a local socket those bytes of `sun_path` that are part of the
address. -/
inductive Name where
  | inet (address : List UInt8) (port : UInt16)
  | inet6 (address : List UInt8) (port : UInt16)
  | unix (path : List UInt8)
  | other
  deriving DecidableEq

inductive Node where
  | file
  | socket (type : Int) (accepting : Bool) (name : Name)
  deriving DecidableEq

/-- `settable` says whether `fcntl(F_SETFD)` is permitted. -/
structure Descriptor where
  status : Status
  settable : Bool
  node : Node

abbrev Table := Int → Option Descriptor

structure Environment where
  pid : Int
  LISTEN_PID : Option (List UInt8)
  LISTEN_FDS : Option (List UInt8)

def Descriptor.mark (descriptor : Descriptor) : Descriptor :=
  { descriptor with status := { descriptor.status with cloexec := true } }

def listenLoop : Nat → Int → Table → Option Int × Table
  | 0, _, table => (none, table)
  | left + 1, fd, table =>
      match table fd with
      | none => (some EBADF, table)
      | some descriptor =>
          if descriptor.status.cloexec then listenLoop left (fd + 1) table
          else if descriptor.settable then
            listenLoop left (fd + 1) (Function.update table fd (some descriptor.mark))
          else (some EACCES, table)

/-- `sd_listen_fds(false)`; there is no result where `SD_LISTEN_FDS_START + (int) l` overflows. -/
def sd_listen_fds (env : Environment) (table : Table) : Option (Int × Table) :=
  match env.LISTEN_PID with
  | none => some (0, table)
  | some e =>
      let l := strtoul e
      if l.range then some (-ERANGE, table)
      else if l.rest ≠ [] ∨ l.value = 0 then some (-EINVAL, table)
      else if env.pid ≠ MachineWord.int l.value then some (0, table)
      else match env.LISTEN_FDS with
        | none => some (0, table)
        | some e =>
            let l := strtoul e
            if l.range then some (-ERANGE, table)
            else if l.rest ≠ [] then some (-EINVAL, table)
            else
              let count := MachineWord.int l.value
              if 2 ^ 31 ≤ 3 + count then none
              else match listenLoop count.toNat 3 table with
                | (some errno, table) => some (-errno, table)
                | (none, table) => some (count, table)

def sd_is_socket_internal (table : Table) (fd type listening : Int) : Int :=
  if fd < 0 ∨ type < 0 then -EINVAL
  else match table fd with
    | none => -EBADF
    | some descriptor =>
        match descriptor.node with
        | .file => 0
        | .socket other accepting _ =>
            if type ≠ 0 ∧ other ≠ type then 0
            else if 0 ≤ listening ∧ accepting ≠ decide (listening ≠ 0) then 0
            else 1

-- `getsockname` of a descriptor that has passed the check above.
def nameOf (table : Table) (fd : Int) : Name :=
  match table fd with
  | some ⟨_, _, .socket _ _ name⟩ => name
  | _ => .other

-- The end of `sd_is_socket_inet`, once the name of the socket is known.
def Name.compareInet (name : Name) (family : Int) (port : UInt16) : Int :=
  match name with
  | .inet _ bound =>
      if 0 < family ∧ IPAddress.V4 ≠ family then 0
      else if 0 < port then (if port = bound then 1 else 0) else 1
  | .inet6 _ bound =>
      if 0 < family ∧ IPAddress.V6 ≠ family then 0
      else if 0 < port then (if port = bound then 1 else 0) else 1
  | _ => 0

def sd_is_socket_inet (table : Table) (fd family type listening : Int) (port : UInt16) : Int :=
  if family ≠ 0 ∧ family ≠ IPAddress.V4 ∧ family ≠ IPAddress.V6 then -EINVAL
  else
    let r := sd_is_socket_internal table fd type listening
    if r ≤ 0 then r else (nameOf table fd).compareInet family port

-- The end of `sd_is_socket_unix`: no name, an ordinary name or an abstract one.
def Name.compareUnix (name : Name) (path : List UInt8) (length : Nat) : Int :=
  match name with
  | .unix bound =>
      let length := if length = 0 then (IPAddress.cString path).length else length
      if length = 0 then (if bound = [] then 1 else 0)
      else if path.headD 0 ≠ 0 then
        (if length + 1 ≤ bound.length ∧ (path ++ [0]).take (length + 1) = bound.take (length + 1)
          then 1 else 0)
      else (if bound.length = length ∧ path.take length = bound.take length then 1 else 0)
  | _ => 0

/-- `path` is what the pointer leads to, up to its terminator, and `length` the argument of that
name. -/
def sd_is_socket_unix (table : Table) (fd type listening : Int) (path : List UInt8)
    (length : Nat) : Int :=
  let r := sd_is_socket_internal table fd type listening
  if r ≤ 0 then r else (nameOf table fd).compareUnix path length

/-! What `open` learns. -/

def Table.files (table : Table) : Files := fun fd =>
  match table fd with
  | some descriptor => descriptor.status
  | none => ⟨false, false⟩

/-- The process as `InetServer::open` sees it. The port is narrowed to 16 bits. -/
def inetProcess (env : Option (List UInt8)) (isSocket : Int → Bool) (count : Int)
    (table : Table) (ipaddr : IPAddress) (port : Int) : Process :=
  ⟨env, isSocket, count, fun fd =>
    decide (0 < sd_is_socket_inet table fd ipaddr.family SOCK_STREAM 1 (UInt16.ofInt port))⟩

/-- The process as `UnixServer::open` sees it: it passes `AF_UNIX` for the type and `SOCK_STREAM`
for the flag `listening`. -/
def unixProcess (env : Option (List UInt8)) (isSocket : Int → Bool) (count : Int)
    (table : Table) (path : List UInt8) : Process :=
  ⟨env, isSocket, count, fun fd =>
    decide (0 < sd_is_socket_unix table fd AF_UNIX SOCK_STREAM path path.length)⟩

/-! Which texts are numbers. -/

/-- White space, a sign and digits; the empty text counts as zero. -/
def Numeral (text : List UInt8) (value : Nat) : Prop :=
  (text = [] ∧ value = 0) ∨
    ∃ spaces sign digits, text = spaces ++ (sign ++ digits) ∧
      (∀ byte ∈ spaces, isSpace byte = true) ∧ (sign = [] ∨ sign = [43] ∨ sign = [45]) ∧
      digits ≠ [] ∧ (∀ byte ∈ digits, isDigit byte = true) ∧ digitsValue digits < 2 ^ 64 ∧
      value = if sign = [45] then MachineWord.sub 0 (digitsValue digits) else digitsValue digits

theorem splitSign_sign (text : List UInt8) :
    ∃ sign, (sign = [] ∨ sign = [43] ∨ sign = [45]) ∧ text = sign ++ (splitSign text).2 ∧
      ((splitSign text).1 = true ↔ sign = [45]) := by
  cases text with
  | nil => exact ⟨[], Or.inl rfl, rfl, by decide⟩
  | cons first rest =>
      rw [splitSign]
      split
      · next minus => exact ⟨[45], Or.inr (Or.inr rfl), by rw [minus]; rfl, by simp⟩
      split
      · next plus => exact ⟨[43], Or.inr (Or.inl rfl), by rw [plus]; rfl, by simp⟩
      · exact ⟨[], Or.inl rfl, rfl, by simp⟩

theorem splitSign_digits (sign digits : List UInt8) (signed : sign = [] ∨ sign = [43] ∨ sign = [45])
    (some : digits ≠ []) (each : ∀ byte ∈ digits, isDigit byte = true) :
    splitSign (sign ++ digits) = (decide (sign = [45]), digits) := by
  rcases signed with rfl | rfl | rfl
  · cases digits with
    | nil => exact absurd rfl some
    | cons first rest =>
        have digit := each first List.mem_cons_self
        rw [List.nil_append, splitSign, if_neg (digit_ne first 45 digit rfl),
          if_neg (digit_ne first 43 digit rfl)]
        rfl
  · rfl
  · rfl

theorem dropWhile_spaces (spaces sign digits : List UInt8)
    (blank : ∀ byte ∈ spaces, isSpace byte = true) (signed : sign = [] ∨ sign = [43] ∨ sign = [45])
    (each : ∀ byte ∈ digits, isDigit byte = true) :
    (spaces ++ (sign ++ digits)).dropWhile isSpace = sign ++ digits := by
  rw [List.dropWhile_append_of_pos blank]
  rcases signed with rfl | rfl | rfl
  · cases digits with
    | nil => rfl
    | cons first rest =>
        exact List.dropWhile_cons_of_neg
          (by rw [digit_not_space first (each first List.mem_cons_self)]; decide)
  · rfl
  · rfl

theorem strtoul_iff (text : List UInt8) (value : Nat) :
    ((strtoul text).range = false ∧ (strtoul text).rest = [] ∧ (strtoul text).value = value) ↔
      Numeral text value := by
  constructor
  · rintro ⟨inside, whole, rfl⟩
    simp only [strtoul] at inside whole ⊢
    split at inside
    · next none =>
      rw [if_pos none] at whole ⊢
      exact Or.inl ⟨whole, rfl⟩
    next some =>
    split at inside
    · next fits =>
      rw [if_neg some, if_pos fits] at whole ⊢
      obtain ⟨sign, signed, split, minus⟩ := splitSign_sign (text.dropWhile isSpace)
      refine Or.inr ⟨text.takeWhile isSpace, sign, (splitSign (text.dropWhile isSpace)).2, ?_,
        fun byte member => List.mem_takeWhile_imp member, signed, ?_, ?_, fits, ?_⟩
      · rw [← split, List.takeWhile_append_dropWhile]
      · intro empty
        rw [empty] at some
        exact some rfl
      · exact List.dropWhile_eq_nil_iff.mp whole
      · simp only [minus]
    · cases inside
  · rintro (⟨rfl, rfl⟩ | ⟨spaces, sign, digits, rfl, blank, signed, some, each, fits, rfl⟩)
    · exact ⟨rfl, rfl, rfl⟩
    · have all : digits.takeWhile isDigit = digits := List.takeWhile_eq_self_iff.mpr each
      simp only [strtoul, dropWhile_spaces spaces sign digits blank signed each,
        splitSign_digits sign digits signed some each, all, if_neg some, if_pos fits,
        decide_eq_true_eq]
      exact ⟨trivial, List.dropWhile_eq_nil_iff.mpr each, trivial⟩

theorem numeral_decimal (value : Nat) (fits : value < 2 ^ 64) :
    Numeral (MutableBuffer.decimal value) value := by
  refine Or.inr ⟨[], [], MutableBuffer.decimal value, rfl, List.forall_mem_nil _, Or.inl rfl,
    MutableBuffer.decimal_ne_nil value, decimal_digits value, ?_, ?_⟩
  · rw [digitsValue_decimal]
    exact fits
  · rw [digitsValue_decimal]
    rfl

/-! The descriptors that are passed. -/

def Table.marked (table : Table) (fd : Int) (count : Nat) : Table := fun other =>
  if fd ≤ other ∧ other < fd + count then (table other).map Descriptor.mark else table other

def Descriptor.Markable (descriptor : Descriptor) : Prop :=
  descriptor.status.cloexec = true ∨ descriptor.settable = true

theorem mark_marked (descriptor : Descriptor) (marked : descriptor.status.cloexec = true) :
    descriptor.mark = descriptor := by
  obtain ⟨⟨nonblock, cloexec⟩, settable, node⟩ := descriptor
  cases marked
  rfl

theorem marked_zero (table : Table) (fd : Int) : table.marked fd 0 = table := by
  funext other
  exact if_neg (by omega)

theorem marked_succ (table : Table) (fd : Int) (count : Nat) :
    Table.marked (Function.update table fd ((table fd).map Descriptor.mark)) (fd + 1) count =
      table.marked fd (count + 1) := by
  funext other
  by_cases first : other = fd
  · subst first
    rw [Table.marked, Table.marked, if_neg (by omega), if_pos (by omega), Function.update_self]
  · rw [Table.marked, Table.marked, Function.update_of_ne first]
    have same : (fd + 1 ≤ other ∧ other < fd + 1 + (count : Int)) ↔
        (fd ≤ other ∧ other < fd + ((count + 1 : Nat) : Int)) := by
      omega
    simp only [same]

theorem listenLoop_succ (left : Nat) (fd : Int) (table : Table) :
    (∃ descriptor, table fd = some descriptor ∧ descriptor.Markable ∧
        listenLoop (left + 1) fd table =
          listenLoop left (fd + 1) (Function.update table fd ((table fd).map Descriptor.mark))) ∨
      ((∀ descriptor, table fd = some descriptor → ¬ descriptor.Markable) ∧
        ∃ errno, 0 < errno ∧ listenLoop (left + 1) fd table = (some errno, table)) := by
  rw [listenLoop]
  cases found : table fd with
  | none => exact Or.inr ⟨(fun _ impossible => nomatch impossible), EBADF, by decide, rfl⟩
  | some descriptor =>
      dsimp only
      by_cases marked : descriptor.status.cloexec = true
      · rw [if_pos marked]
        refine Or.inl ⟨descriptor, rfl, Or.inl marked, ?_⟩
        rw [Option.map_some, mark_marked descriptor marked, ← found, Function.update_eq_self]
      rw [if_neg marked]
      by_cases settable : descriptor.settable = true
      · rw [if_pos settable]
        exact Or.inl ⟨descriptor, rfl, Or.inr settable, rfl⟩
      · rw [if_neg settable]
        refine Or.inr ⟨?_, EACCES, by decide, rfl⟩
        rintro _ ⟨⟩ (already | permitted)
        · exact marked already
        · exact settable permitted

def Inherited (table : Table) (fd : Int) (count : Nat) : Prop :=
  ∀ k < count, ∃ descriptor, table (fd + k) = some descriptor ∧ descriptor.Markable

theorem inherited_succ (table : Table) (fd : Int) (count : Nat) (descriptor : Descriptor)
    (found : table fd = some descriptor) (markable : descriptor.Markable) :
    Inherited table fd (count + 1) ↔
      Inherited (Function.update table fd ((table fd).map Descriptor.mark)) (fd + 1) count := by
  have shifted : ∀ k : Nat, fd + 1 + (k : Int) = fd + ((k + 1 : Nat) : Int) := by
    intro k
    omega
  have other : ∀ k : Nat, fd + 1 + (k : Int) ≠ fd := by
    intro k
    omega
  constructor
  · intro all k below
    rw [Function.update_of_ne (other k), shifted]
    exact all (k + 1) (Nat.succ_lt_succ below)
  · intro all k below
    cases k with
    | zero => exact ⟨descriptor, by rw [Int.natCast_zero, Int.add_zero, found], markable⟩
    | succ k =>
        have tail := all k (Nat.lt_of_succ_lt_succ below)
        rwa [Function.update_of_ne (other k), shifted] at tail

theorem listenLoop_iff (left : Nat) (fd : Int) (table after : Table) :
    listenLoop left fd table = (none, after) ↔
      Inherited table fd left ∧ after = table.marked fd left := by
  induction left generalizing fd table with
  | zero =>
      rw [listenLoop, marked_zero, Prod.mk.injEq]
      exact ⟨fun same => ⟨fun k below => absurd below (Nat.not_lt_zero k), same.2.symm⟩,
        fun same => ⟨rfl, same.2.symm⟩⟩
  | succ left ih =>
      rcases listenLoop_succ left fd table with
        ⟨descriptor, found, markable, goes⟩ | ⟨stuck, errno, _, stops⟩
      · rw [goes, ih, marked_succ, inherited_succ table fd left descriptor found markable]
      · rw [stops]
        constructor
        · intro impossible
          cases (Prod.mk.inj impossible).1
        · rintro ⟨all, _⟩
          obtain ⟨descriptor, found, markable⟩ := all 0 (Nat.succ_pos left)
          rw [Int.natCast_zero, Int.add_zero] at found
          exact absurd markable (stuck descriptor found)

theorem listenLoop_errno (left : Nat) (fd : Int) (table after : Table) (errno : Int)
    (stopped : listenLoop left fd table = (some errno, after)) : 0 < errno := by
  induction left generalizing fd table with
  | zero => cases stopped
  | succ left ih =>
      rcases listenLoop_succ left fd table with ⟨_, _, _, goes⟩ | ⟨_, code, positive, stops⟩
      · rw [goes] at stopped
        exact ih _ _ stopped
      · rw [stops] at stopped
        cases stopped
        exact positive

/-- Both variables hold numbers. The first, cut to 32 bits, is the number of this process; the
second, cut likewise, is `count`. -/
def Announced (env : Environment) (count : Int) : Prop :=
  ∃ pid p fds n, env.LISTEN_PID = some pid ∧ Numeral pid p ∧ p ≠ 0 ∧ env.pid = MachineWord.int p ∧
    env.LISTEN_FDS = some fds ∧ Numeral fds n ∧ count = MachineWord.int n ∧ 3 + count < 2 ^ 31

theorem sd_listen_fds_cases (env : Environment) (table after : Table) (count : Int)
    (result : sd_listen_fds env table = some (count, after)) :
    (count ≤ 0 ∧ after = table) ∨
      (∃ announced errno, Announced env announced ∧
        listenLoop announced.toNat 3 table = (some errno, after) ∧ count = -errno) ∨
      (Announced env count ∧ listenLoop count.toNat 3 table = (none, after)) := by
  rw [sd_listen_fds] at result
  cases given : env.LISTEN_PID with
  | none =>
      rw [given] at result
      cases result
      exact Or.inl ⟨by decide, rfl⟩
  | some pid =>
      rw [given] at result
      dsimp only at result
      split at result
      · cases result
        exact Or.inl ⟨by decide, rfl⟩
      next inside =>
      split at result
      · cases result
        exact Or.inl ⟨by decide, rfl⟩
      next valid =>
      rw [not_or, not_not] at valid
      split at result
      · cases result
        exact Or.inl ⟨by decide, rfl⟩
      next ours =>
      cases announced : env.LISTEN_FDS with
      | none =>
          rw [announced] at result
          cases result
          exact Or.inl ⟨by decide, rfl⟩
      | some fds =>
          rw [announced] at result
          dsimp only at result
          split at result
          · cases result
            exact Or.inl ⟨by decide, rfl⟩
          next fits =>
          split at result
          · cases result
            exact Or.inl ⟨by decide, rfl⟩
          next whole =>
          split at result
          · cases result
          next small =>
          have pidNumeral := (strtoul_iff pid _).mp ⟨Bool.eq_false_iff.mpr inside, valid.1, rfl⟩
          have fdsNumeral := (strtoul_iff fds _).mp
            ⟨Bool.eq_false_iff.mpr fits, not_not.mp whole, rfl⟩
          have told : Announced env (MachineWord.int (strtoul fds).value) :=
            ⟨pid, _, fds, _, given, pidNumeral, valid.2, not_not.mp ours, announced,
              fdsNumeral, rfl, Int.not_le.mp small⟩
          generalize looped : listenLoop _ 3 table = outcome at result
          obtain ⟨stopped, marked⟩ := outcome
          cases stopped with
          | some errno =>
              cases result
              exact Or.inr (Or.inl ⟨_, errno, told, looped, rfl⟩)
          | none =>
              cases result
              exact Or.inr (Or.inr ⟨told, looped⟩)

theorem sd_listen_fds_announced (env : Environment) (table after : Table) (count : Int)
    (announced : Announced env count) (looped : listenLoop count.toNat 3 table = (none, after)) :
    sd_listen_fds env table = some (count, after) := by
  obtain ⟨pid, _, fds, _, given, pidNumeral, nonzero, ours, listed, fdsNumeral, rfl, small⟩ :=
    announced
  obtain ⟨inside, whole, rfl⟩ := (strtoul_iff pid _).mpr pidNumeral
  obtain ⟨fits, complete, rfl⟩ := (strtoul_iff fds _).mpr fdsNumeral
  simp only [sd_listen_fds, given, listed, inside, fits, whole, complete, nonzero, ours, looped,
    Int.not_le.mpr small, ne_eq, not_true_eq_false, or_false, ↓reduceIte, Bool.false_eq_true]

theorem passed_iff (env : Environment) (table after : Table) (count : Int) (positive : 0 < count) :
    sd_listen_fds env table = some (count, after) ↔
      Announced env count ∧ Inherited table 3 count.toNat ∧ after = table.marked 3 count.toNat := by
  rw [← listenLoop_iff]
  constructor
  · intro result
    rcases sd_listen_fds_cases env table after count result with
      ⟨none, _⟩ | ⟨_, errno, _, stopped, rfl⟩ | passed
    · omega
    · have code := listenLoop_errno _ _ _ _ _ stopped
      omega
    · exact passed
  · rintro ⟨announced, looped⟩
    exact sd_listen_fds_announced env table after count announced looped

theorem listenLoop_stopped (left : Nat) (fd : Int) (table after : Table) (errno : Int)
    (stopped : listenLoop left fd table = (some errno, after)) :
    ∃ marks, marks < left ∧ Inherited table fd marks ∧ ¬ Inherited table fd (marks + 1) ∧
      after = table.marked fd marks := by
  induction left generalizing fd table with
  | zero => cases stopped
  | succ left ih =>
      rcases listenLoop_succ left fd table with
        ⟨descriptor, found, markable, goes⟩ | ⟨stuck, _, _, stops⟩
      · rw [goes] at stopped
        obtain ⟨marks, below, all, short, same⟩ := ih _ _ stopped
        refine ⟨marks + 1, Nat.succ_lt_succ below, ?_, ?_, ?_⟩
        · exact (inherited_succ table fd marks descriptor found markable).mpr all
        · rw [inherited_succ table fd (marks + 1) descriptor found markable]
          exact short
        · rw [same, marked_succ]
      · rw [stops] at stopped
        have same : after = table := (Prod.mk.inj stopped).2.symm
        refine ⟨0, Nat.succ_pos left, fun k below => absurd below (Nat.not_lt_zero k), ?_,
          same.trans (marked_zero table fd).symm⟩
        intro all
        obtain ⟨descriptor, found, markable⟩ := all 0 Nat.one_pos
        rw [Int.natCast_zero, Int.add_zero] at found
        exact stuck descriptor found markable

theorem marked_files (table : Table) (count : Int) (all : Inherited table 3 count.toNat) :
    (table.marked 3 count.toNat).files = table.files.listened count := by
  funext fd
  by_cases inside : 3 ≤ fd ∧ fd < 3 + count
  · obtain ⟨descriptor, found, _⟩ := all (fd - 3).toNat (by omega)
    have same : (3 : Int) + ((fd - 3).toNat : Int) = fd := by omega
    rw [same] at found
    have marked : table.marked 3 count.toNat fd = some descriptor.mark := by
      rw [Table.marked, if_pos (by omega), found]
      rfl
    simp only [Table.files, Files.listened, if_pos inside, marked, found, Descriptor.mark]
  · have untouched : table.marked 3 count.toNat fd = table fd := if_neg (by omega)
    simp only [Table.files, Files.listened, if_neg inside, untouched]

/-- A positive number is reported exactly if it was announced to this process and all those
descriptors are open and can be marked, and then they are. A failure leaves those of the
announced ones marked that stand in front of the first that cannot be; never is anything else
changed. Where no error is reported, the flags are what the servers assume them to be. -/
theorem listen_fds_exact (env : Environment) (table after : Table) (count : Int) :
    ((0 < count ∧ sd_listen_fds env table = some (count, after)) ↔
      0 < count ∧ Announced env count ∧ Inherited table 3 count.toNat ∧
        after = table.marked 3 count.toNat) ∧
    (sd_listen_fds env table = some (count, after) →
      (after = table ∨ ∃ announced marks, Announced env announced ∧ marks ≤ announced.toNat ∧
        Inherited table 3 marks ∧ (count < 0 → ¬ Inherited table 3 (marks + 1)) ∧
        after = table.marked 3 marks) ∧
        (0 ≤ count → after.files = table.files.listened count)) := by
  constructor
  · exact and_congr_right fun positive => passed_iff env table after count positive
  · intro result
    rcases sd_listen_fds_cases env table after count result with
      ⟨none, rfl⟩ | ⟨announced, errno, told, stopped, rfl⟩ | ⟨told, looped⟩
    · refine ⟨Or.inl rfl, fun known => ?_⟩
      obtain rfl : count = 0 := by omega
      have files := marked_files after 0 fun k below => absurd below (Nat.not_lt_zero k)
      rwa [Int.toNat_zero, marked_zero] at files
    · have code := listenLoop_errno _ _ _ _ _ stopped
      obtain ⟨marks, below, all, short, same⟩ := listenLoop_stopped _ _ _ _ _ stopped
      exact ⟨Or.inr ⟨announced, marks, told, Nat.le_of_lt below, all, fun _ => short, same⟩,
        fun known => by omega⟩
    · obtain ⟨all, rfl⟩ := (listenLoop_iff _ _ _ _).mp looped
      refine ⟨?_, fun _ => marked_files table count all⟩
      by_cases positive : 0 < count
      · exact Or.inr ⟨count, _, told, Nat.le_refl _, all, fun failed => by omega, rfl⟩
      · -- a count that is negative as an `int` marks nothing and is returned as it is
        left
        rw [Int.toNat_of_nonpos (Int.not_lt.mp positive), marked_zero]

end Xio.Systemd
