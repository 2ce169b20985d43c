import Xio.HandOver
import Xio.Systemd

/-!
Which of the descriptors that systemd passes a server adopts. An Internet server looks at family
and port, not at the address; the arguments that `UnixServer` mixes up happen to have the same
values. A server that finds nothing reports an error instead of binding its address itself.
-/

namespace Xio.Systemd

open ListenFds

def Listens (table : Table) (fd : Int) (name : Name) : Prop :=
  ∃ status settable, table fd = some ⟨status, settable, .socket SOCK_STREAM true name⟩

-- Port 0 stands for every port.
def SamePort (port : Int) (bound : UInt16) : Prop :=
  port % 65536 = 0 ∨ port % 65536 = bound.toNat

/-- The address does not matter, and the port counts modulo 2^16. -/
def Name.ServesInet (family port : Int) : Name → Prop
  | .inet _ bound => (family = 0 ∨ family = IPAddress.V4) ∧ SamePort port bound
  | .inet6 _ bound => (family = 0 ∨ family = IPAddress.V6) ∧ SamePort port bound
  | _ => False

/-- The empty path asks for a socket without a name, an ordinary one for a name that begins with
it and its terminator, and one that begins with a null character for exactly this name. -/
def Name.ServesUnix (path : List UInt8) : Name → Prop
  | .unix bound => (path = [] ∧ bound = []) ∨ (path.headD 0 ≠ 0 ∧ path ++ [0] <+: bound) ∨
      (path ≠ [] ∧ path.headD 0 = 0 ∧ bound = path)
  | _ => False

def First (serves : Int → Prop) (count fd : Int) : Prop :=
  3 ≤ fd ∧ fd < 3 + count ∧ serves fd ∧ ∀ earlier, 3 ≤ earlier → earlier < fd → ¬ serves earlier

/-! The checks of one descriptor. -/

theorem internal_iff (table : Table) (fd : Int) (passed : 0 ≤ fd) :
    0 < sd_is_socket_internal table fd SOCK_STREAM 1 ↔ Listens table fd (nameOf table fd) := by
  rw [sd_is_socket_internal, if_neg (by simp [SOCK_STREAM]; omega), Listens, nameOf]
  cases table fd with
  | none => simp [EBADF]
  | some descriptor =>
      obtain ⟨status, settable, node⟩ := descriptor
      cases node with
      | file => simp
      | socket type accepting name =>
          cases accepting with
          | false => simp
          | true =>
              by_cases stream : type = 1
              · simp [stream, SOCK_STREAM]
              · simp [stream, SOCK_STREAM]

theorem Listens.nameOf_eq {table : Table} {fd : Int} {name : Name}
    (listens : Listens table fd name) : nameOf table fd = name := by
  obtain ⟨status, settable, found⟩ := listens
  rw [nameOf, found]

theorem checked_iff (table : Table) (fd : Int) (passed : 0 ≤ fd) (check : Name → Int)
    (serves : Name → Prop) (exactly : ∀ name, 0 < check name ↔ serves name) :
    (0 < if sd_is_socket_internal table fd SOCK_STREAM 1 ≤ 0 then
          sd_is_socket_internal table fd SOCK_STREAM 1
        else check (nameOf table fd)) ↔
      ∃ name, Listens table fd name ∧ serves name := by
  by_cases listens : 0 < sd_is_socket_internal table fd SOCK_STREAM 1
  · rw [if_neg (Int.not_le.mpr listens), exactly]
    constructor
    · exact fun served => ⟨_, (internal_iff table fd passed).mp listens, served⟩
    · rintro ⟨name, here, served⟩
      rwa [here.nameOf_eq]
  · rw [if_pos (Int.not_lt.mp listens)]
    refine iff_of_false listens ?_
    rintro ⟨name, here, _⟩
    refine listens ((internal_iff table fd passed).mpr ?_)
    rwa [here.nameOf_eq]

theorem ofInt_toNat (port : Int) : ((UInt16.ofInt port).toNat : Int) = port % 65536 := by
  simp only [UInt16.ofInt, UInt16.toNat_ofNat']
  omega

theorem port_iff (port : Int) (bound : UInt16) :
    (0 < if 0 < UInt16.ofInt port then (if UInt16.ofInt port = bound then (1 : Int) else 0)
      else 1) ↔
      SamePort port bound := by
  rw [SamePort, ← ofInt_toNat port]
  generalize UInt16.ofInt port = cut
  have zero : 0 < cut ↔ cut.toNat ≠ 0 := UInt16.lt_iff_toNat_lt.trans Nat.pos_iff_ne_zero
  by_cases given : 0 < cut
  · rw [if_pos given]
    by_cases same : cut = bound
    · rw [if_pos same, same]
      exact iff_of_true Int.one_pos (Or.inr rfl)
    · rw [if_neg same]
      refine iff_of_false (Int.lt_irrefl 0) ?_
      rintro (none | equal)
      · exact zero.mp given (Int.ofNat.inj none)
      · exact same (UInt16.toNat_inj.mp (Int.ofNat.inj equal))
  · rw [if_neg given]
    have none : cut.toNat = 0 := not_not.mp fun some => given (zero.mpr some)
    exact iff_of_true Int.one_pos (Or.inl (by rw [none]; rfl))

-- What both branches of `sd_is_socket_inet` compare; `own` is the family of the socket.
theorem family_iff (family own port : Int) (bound : UInt16) (known : 0 ≤ family) :
    (0 < if 0 < family ∧ own ≠ family then (0 : Int)
        else if 0 < UInt16.ofInt port then (if UInt16.ofInt port = bound then 1 else 0) else 1) ↔
      (family = 0 ∨ family = own) ∧ SamePort port bound := by
  by_cases other : 0 < family ∧ own ≠ family
  · rw [if_pos other]
    refine iff_of_false (Int.lt_irrefl 0) ?_
    rintro ⟨any | same, _⟩
    · omega
    · exact other.2 same.symm
  · rw [if_neg other, port_iff]
    have own : family = 0 ∨ family = own := by omega
    exact ⟨fun port => ⟨own, port⟩, fun both => both.2⟩

theorem inet_iff (table : Table) (family port fd : Int) (passed : 0 ≤ fd) :
    0 < sd_is_socket_inet table fd family SOCK_STREAM 1 (UInt16.ofInt port) ↔
      ∃ name, Listens table fd name ∧ name.ServesInet family port := by
  rw [sd_is_socket_inet]
  split
  · next foreign =>
    refine iff_of_false (by decide) ?_
    rintro ⟨name, _, served⟩
    cases name with
    | inet address bound => exact served.1.elim foreign.1 foreign.2.1
    | inet6 address bound => exact served.1.elim foreign.1 foreign.2.2
    | unix path => exact served
    | other => exact served
  · next internet =>
    have known : 0 ≤ family := by
      simp only [IPAddress.V4, IPAddress.V6] at internet
      omega
    refine checked_iff table fd passed (·.compareInet family (UInt16.ofInt port)) _ ?_
    intro name
    cases name with
    | inet address bound => exact family_iff family IPAddress.V4 port bound known
    | inet6 address bound => exact family_iff family IPAddress.V6 port bound known
    | unix path => exact iff_of_false (Int.lt_irrefl 0) id
    | other => exact iff_of_false (Int.lt_irrefl 0) id

-- A comparison in C as a condition.
theorem one_pos_iff (holds : Prop) [Decidable holds] :
    0 < (if holds then (1 : Int) else 0) ↔ holds := by
  split
  · next yes => exact iff_of_true Int.one_pos yes
  · next no => exact iff_of_false (Int.lt_irrefl 0) no

theorem begins_iff (name bound : List UInt8) :
    (name.length + 1 ≤ bound.length ∧
        (name ++ [0]).take (name.length + 1) = bound.take (name.length + 1)) ↔
      name ++ [0] <+: bound := by
  have length : (name ++ [0]).length = name.length + 1 := by simp
  rw [List.prefix_iff_eq_take, length, List.take_of_length_le (Nat.le_of_eq length)]
  refine ⟨fun both => both.2, fun same => ⟨?_, same⟩⟩
  have lengths := congrArg List.length same
  rw [length, List.length_take] at lengths
  omega

theorem equals_iff (name bound : List UInt8) :
    (bound.length = name.length ∧ name.take name.length = bound.take name.length) ↔
      bound = name := by
  constructor
  · rintro ⟨length, same⟩
    rw [List.take_length, ← length, List.take_length] at same
    exact same.symm
  · rintro rfl
    exact ⟨rfl, rfl⟩

theorem compareUnix_iff (name : Name) (path : List UInt8) :
    0 < name.compareUnix path path.length ↔ name.ServesUnix path := by
  cases name with
  | inet address bound => exact iff_of_false (Int.lt_irrefl 0) id
  | inet6 address bound => exact iff_of_false (Int.lt_irrefl 0) id
  | other => exact iff_of_false (Int.lt_irrefl 0) id
  | unix bound =>
      rw [Name.compareUnix, Name.ServesUnix]
      cases path with
      | nil => simp [IPAddress.cString, one_pos_iff]
      | cons first rest =>
          have whole : (first :: rest).length ≠ 0 := Nat.succ_ne_zero _
          simp only [if_neg whole]
          by_cases ordinary : (first :: rest).headD 0 ≠ 0
          · rw [if_pos ordinary, one_pos_iff, begins_iff]
            constructor
            · exact fun begins => Or.inr (Or.inl ⟨ordinary, begins⟩)
            · rintro (⟨impossible, _⟩ | ⟨_, begins⟩ | ⟨_, abstract, _⟩)
              · cases impossible
              · exact begins
              · exact absurd abstract ordinary
          · rw [if_neg ordinary, one_pos_iff, equals_iff]
            constructor
            · exact fun same => Or.inr (Or.inr ⟨List.cons_ne_nil _ _, not_not.mp ordinary, same⟩)
            · rintro (⟨impossible, _⟩ | ⟨named, _⟩ | ⟨_, _, same⟩)
              · cases impossible
              · exact absurd named ordinary
              · exact same

theorem unix_iff (table : Table) (path : List UInt8) (fd : Int) (passed : 0 ≤ fd) :
    0 < sd_is_socket_unix table fd AF_UNIX SOCK_STREAM path path.length ↔
      ∃ name, Listens table fd name ∧ name.ServesUnix path :=
  checked_iff table fd passed (·.compareUnix path path.length) _ (compareUnix_iff · path)

/-! The descriptor that is adopted. -/

theorem listener_iff (process : Process) (serves : Int → Prop) (fd : Int)
    (exactly : ∀ fd, 0 ≤ fd → (process.isListener fd = true ↔ serves fd)) :
    process.listener = some fd ↔ First serves process.listenFds fd := by
  rw [Process.listener, List.find?_eq_some_iff_getElem]
  simp only [List.getElem_map, List.getElem_range, List.length_map, List.length_range,
    Bool.not_eq_true', exists_and_left]
  constructor
  · rintro ⟨accepted, i, rfl, below, none⟩
    refine ⟨by omega, by omega, (exactly _ (by omega)).mp accepted, ?_⟩
    intro earlier above before served
    have refused := none (earlier - 3).toNat (by omega)
    have same : (3 : Int) + ((earlier - 3).toNat : Int) = earlier := by omega
    rw [same, (exactly earlier (by omega)).mpr served] at refused
    cases refused
  · rintro ⟨above, below, served, none⟩
    refine ⟨(exactly fd (by omega)).mpr served, (fd - 3).toNat, by omega, by omega, ?_⟩
    intro j before
    rw [Bool.eq_false_iff]
    intro accepted
    exact none (3 + j) (by omega) (by omega) ((exactly _ (by omega)).mp accepted)

theorem marked_listens (table : Table) (fd other : Int) (count : Nat) (name : Name) :
    Listens (table.marked fd count) other name ↔ Listens table other name := by
  rw [Listens, Listens, Table.marked]
  split
  · cases table other with
    | none => rfl
    | some descriptor =>
        obtain ⟨status, settable, node⟩ := descriptor
        simp [Descriptor.mark]
  · rfl

theorem found_iff (env : Environment) (before after : Table) (count : Int)
    (process : Process) (serves : Name → Prop) (fd : Int) (positive : 0 < count)
    (passed : sd_listen_fds env before = some (count, after)) (same : process.listenFds = count)
    (exactly : ∀ fd, 0 ≤ fd →
      (process.isListener fd = true ↔ ∃ name, Listens after fd name ∧ serves name)) :
    process.listener = some fd ↔
      First (fun fd => ∃ name, Listens before fd name ∧ serves name) count fd := by
  obtain ⟨_, _, rfl⟩ := (passed_iff env before after count positive).mp passed
  rw [← same]
  refine listener_iff process _ fd fun fd above => ?_
  rw [exactly fd above]
  simp only [marked_listens]

theorem inet_adopt_iff (server : InetServer) (calls : Calls) (options : Bool) (flags : BitVec 32)
    (fd : Int) (files : Files) :
    (server.adopt calls options flags fd files).ok = true ↔
      (has flags O_NONBLOCK = true → calls.setfl = true) ∧
        (has flags O_CLOEXEC = true → calls.setfd = true) ∧ options = true := by
  unfold InetServer.adopt InetServer.applyFlags
  cases has flags O_NONBLOCK <;> cases has flags O_CLOEXEC <;> cases calls.setfl <;>
    cases calls.setfd <;> cases options <;> simp [InetServer.failed]

theorem unix_adopt_iff (server : UnixServer) (calls : Calls) (flags : BitVec 32) (fd : Int)
    (files : Files) :
    (server.adopt calls flags fd files).ok = true ↔ (flags ≠ 0 → calls.setfl = true) := by
  unfold UnixServer.adopt UnixServer.applyFlags
  by_cases set : flags ≠ 0
  · rw [if_pos set]
    cases calls.setfl with
    | true => exact iff_of_true rfl fun _ => rfl
    | false => exact iff_of_false Bool.false_ne_true fun all => Bool.false_ne_true (all set)
  · rw [if_neg set]
    exact iff_of_true rfl fun some => absurd some set

theorem adopted_iff {Server : Type} (found : Option Int) (adopt : Int → Opened Server)
    (failed : Opened Server) (fdOf : Server → Int) (fd : Int) (allowed : Prop)
    (refused : failed.ok = false) (accepts : ∀ fd, (adopt fd).ok = true ↔ allowed)
    (keeps : ∀ fd, (adopt fd).ok = true → fdOf (adopt fd).server = fd) :
    ((match found with | some fd => adopt fd | none => failed).ok = true ∧
        fdOf (match found with | some fd => adopt fd | none => failed).server = fd) ↔
      found = some fd ∧ allowed := by
  cases found with
  | none =>
      refine iff_of_false ?_ ?_
      · rintro ⟨opened, _⟩
        rw [refused] at opened
        cases opened
      · rintro ⟨impossible, _⟩
        cases impossible
  | some other =>
      constructor
      · rintro ⟨opened, same⟩
        exact ⟨congrArg some ((keeps other opened).symm.trans same), (accepts other).mp opened⟩
      · rintro ⟨⟨⟩, permitted⟩
        have opened := (accepts fd).mpr permitted
        exact ⟨opened, keeps fd opened⟩

def activated : Environment := ⟨42, some (MutableBuffer.decimal 42), some (MutableBuffer.decimal 1)⟩

def holding (name : Name) : Table := fun fd =>
  if fd = 3 then some ⟨⟨false, false⟩, true, .socket SOCK_STREAM true name⟩ else none

theorem activated_passed (name : Name) :
    sd_listen_fds activated (holding name) = some (1, (holding name).marked 3 1) := by
  refine (passed_iff activated (holding name) _ 1 (by decide)).mpr ⟨?_, ?_, rfl⟩
  · exact ⟨_, 42, _, 1, rfl, numeral_decimal 42 (by decide), by decide, rfl, rfl,
      numeral_decimal 1 (by decide), rfl, by decide⟩
  · intro k single
    obtain rfl : k = 0 := Nat.lt_one_iff.mp single
    exact ⟨_, rfl, Or.inr rfl⟩

theorem holding_first (name : Name) (serves : Name → Prop) (served : serves name) :
    First (fun fd => ∃ found, Listens (holding name) fd found ∧ serves found) 1 3 := by
  refine ⟨by decide, by decide, ⟨name, ⟨_, _, rfl⟩, served⟩, ?_⟩
  intro earlier above before
  omega

/-- From the two variables to the listening server: with so many descriptors announced, `open`
succeeds exactly with the first of them that has the server's family and port, if its flags and
options can be set. -/
theorem inet_adopted_iff (inet_ntop : InetNtop) (env : Environment) (before after : Table)
    (count : Int) (isSocket : Int → Bool) (calls : Calls) (uninitialised : List UInt8)
    (server : InetServer) (ipaddr : IPAddress) (port : Int) (flags : BitVec 32) (fd : Int)
    (positive : 0 < count) (passed : sd_listen_fds env before = some (count, after)) :
    (∃ result, InetServer.openOn inet_ntop (inetProcess none isSocket count after ipaddr port) calls
        uninitialised server ipaddr port flags before.files = some result ∧
        result.ok = true ∧ result.server.fd = fd) ↔
      First (fun fd => ∃ name, Listens before fd name ∧ name.ServesInet ipaddr.family port)
        count fd ∧
        (has flags O_NONBLOCK = true → calls.setfl = true) ∧
        (has flags O_CLOEXEC = true → calls.setfd = true) ∧ calls.tcpOptions = true := by
  rw [← found_iff env before after count (inetProcess none isSocket count after ipaddr port) _ fd
    positive passed rfl fun fd above => decide_eq_true_iff.trans
      (inet_iff after ipaddr.family port fd above)]
  generalize process_eq : inetProcess none isSocket count after ipaddr port = process
  have alone : process.env = none := by rw [← process_eq]; rfl
  have listening : 0 < process.listenFds := by rw [← process_eq]; exact positive
  simp only [InetServer.openOn, getSocketInet, alone, Option.map_some, if_pos listening,
    if_neg (by decide : ¬ (0 : Int) ≤ -1), Option.some.injEq, exists_eq_left']
  refine adopted_iff process.listener
    (InetServer.adopt
      { server with flags := (splitFlags flags).1, typeMask := (splitFlags flags).2 }
      calls calls.tcpOptions flags · (before.files.listened process.listenFds))
    (InetServer.failed _ _) (·.fd) fd _ rfl ?_ ?_
  · exact fun fd => inet_adopt_iff _ calls calls.tcpOptions flags fd _
  · intro fd opened
    rw [(InetServer.adopt_ok _ _ _ _ _ _ opened).1]

-- The server was to listen on another address of the port.
theorem inet_adopted_iff_loopback :
    ∃ result, InetServer.openOn HandOver.unspecified
        (inetProcess none (fun _ => true) 1 ((holding (.inet [127, 0, 0, 1] 80)).marked 3 1)
          ⟨IPAddress.V4, fun _ => 0⟩ 80) HandOver.taken [] .create ⟨IPAddress.V4, fun _ => 0⟩ 80 0
          (holding (.inet [127, 0, 0, 1] 80)).files = some result ∧
      result.ok = true ∧ result.server.fd = 3 :=
  (inet_adopted_iff HandOver.unspecified activated (holding (.inet [127, 0, 0, 1] 80)) _ 1
    (fun _ => true) HandOver.taken [] .create ⟨IPAddress.V4, fun _ => 0⟩ 80 0 3 (by decide)
    (activated_passed _)).mpr
    ⟨holding_first _ _ ⟨Or.inr rfl, Or.inr rfl⟩, fun _ => rfl, fun _ => rfl, rfl⟩

/-- The same for a local server: the first of the announced descriptors that has its name. -/
theorem unix_adopted_iff (env : Environment) (before after : Table) (count : Int)
    (isSocket : Int → Bool) (calls : Calls) (server : UnixServer) (path : List UInt8)
    (flags : BitVec 32) (fd : Int) (positive : 0 < count)
    (passed : sd_listen_fds env before = some (count, after)) :
    (∃ result, UnixServer.openOn (unixProcess none isSocket count after path) calls server
      path flags
        before.files = some result ∧ result.ok = true ∧ result.server.fd = fd) ↔
      First (fun fd => ∃ name, Listens before fd name ∧ name.ServesUnix path) count fd ∧
        (flags ≠ 0 → calls.setfl = true) := by
  rw [← found_iff env before after count (unixProcess none isSocket count after path) _ fd
    positive passed rfl fun fd above => decide_eq_true_iff.trans (unix_iff after path fd above)]
  generalize process_eq : unixProcess none isSocket count after path = process
  have alone : process.env = none := by rw [← process_eq]; rfl
  have listening : 0 < process.listenFds := by rw [← process_eq]; exact positive
  simp only [UnixServer.openOn, getSocketUnix, alone, Option.map_some, if_pos listening,
    if_neg (by decide : ¬ (0 : Int) ≤ -1), Option.some.injEq, exists_eq_left']
  refine adopted_iff process.listener
    (UnixServer.adopt
      { server with flags := (splitFlags flags).1, typeMask := (splitFlags flags).2 }
      calls flags · (before.files.listened process.listenFds))
    (UnixServer.failed _ _) (·.fd) fd _ rfl ?_ ?_
  · exact fun fd => unix_adopt_iff _ calls flags fd _
  · intro fd opened
    rw [(UnixServer.adopt_ok _ _ _ _ _ opened).1]

theorem unix_adopted_iff_local :
    ∃ result, UnixServer.openOn
        (unixProcess none (fun _ => true) 1 ((holding (.unix [47, 115, 0])).marked 3 1) [47, 115])
        HandOver.taken .create [47, 115] 0 (holding (.unix [47, 115, 0])).files = some result ∧
      result.ok = true ∧ result.server.fd = 3 :=
  (unix_adopted_iff activated (holding (.unix [47, 115, 0])) _ 1 (fun _ => true) HandOver.taken
    .create [47, 115] 0 3 (by decide) (activated_passed _)).mpr
    ⟨holding_first _ _ (Or.inr (Or.inl ⟨by decide, List.prefix_rfl⟩)), fun _ => rfl⟩

end Xio.Systemd
