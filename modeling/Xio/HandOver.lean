import Xio.ServerSocket

/-!
Handing a listening socket from process to process. Only `bind` writes the address fields,
so a server that took over an existing descriptor does not know what it listens on: its own
`serialize` then hands on an address that nobody will ask for.
-/

namespace Xio.HandOver

open ListenFds Tokens

/-! One `open`. -/

theorem assign_equals (address value : IPAddress) (internet : value.toBool = true) :
    (address.assign value).equals value = true := by
  have copied := address.assign_bytes value
  simp only [IPAddress.equals, copied, Bool.and_eq_true, decide_eq_true_eq, and_true]
  exact ⟨rfl, internet⟩

theorem inet_identity_iff (inet_ntop : InetNtop) (process : Process) (calls : Calls)
    (uninitialised : List UInt8) (server : InetServer) (ipaddr : IPAddress) (port : Int)
    (flags : BitVec 32) (files : Files) (result : Opened InetServer)
    (opened : InetServer.openOn inet_ntop process calls uninitialised server ipaddr port
      flags files = some result) (ok : result.ok = true) :
    (result.server.ipaddr.equals ipaddr = true ∧ result.server.port = port) ↔
      process.Binds (getSocketInet process.isSocket process.env
          (ipaddr.str inet_ntop uninitialised) port) ∨
        (server.ipaddr.equals ipaddr = true ∧ server.port = port) := by
  obtain ⟨found, lookup, ways⟩ := InetServer.openOn_ok inet_ntop process calls uninitialised server
    ipaddr port flags files result opened ok
  rw [lookup]
  rcases ways with ⟨fd, given, adopted⟩ | ⟨binds, n, created⟩
  · rw [or_iff_right (process.not_binds_of_given found fd given), adopted.ipaddr_eq,
      adopted.port_eq]
  · rw [created.ipaddr_eq, created.port_eq]
    exact iff_of_true ⟨assign_equals _ _ created.internet, rfl⟩ (Or.inl binds)

theorem unix_identity_iff (process : Process) (calls : Calls) (server : UnixServer)
    (path : List UInt8) (flags : BitVec 32) (files : Files) (result : Opened UnixServer)
    (opened : UnixServer.openOn process calls server path flags files = some result)
    (ok : result.ok = true) :
    result.server.path = path ↔
      process.Binds (getSocketUnix process.isSocket process.env (IPAddress.cString path)) ∨
        server.path = path := by
  obtain ⟨found, lookup, ways⟩ := UnixServer.openOn_ok process calls server path flags files result
    opened ok
  rw [lookup]
  rcases ways with ⟨fd, given, adopted⟩ | ⟨binds, n, created⟩
  · rw [or_iff_right (process.not_binds_of_given found fd given), adopted.path_eq]
  · exact iff_of_true created.path_eq (Or.inl binds)

/-! A chain of processes. Each inherits the variable that its parent has written and opens
a new server with the same arguments. The flags can be set; the address is still taken by the
inherited descriptor, so binding it once more fails. -/

def heir (env : List UInt8) : Process := ⟨some env, anySocket, 0, fun _ => false⟩

theorem heir_given (env : List UInt8) (found fd : Int) (given : (heir env).given found = some fd) :
    found = fd ∧ 0 ≤ fd := by
  simp only [Process.given, heir, Int.lt_irrefl, ↓reduceIte, Option.ite_none_right_eq_some] at given
  obtain ⟨present, same⟩ := given
  cases same
  exact ⟨rfl, present⟩

def taken : Calls := ⟨true, true, true, true, true, some 0, false, false⟩

section
variable (inet_ntop : InetNtop) (ipaddr : IPAddress) (port : Int) (flags : BitVec 32)
variable (files : Files) (fd : Int)

/-- The next `generations` all adopt `fd`, if the first of them inherits `env`. The stack
holds whatever it likes in each of them. -/
def InetSurvives (uninitialised : Nat → List UInt8) : Nat → List UInt8 → Prop
  | 0, _ => True
  | generations + 1, env =>
      ∃ result, InetServer.openOn inet_ntop (heir env) taken (uninitialised generations) .create
          ipaddr port flags files = some result ∧ result.ok = true ∧ result.server.fd = fd ∧
        InetSurvives uninitialised generations
          (result.server.serialize inet_ntop (uninitialised generations))

def UnixSurvives (path : List UInt8) : Nat → List UInt8 → Prop
  | 0, _ => True
  | generations + 1, env =>
      ∃ result, UnixServer.openOn (heir env) taken .create path flags files = some result ∧
        result.ok = true ∧ result.server.fd = fd ∧
        UnixSurvives path generations result.server.serialize

end

theorem inet_bind_taken (server : InetServer) (ipaddr : IPAddress) (port : Int) (flags : BitVec 32)
    (files : Files) : (server.openFresh taken ipaddr port flags files).ok = false := by
  simp only [InetServer.openFresh]
  split
  · rfl
  split
  · rfl
  · rfl

theorem unix_bind_taken (server : UnixServer) (path : List UInt8) (flags : BitVec 32)
    (files : Files) : (server.openFresh taken path flags files).ok = false := by
  simp only [UnixServer.openFresh, taken]
  split
  · rfl
  · rfl

theorem inet_heir (inet_ntop : InetNtop) (ipaddr : IPAddress) (port : Int) (flags : BitVec 32)
    (files : Files) (env uninitialised : List UInt8) (result : Opened InetServer)
    (opened : InetServer.openOn inet_ntop (heir env) taken uninitialised .create ipaddr port flags
      files = some result) (ok : result.ok = true) :
    getSocketInet anySocket (some env) (ipaddr.str inet_ntop uninitialised) port =
        some result.server.fd ∧ 0 ≤ result.server.fd ∧
      result.server.ipaddr = .default ∧ result.server.port = -1 := by
  obtain ⟨found, _, lookup, rfl, ⟨fd, _, given, rfl⟩ | rfl | ⟨_, rfl⟩⟩ :=
    InetServer.openOn_ways _ _ _ _ _ _ _ _ _ _ opened
  · obtain ⟨rfl, present⟩ := heir_given env found fd given
    rw [(InetServer.adopt_ok _ _ _ _ _ _ ok).1]
    exact ⟨lookup, present, rfl, rfl⟩
  · cases ok
  · rw [inet_bind_taken] at ok
    cases ok

theorem inet_heir_opens (inet_ntop : InetNtop) (ipaddr : IPAddress) (port : Int)
    (flags : BitVec 32) (files : Files) (env uninitialised : List UInt8) (fd : Int)
    (inherited : 0 ≤ fd)
    (lookup : getSocketInet anySocket (some env) (ipaddr.str inet_ntop uninitialised) port =
      some fd) :
    ∃ result, InetServer.openOn inet_ntop (heir env) taken uninitialised .create ipaddr port flags
        files = some result ∧ result.ok = true ∧ result.server.fd = fd := by
  have applied : ∀ files, ∃ after, InetServer.applyFlags taken flags fd files = some after := by
    intro files
    simp [InetServer.applyFlags, taken]
  obtain ⟨after, set⟩ := applied (files.listened 0)
  refine ⟨_, Option.map_eq_some_iff.mpr ⟨fd, lookup, if_pos inherited⟩, ?_⟩
  simp only [InetServer.adopt, heir, set]
  exact ⟨rfl, rfl⟩

theorem unix_heir (path : List UInt8) (flags : BitVec 32) (files : Files) (env : List UInt8)
    (result : Opened UnixServer)
    (opened : UnixServer.openOn (heir env) taken .create path flags files = some result)
    (ok : result.ok = true) :
    getSocketUnix anySocket (some env) (IPAddress.cString path) = some result.server.fd ∧
      0 ≤ result.server.fd ∧ result.server.path = [] := by
  obtain ⟨found, _, lookup, rfl, ⟨fd, given, rfl⟩ | rfl | ⟨_, rfl⟩⟩ :=
    UnixServer.openOn_ways _ _ _ _ _ _ _ opened
  · obtain ⟨rfl, present⟩ := heir_given env found fd given
    rw [(UnixServer.adopt_ok _ _ _ _ _ ok).1]
    exact ⟨lookup, present, rfl⟩
  · cases ok
  · rw [unix_bind_taken] at ok
    cases ok

theorem unix_heir_opens (path : List UInt8) (flags : BitVec 32) (files : Files)
    (env : List UInt8) (fd : Int) (inherited : 0 ≤ fd)
    (lookup : getSocketUnix anySocket (some env) (IPAddress.cString path) = some fd) :
    ∃ result, UnixServer.openOn (heir env) taken .create path flags files = some result ∧
      result.ok = true ∧ result.server.fd = fd := by
  have applied : ∀ files, ∃ after, UnixServer.applyFlags taken flags fd files = some after := by
    intro files
    simp only [UnixServer.applyFlags, taken]
    split
    · exact ⟨_, rfl⟩
    · exact ⟨_, rfl⟩
  obtain ⟨after, set⟩ := applied (files.listened 0)
  refine ⟨_, Option.map_eq_some_iff.mpr ⟨fd, lookup, if_pos inherited⟩, ?_⟩
  simp only [UnixServer.adopt, heir, set]
  exact ⟨trivial, trivial⟩

/-! The records along the chain. -/

theorem tokens_alone (record : List UInt8) (piece : Piece 59 record) :
    tokens 59 record = [record] := by
  have split := tokens_intercalate 59 [record] (by simpa using piece)
  rw [List.intercalate_singleton] at split
  exact split

theorem inet_lookup (address : Address) (port fd : Int) :
    getSocketInet anySocket (some (inetRecord address.1 port fd)) address.1 port = some fd := by
  rw [getSocketInet,
    tokens_alone _ (inetRecord_piece _ port fd (address_piece 59 address rfl).free),
    findInet_inetRecord _ _ _ _ _ _ _ (address_piece 44 address rfl), if_pos ⟨rfl, rfl⟩,
    confirmed_anySocket]

/-- A record without address: its port is read as the address. -/
theorem inet_lookup_nameless (address : Address) (port fd : Int) :
    getSocketInet anySocket (some (inetRecord [] (-1) fd)) address.1 port = some (-1) := by
  have joined : inetRecord [] (-1) fd = 44 :: [44].intercalate [printInt (-1), printInt fd] := by
    simp [inetRecord, List.intercalate_cons_cons]
  have fields : tokens 44 (inetRecord [] (-1) fd) = [printInt (-1), printInt fd] := by
    rw [joined]
    apply tokens_leading
    simp only [List.forall_mem_cons]
    exact ⟨printInt_piece 44 (-1) (by decide) rfl, printInt_piece 44 fd (by decide) rfl,
      fun _ member => by cases member⟩
  have other : printInt (-1) ≠ address.1 := by
    intro same
    have minus : (45 : UInt8) ∈ address.1 := same ▸ List.mem_cons_self
    have printed := address.2.2 45 minus
    revert printed
    decide
  rw [getSocketInet, tokens_alone _ (inetRecord_piece [] (-1) fd (by simp)), findInet, fields]
  simp only [ne_eq, other, not_false_eq_true, ↓reduceIte]
  rfl

theorem unix_lookup (path : Path) (fd : Int) (comma : 44 ∉ path.1) (semicolon : 59 ∉ path.1) :
    getSocketUnix anySocket (some (unixRecord path.1 fd)) path.1 = some fd := by
  rw [getSocketUnix, tokens_alone _ (unixRecord_piece _ fd semicolon),
    findUnix_unixRecord _ _ _ _ _ ⟨path.2.1, comma⟩, if_pos rfl, confirmed_anySocket]

theorem unix_lookup_nameless (path : List UInt8) (fd found : Int)
    (lookup : getSocketUnix anySocket (some (unixRecord [] fd)) path = some found) :
    found = -1 := by
  have joined : unixRecord [] fd = 44 :: [44].intercalate [printInt fd] := by
    simp [unixRecord]
  have fields : tokens 44 (unixRecord [] fd) = [printInt fd] := by
    rw [joined]
    apply tokens_leading
    simp only [List.forall_mem_cons]
    exact ⟨printInt_piece 44 fd (by decide) rfl, fun _ member => by cases member⟩
  rw [getSocketUnix, tokens_alone _ (unixRecord_piece [] fd (by simp)), findUnix, fields] at lookup
  by_cases same : printInt fd = path
  · simp [same] at lookup
  · simp only [ne_eq, same, not_false_eq_true, ↓reduceIte] at lookup
    exact (Option.some.inj lookup).symm

theorem str_internet (inet_ntop : InetNtop) (ipaddr : IPAddress) (internet : ipaddr.toBool = true) :
    ∃ address : Address, ∀ left : IPAddress, left.equals ipaddr = true →
      ∀ uninitialised, left.str inet_ntop uninitialised = address.1 := by
  simp only [IPAddress.toBool, decide_eq_true_eq] at internet
  obtain ⟨address, printed⟩ :=
    Option.isSome_iff_exists.mp ((inet_ntop.internet ipaddr.family ipaddr.bytes).mpr internet)
  refine ⟨address, fun left same uninitialised => ?_⟩
  simp only [IPAddress.equals, Bool.and_eq_true, decide_eq_true_eq] at same
  rw [IPAddress.str, same.1.1, same.2, printed]

theorem str_default (inet_ntop : InetNtop) (uninitialised : List UInt8) :
    IPAddress.default.str inet_ntop uninitialised = IPAddress.cString uninitialised := by
  have unprinted : inet_ntop.prints IPAddress.default.family IPAddress.default.bytes = none := by
    rw [← Option.not_isSome_iff_eq_none, inet_ntop.internet]
    decide
  rw [IPAddress.str, unprinted]

/-! How long a chain lasts. The first heir may find its descriptor, whatever it inherits; what
it hands on is a record without address or path. -/

theorem equals_itself (ipaddr : IPAddress) (internet : ipaddr.toBool = true) :
    ipaddr.equals ipaddr = true := by
  simpa [IPAddress.equals] using internet

theorem inet_second_lost (inet_ntop : InetNtop) (ipaddr : IPAddress) (port : Int)
    (flags : BitVec 32) (files : Files) (fd : Int) (internet : ipaddr.toBool = true)
    (generations : Nat) (env : List UInt8) :
    ¬ InetSurvives inet_ntop ipaddr port flags files fd (fun _ => []) (generations + 2) env := by
  rintro ⟨first, opened, ok, _, second, opened', ok', _, _⟩
  obtain ⟨_, _, unnamed, unset⟩ := inet_heir _ _ _ _ _ _ _ _ opened ok
  obtain ⟨lookup, inherited, _⟩ := inet_heir _ _ _ _ _ _ _ _ opened' ok'
  obtain ⟨address, printed⟩ := str_internet inet_ntop ipaddr internet
  have record : first.server.serialize inet_ntop [] = inetRecord [] (-1) first.server.fd := by
    rw [InetServer.serialize, unnamed, unset, str_default]
    rfl
  rw [record, printed ipaddr (equals_itself ipaddr internet), inet_lookup_nameless] at lookup
  rw [← Option.some.inj lookup] at inherited
  cases inherited

theorem unix_second_lost (path : List UInt8) (flags : BitVec 32) (files : Files) (fd : Int)
    (generations : Nat) (env : List UInt8) :
    ¬ UnixSurvives flags files fd path (generations + 2) env := by
  rintro ⟨first, opened, ok, _, second, opened', ok', _, _⟩
  obtain ⟨_, _, unnamed⟩ := unix_heir _ _ _ _ _ opened ok
  obtain ⟨lookup, inherited, _⟩ := unix_heir _ _ _ _ _ opened' ok'
  have record : first.server.serialize = unixRecord [] first.server.fd := by
    rw [UnixServer.serialize, unnamed]
    rfl
  rw [record] at lookup
  rw [unix_lookup_nameless _ _ _ lookup] at inherited
  cases inherited

theorem inet_survives_iff (inet_ntop : InetNtop) (ipaddr : IPAddress) (port : Int)
    (flags : BitVec 32) (files : Files) (founder : InetServer) (internet : ipaddr.toBool = true)
    (address_kept : founder.ipaddr.equals ipaddr = true) (port_kept : founder.port = port)
    (listening : 0 ≤ founder.fd) (generations : Nat) :
    (∀ uninitialised, InetSurvives inet_ntop ipaddr port flags files founder.fd uninitialised
        generations (founder.serialize inet_ntop (uninitialised generations))) ↔
      generations ≤ 1 := by
  obtain ⟨address, printed⟩ := str_internet inet_ntop ipaddr internet
  have itself := equals_itself ipaddr internet
  have founded : ∀ uninitialised, founder.serialize inet_ntop uninitialised =
      inetRecord address.1 port founder.fd := by
    intro uninitialised
    rw [InetServer.serialize, printed _ address_kept, port_kept]
  constructor
  · intro survives
    by_contra more
    obtain ⟨rest, rfl⟩ : ∃ rest, generations = rest + 2 := ⟨generations - 2, by omega⟩
    -- an empty array on the stack is enough to break the second generation
    exact inet_second_lost inet_ntop ipaddr port flags files founder.fd internet rest _
      (survives fun _ => [])
  · intro few uninitialised
    rw [founded]
    cases generations with
    | zero => trivial
    | succ rest =>
        obtain rfl : rest = 0 := by omega
        have lookup := inet_lookup address port founder.fd
        rw [← printed ipaddr itself (uninitialised 0)] at lookup
        obtain ⟨result, opened, ok, same⟩ := inet_heir_opens inet_ntop ipaddr port flags files _
          (uninitialised 0) founder.fd listening lookup
        rw [printed ipaddr itself] at opened
        exact ⟨result, opened, ok, same, trivial⟩

theorem unix_survives_iff (path : Path) (flags : BitVec 32) (files : Files) (founder : UnixServer)
    (path_kept : founder.path = path.1) (listening : 0 ≤ founder.fd) (generations : Nat) :
    UnixSurvives flags files founder.fd path.1 generations founder.serialize ↔
      generations = 0 ∨ generations = 1 ∧ 44 ∉ path.1 ∧ 59 ∉ path.1 := by
  have whole : IPAddress.cString path.1 = path.1 := by
    apply List.takeWhile_eq_self_iff.mpr
    intro byte member
    exact decide_eq_true fun zero => path.2.2.1 (zero ▸ member)
  have founded : founder.serialize = unixRecord path.1 founder.fd := by
    rw [UnixServer.serialize, path_kept, whole]
  rw [founded]
  match generations with
  | 0 => exact iff_of_true trivial (Or.inl rfl)
  | rest + 2 =>
      exact iff_of_false (unix_second_lost path.1 flags files founder.fd rest _) (by omega)
  | 1 =>
      constructor
      · rintro ⟨first, opened, ok, _, _⟩
        obtain ⟨lookup, inherited, _⟩ := unix_heir _ _ _ _ _ opened ok
        refine Or.inr ⟨rfl, ?_⟩
        by_contra separated
        rw [not_and_or, not_not, not_not] at separated
        rw [whole] at lookup
        rw [getSocketUnix_separator anySocket path.1 _ _ separated lookup] at inherited
        cases inherited
      · rintro (none | ⟨_, comma, semicolon⟩)
        · cases none
        · have lookup := unix_lookup path founder.fd comma semicolon
          nth_rewrite 2 [← whole] at lookup
          obtain ⟨result, opened, ok, same⟩ := unix_heir_opens path.1 flags files _ founder.fd
            listening lookup
          exact ⟨result, opened, ok, same, trivial⟩

/-- A successful `open` leaves the address it was called with exactly if this call has bound
it, or if the object had it before; and the descriptor of a server that knows its address
survives one hand-over, but not two. -/
theorem identity_and_survival_iff (inet_ntop : InetNtop) :
    (∀ process calls uninitialised server ipaddr port flags files result,
      InetServer.openOn inet_ntop process calls uninitialised server ipaddr port flags files =
          some result → result.ok = true →
        ((result.server.ipaddr.equals ipaddr = true ∧ result.server.port = port) ↔
          process.Binds (getSocketInet process.isSocket process.env
              (ipaddr.str inet_ntop uninitialised) port) ∨
            (server.ipaddr.equals ipaddr = true ∧ server.port = port))) ∧
    (∀ process calls server path flags files result,
      UnixServer.openOn process calls server path flags files = some result → result.ok = true →
        (result.server.path = path ↔
          process.Binds (getSocketUnix process.isSocket process.env (IPAddress.cString path)) ∨
            server.path = path)) ∧
    (∀ ipaddr port flags files (founder : InetServer) generations, ipaddr.toBool = true →
      founder.ipaddr.equals ipaddr = true → founder.port = port → 0 ≤ founder.fd →
        ((∀ uninitialised, InetSurvives inet_ntop ipaddr port flags files founder.fd uninitialised
            generations (founder.serialize inet_ntop (uninitialised generations))) ↔
          generations ≤ 1)) ∧
    (∀ (path : Path) flags files (founder : UnixServer) generations, founder.path = path.1 →
      0 ≤ founder.fd →
        (UnixSurvives flags files founder.fd path.1 generations founder.serialize ↔
          generations = 0 ∨ generations = 1 ∧ 44 ∉ path.1 ∧ 59 ∉ path.1)) := by
  refine ⟨?_, ?_, ?_, ?_⟩
  · intro process calls uninitialised server ipaddr port flags files result opened ok
    exact inet_identity_iff inet_ntop process calls uninitialised server ipaddr port flags files
      result opened ok
  · intro process calls server path flags files result opened ok
    exact unix_identity_iff process calls server path flags files result opened ok
  · intro ipaddr port flags files founder generations internet address_kept port_kept listening
    exact inet_survives_iff inet_ntop ipaddr port flags files founder internet address_kept
      port_kept listening generations
  · intro path flags files founder generations path_kept listening
    exact unix_survives_iff path flags files founder path_kept listening generations

def unspecified : InetNtop where
  prints family _ :=
    if family = IPAddress.V4 ∨ family = IPAddress.V6 then some unspecifiedAddress else none
  internet family bytes := by
    split
    · rename_i internet
      exact iff_of_true rfl internet
    · rename_i other
      exact iff_of_false (by decide) other

def localPath : Path := ⟨[47, 115], by decide⟩

theorem identity_and_survival_iff_local :
    UnixSurvives 0 (fun _ => ⟨false, false⟩) 5 localPath.1 1
        (UnixServer.serialize ⟨⟨5, 0, 0⟩, localPath.1⟩) ∧
      ¬ UnixSurvives 0 (fun _ => ⟨false, false⟩) 5 localPath.1 2
        (UnixServer.serialize ⟨⟨5, 0, 0⟩, localPath.1⟩) := by
  have lasts (generations : Nat) := (identity_and_survival_iff unspecified).2.2.2 localPath 0
    (fun _ => ⟨false, false⟩) ⟨⟨5, 0, 0⟩, localPath.1⟩ generations rfl (by decide)
  exact ⟨(lasts 1).mpr (by decide), fun twice => absurd ((lasts 2).mp twice) (by decide)⟩

/-- A server that finds its descriptor in the variable reports port -1 and no path. -/
theorem adopted_server_nameless :
    (∃ result, InetServer.openOn unspecified (heir (inetRecord [58, 58] 80 5)) taken [] .create
        ⟨IPAddress.V6, fun _ => 0⟩ 80 0 (fun _ => ⟨false, false⟩) = some result ∧
      result.ok = true ∧ result.server.fd = 5 ∧ result.server.port = -1 ∧
      result.server.ipaddr.toBool = false) ∧
    ∃ result, UnixServer.openOn (heir (unixRecord localPath.1 5)) taken .create localPath.1 0
        (fun _ => ⟨false, false⟩) = some result ∧
      result.ok = true ∧ result.server.fd = 5 ∧ result.server.path = [] := by
  have lookup : getSocketInet anySocket (some (inetRecord [58, 58] 80 5)) [58, 58] 80 = some 5 := by
    decide
  have found : getSocketUnix anySocket (some (unixRecord localPath.1 5)) localPath.1 = some 5 := by
    decide
  obtain ⟨inet, opened, ok, fd⟩ := inet_heir_opens unspecified ⟨IPAddress.V6, fun _ => 0⟩ 80 0
    (fun _ => ⟨false, false⟩) _ [] 5 (by decide) lookup
  obtain ⟨_, _, unnamed, unset⟩ := inet_heir _ _ _ _ _ _ _ _ opened ok
  obtain ⟨unix, opened', ok', fd'⟩ := unix_heir_opens localPath.1 0 (fun _ => ⟨false, false⟩) _ 5
    (by decide) found
  obtain ⟨_, _, pathless⟩ := unix_heir _ _ _ _ _ opened' ok'
  exact ⟨⟨inet, opened, ok, fd, unset, by rw [unnamed]; rfl⟩, unix, opened', ok', fd', pathless⟩

end Xio.HandOver
