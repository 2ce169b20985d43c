import Xio.ServerLife

/-!
Which calls keep any number of `UnixServer` objects in order, and what becomes of names that no
`close` removes.
-/

namespace Xio.ServerLife

open Runs

/-! One server changes, the others stay. -/

structure Sound (system : System) : Prop extends Orderly system where
  apart : ∀ i j listener other, system.servers i = some listener →
    system.servers j = some other → listener.isOpen → listener.server.fd = other.server.fd → i = j

def Owns (slot : Option Listener) (fd : Int) : Prop :=
  ∃ listener, slot = some listener ∧ listener.isOpen ∧ listener.server.fd = fd

theorem isOpen_of_fd (listener other : Listener) (same : listener.server.fd = other.server.fd)
    (open_ : listener.isOpen) : other.isOpen := by
  unfold Listener.isOpen at open_ ⊢
  rwa [← same]

section Replace
variable (system after : System) (i : Nat) (slot : Option Listener)

/-- What is to be shown where server `i` is replaced: who owns which descriptor, and to whom
the names lead. -/
structure Replaces : Prop where
  servers : after.servers = Function.update system.servers i slot
  asserted : after.aborted = false
  clean : after.table.misclosed = false
  owned : ∀ fd, fd ∈ after.table.opened ↔
    (fd ∈ system.table.opened ∧ ¬ Owns (system.servers i) fd) ∨ Owns slot fd
  fresh : ∀ fd, Owns slot fd → Owns (system.servers i) fd ∨ fd ∉ system.table.opened
  watching : ∀ listener, slot = some listener → listener.active = true → listener.isOpen
  reached : ∀ listener, slot = some listener → listener.isOpen → listener.name ≠ [] →
    after.names listener.name = some i
  others : ∀ j other, system.servers j = some other → j ≠ i → other.isOpen → other.name ≠ [] →
    after.names other.name = some j

theorem Replaces.foreign (replaces : Replaces system after i slot) (sound : Sound system) (j : Nat)
    (other : Listener) (there : system.servers j = some other) (apart : j ≠ i)
    (open_ : other.isOpen) :
    ¬ Owns (system.servers i) other.server.fd ∧ ¬ Owns slot other.server.fd := by
  have before : ¬ Owns (system.servers i) other.server.fd := by
    rintro ⟨listener, own, _, same⟩
    exact apart (sound.apart j i other listener there own open_ same.symm)
  refine ⟨before, fun own => ?_⟩
  rcases replaces.fresh _ own with old | new
  · exact before old
  · exact new ((sound.owned _).mpr ⟨j, other, there, open_, rfl⟩)

theorem Replaces.apart (replaces : Replaces system after i slot) (sound : Sound system) (j : Nat)
    (listener other : Listener) (own : slot = some other) (there : system.servers j = some listener)
    (apart : j ≠ i) (open_ : listener.isOpen) : listener.server.fd ≠ other.server.fd := by
  intro same
  exact (replaces.foreign system after i slot sound j listener there apart open_).2
    ⟨other, own, isOpen_of_fd listener other same open_, same.symm⟩

theorem replaced_sound (sound : Sound system) (replaces : Replaces system after i slot) :
    Sound after := by
  have here : after.servers i = slot := by rw [replaces.servers, Function.update_self]
  have elsewhere : ∀ j, j ≠ i → after.servers j = system.servers j := by
    intro j apart
    rw [replaces.servers, Function.update_of_ne apart]
  refine ⟨⟨replaces.asserted, replaces.clean, ?_, ?_, ?_⟩, ?_⟩
  · intro j listener there running
    by_cases same : j = i
    · rw [same, here] at there
      exact replaces.watching listener there running
    · rw [elsewhere j same] at there
      exact sound.watching j listener there running
  · intro fd
    rw [replaces.owned fd]
    constructor
    · rintro (⟨member, other⟩ | ⟨listener, own, open_, same⟩)
      · obtain ⟨j, listener, there, open_, same⟩ := (sound.owned fd).mp member
        have apart : j ≠ i := by
          rintro rfl
          exact other ⟨listener, there, open_, same⟩
        exact ⟨j, listener, (elsewhere j apart).trans there, open_, same⟩
      · exact ⟨i, listener, here.trans own, open_, same⟩
    · rintro ⟨j, listener, there, open_, rfl⟩
      by_cases same : j = i
      · rw [same, here] at there
        exact Or.inr ⟨listener, there, open_, rfl⟩
      · rw [elsewhere j same] at there
        exact Or.inl ⟨(sound.owned _).mpr ⟨j, listener, there, open_, rfl⟩,
          (replaces.foreign system after i slot sound j listener there same open_).1⟩
  · intro j listener there open_ named
    by_cases same : j = i
    · rw [same, here] at there
      rw [same]
      exact replaces.reached listener there open_ named
    · rw [elsewhere j same] at there
      exact replaces.others j listener there same open_ named
  · intro j k listener other there second open_ same
    by_cases first : j = i
    · by_cases last : k = i
      · rw [first, last]
      · rw [first, here] at there
        rw [elsewhere k last] at second
        exact absurd same.symm (replaces.apart system after i slot sound k other listener there
          second last (isOpen_of_fd listener other same open_))
    · rw [elsewhere j first] at there
      by_cases last : k = i
      · rw [last, here] at second
        exact absurd same
          (replaces.apart system after i slot sound j listener other second there first open_)
      · rw [elsewhere k last] at second
        exact sound.apart j k listener other there second open_ same

end Replace

theorem not_owns_closed (slot : Option Listener)
    (closed : ∀ listener, slot = some listener → ¬ listener.isOpen) (fd : Int) :
    ¬ Owns slot fd := by
  rintro ⟨listener, here, open_, _⟩
  exact closed listener here open_

theorem owned_same (system : System) (i : Nat) (slot : Option Listener) (sound : Sound system)
    (same : ∀ fd, Owns slot fd ↔ Owns (system.servers i) fd) (fd : Int) :
    fd ∈ system.table.opened ↔
      (fd ∈ system.table.opened ∧ ¬ Owns (system.servers i) fd) ∨ Owns slot fd := by
  rw [same fd]
  constructor
  · intro member
    by_cases own : Owns (system.servers i) fd
    · exact Or.inr own
    · exact Or.inl ⟨member, own⟩
  · rintro (⟨member, _⟩ | ⟨listener, here, open_, rfl⟩)
    · exact member
    · exact (sound.owned _).mpr ⟨i, listener, here, open_, rfl⟩

theorem bindName_keeps (system : System) (i : Nat) (path : List UInt8) (flags : BitVec 32)
    (calls : Calls) :
    (system.bindName i path flags calls).servers = system.servers ∧
      (system.bindName i path flags calls).table = system.table ∧
      (system.bindName i path flags calls).aborted = system.aborted := by
  unfold System.bindName
  split <;> exact ⟨rfl, rfl, rfl⟩

theorem boundName_free (system : System) (path : List UInt8) (flags : BitVec 32) (calls : Calls)
    (name : List UInt8)
    (bound : System.boundName path flags (system.granted path calls) = some name) :
    system.names name = none := by
  simp only [System.boundName] at bound
  split at bound
  next binds =>
    cases bound
    have granted := binds.1
    unfold System.binds System.granted at granted
    simp only [Bool.and_eq_true] at granted
    exact Option.isNone_iff_eq_none.mp granted.1.2.2
  next => cases bound

theorem bindName_others (system : System) (i : Nat) (path : List UInt8) (flags : BitVec 32)
    (calls : Calls) (name : List UInt8) (j : Nat) (leads : system.names name = some j)
    (table : Descriptors) :
    ({ system with table }.bindName i path flags (system.granted path calls)).names name =
      some j := by
  unfold System.bindName
  split
  next taken bound =>
    have apart : name ≠ taken := by
      rintro rfl
      rw [boundName_free system path flags calls name bound] at leads
      cases leads
    exact (Function.update_of_ne apart ..).trans leads
  next => exact leads

theorem closed_idle (system : System) (i : Nat) (listener : Listener) (sound : Sound system)
    (here : system.servers i = some listener) (closed : ¬ listener.isOpen) :
    listener.active = false := by
  cases running : listener.active with
  | false => rfl
  | true => exact absurd (sound.watching i listener here running) closed

section Open
variable (system : System) (i : Nat) (listener : Listener) (path : List UInt8)
variable (flags : BitVec 32) (calls : Calls)

theorem failed_sound (sound : Sound system) (here : system.servers i = some listener)
    (closed : ¬ listener.isOpen) (server : UnixServer) (none : server.fd = -1)
    (table : Descriptors) (clean : table.misclosed = false)
    (same : ∀ fd, fd ∈ table.opened ↔ fd ∈ system.table.opened) :
    Sound (({ system with table }.bindName i path flags (system.granted path calls)).put i
      { listener with server }) := by
  obtain ⟨servers, kept, aborted⟩ :=
    bindName_keeps { system with table } i path flags (system.granted path calls)
  have shut : ¬ Listener.isOpen { listener with server } := by
    unfold Listener.isOpen
    rw [none]
    decide
  have before : ∀ fd, ¬ Owns (system.servers i) fd := by
    refine not_owns_closed _ fun other there => ?_
    rw [here] at there
    cases there
    exact closed
  have after : ∀ fd, ¬ Owns (some { listener with server }) fd := by
    refine not_owns_closed _ fun other there => ?_
    cases there
    exact shut
  refine replaced_sound system _ i (some { listener with server }) sound
    ⟨?_, ?_, ?_, ?_, ?_, ?_, ?_, ?_⟩
  · simp only [System.put, servers]
  · exact aborted.trans sound.asserted
  · simp only [System.put, kept]
    exact clean
  · intro fd
    simp only [System.put, kept]
    rw [same fd, or_iff_left (after fd), and_iff_left (before fd)]
  · exact fun fd own => absurd own (after fd)
  · intro other there running
    cases there
    rw [closed_idle system i listener sound here closed] at running
    cases running
  · intro other there open_
    cases there
    exact absurd open_ shut
  · intro j other there apart open_ named
    exact bindName_others system i path flags calls other.name j
      (sound.reached j other there open_ named) table

theorem opened_sound (sound : Sound system) (here : system.servers i = some listener)
    (closed : ¬ listener.isOpen) (server : UnixServer) (n : Nat) (fd : server.fd = n)
    (own : server.path = path) (new : (n : Int) ∉ system.table.opened)
    (binds : System.binds path flags (system.granted path calls) = true) :
    Sound (({ system with table := system.table.obtain n }.bindName i path flags
      (system.granted path calls)).startOn i { listener with server }) := by
  obtain ⟨servers, kept, aborted⟩ := bindName_keeps
    { system with table := system.table.obtain n } i path flags (system.granted path calls)
  have idle := closed_idle system i listener sound here closed
  have open_ : Listener.isOpen ⟨server, true⟩ := by
    unfold Listener.isOpen
    rw [fd]
    exact Int.natCast_nonneg n
  have started : Listener.start { listener with server } = some ⟨server, true⟩ :=
    if_pos ⟨open_, idle⟩
  have before : ∀ fd, ¬ Owns (system.servers i) fd := by
    refine not_owns_closed _ fun other there => ?_
    rw [here] at there
    cases there
    exact closed
  have after : ∀ number, Owns (some ⟨server, true⟩) number ↔ number = n := by
    intro number
    constructor
    · rintro ⟨_, ⟨⟩, _, same⟩
      rw [← same, fd]
    · rintro rfl
      exact ⟨_, rfl, open_, fd⟩
  simp only [System.startOn, started]
  refine replaced_sound system _ i (some ⟨server, true⟩) sound ⟨?_, ?_, ?_, ?_, ?_, ?_, ?_, ?_⟩
  · simp only [System.put, servers]
  · exact aborted.trans sound.asserted
  · simp only [System.put, kept]
    exact sound.clean
  · intro number
    simp only [System.put, kept]
    change number ∈ (n : Int) :: system.table.opened ↔ _
    rw [List.mem_cons, after number, and_iff_left (before number), or_comm]
  · intro number mine
    rw [(after number).mp mine]
    exact Or.inr new
  · intro other there _
    cases there
    exact open_
  · intro other there _ named
    cases there
    have name : Listener.name ⟨server, true⟩ = IPAddress.cString path := by
      rw [Listener.name, own]
    rw [name] at named ⊢
    simp only [System.put, System.bindName, System.boundName, if_pos (And.intro binds named)]
    exact Function.update_self ..
  · intro j other there apart opened named
    exact bindName_others system i path flags calls other.name j
      (sound.reached j other there opened named) (system.table.obtain n)

theorem openOn_sound (process : Unaided) (sound : Sound system)
    (here : system.servers i = some listener)
    (closed : ¬ listener.isOpen) (new : ∀ n ∈ calls.socket, (n : Int) ∉ system.table.opened) :
    Sound (openOn process system i listener path flags calls).1 := by
  obtain ⟨traced, result, ⟨failed, none, way⟩ | ⟨n, ok, made, nothing, fd, own, binds⟩⟩ :=
    attempt_cases process (system.granted path calls) listener path flags
  · simp only [openOn, result, failed, Bool.false_eq_true, if_false]
    rcases way with ⟨unmade, nothing⟩ | ⟨n, made, once⟩
    · rw [unmade, nothing]
      exact failed_sound system i listener path flags calls sound here closed traced.server none _
        sound.clean fun _ => Iff.rfl
    · rw [made, once]
      have unused := new n made
      refine failed_sound system i listener path flags calls sound here closed traced.server none _
        ?_ fun fd => SocketLife.obtain_close_opened system.table n fd unused
      exact (SocketLife.close_clean _ _).mpr ⟨sound.clean, List.mem_cons_self⟩
  · simp only [openOn, result, ok, if_true, made, nothing]
    exact opened_sound system i listener path flags calls sound here closed traced.server n fd own
      (new n made) binds

end Open

theorem rewatched_sound (system : System) (i : Nat) (listener next : Listener)
    (sound : Sound system) (here : system.servers i = some listener)
    (server : next.server = listener.server) (watching : next.active = true → next.isOpen) :
    Sound (system.put i next) := by
  have same : ∀ fd, Owns (some next) fd ↔ Owns (system.servers i) fd := by
    intro fd
    rw [here]
    simp only [Owns, Option.some.injEq, exists_eq_left', Listener.isOpen, server]
  refine replaced_sound system _ i (some next) sound
    ⟨rfl, sound.asserted, sound.clean, owned_same system i _ sound same, ?_, ?_, ?_, ?_⟩
  · exact fun fd own => Or.inl ((same fd).mp own)
  · intro other there running
    cases there
    exact watching running
  · intro other there open_ named
    cases there
    have name : next.name = listener.name := by rw [Listener.name, Listener.name, server]
    rw [name] at named ⊢
    exact sound.reached i listener here (isOpen_of_fd _ _ (congrArg (·.fd) server) open_) named
  · exact fun j other there _ open_ named => sound.reached j other there open_ named

theorem construct_sound (system : System) (i : Nat) (sound : Sound system)
    (free : system.servers i = none) : Sound (system.put i .create) := by
  have closed : ∀ fd, ¬ Owns (some Listener.create) fd := by
    refine not_owns_closed _ fun other there => ?_
    cases there
    decide
  have nobody : ∀ fd, ¬ Owns (system.servers i) fd := by
    rintro fd ⟨_, there, _⟩
    rw [free] at there
    cases there
  refine replaced_sound system _ i (some .create) sound
    ⟨rfl, sound.asserted, sound.clean, owned_same system i _ sound
      (fun fd => iff_of_false (closed fd) (nobody fd)), ?_, ?_, ?_, ?_⟩
  · exact fun fd own => absurd own (closed fd)
  · intro other there running
    cases there
    cases running
  · intro other there open_
    cases there
    exact absurd open_ (by decide)
  · exact fun j other there _ open_ named => sound.reached j other there open_ named

theorem closeSocket_owned (system : System) (i : Nat) (listener : Listener) (sound : Sound system)
    (here : system.servers i = some listener) :
    (listener.closeSocket system.table).2.misclosed = false ∧
      ∀ fd, fd ∈ (listener.closeSocket system.table).2.opened ↔
        fd ∈ system.table.opened ∧ ¬ Owns (system.servers i) fd := by
  have own : ∀ fd, Owns (system.servers i) fd ↔ listener.isOpen ∧ listener.server.fd = fd := by
    intro fd
    rw [here]
    simp only [Owns, Option.some.injEq, exists_eq_left']
  unfold Listener.closeSocket
  split
  next open_ =>
    refine ⟨(SocketLife.close_clean _ _).mpr ⟨sound.clean, (sound.owned _).mpr
      ⟨i, listener, here, open_, rfl⟩⟩, fun fd => ?_⟩
    rw [SocketLife.mem_close, own fd]
    exact and_congr_right fun _ => ⟨fun other both => other both.2.symm,
      fun other same => other ⟨open_, same.symm⟩⟩
  next closed =>
    refine ⟨sound.clean, fun fd => ?_⟩
    rw [own fd]
    exact (and_iff_left fun both => closed both.1).symm

theorem closeSocket_closed (listener : Listener) (table : Descriptors) :
    ¬ (listener.closeSocket table).1.isOpen := by
  unfold Listener.closeSocket
  split
  · exact (by decide : ¬ (0 : Int) ≤ -1)
  next closed => exact closed

theorem destroy_sound (system : System) (i : Nat) (listener : Listener) (sound : Sound system)
    (here : system.servers i = some listener) :
    Sound { system with
      servers := Function.update system.servers i none
      table := (listener.stop.closeSocket system.table).2 } := by
  have same : (listener.stop.closeSocket system.table).2 =
      (listener.closeSocket system.table).2 := by
    by_cases open_ : listener.isOpen
    · have stopped : listener.stop.isOpen := open_
      rw [Listener.closeSocket, if_pos stopped, Listener.closeSocket, if_pos open_]
      rfl
    · have stopped : ¬ listener.stop.isOpen := open_
      rw [Listener.closeSocket, if_neg stopped, Listener.closeSocket, if_neg open_]
  rw [same]
  obtain ⟨clean, owned⟩ := closeSocket_owned system i listener sound here
  have nobody : ∀ fd, ¬ Owns none fd := fun fd own => by
    obtain ⟨_, there, _⟩ := own
    cases there
  refine replaced_sound system _ i none sound ⟨rfl, sound.asserted, clean, ?_, ?_, ?_, ?_, ?_⟩
  · intro fd
    rw [or_iff_left (nobody fd)]
    exact owned fd
  · exact fun fd own => absurd own (nobody fd)
  · exact fun _ there => by cases there
  · exact fun _ there => by cases there
  · exact fun j other there _ open_ named => sound.reached j other there open_ named

theorem close_sound (process : Unaided) (system : System) (i : Nat) (listener : Listener)
    (sound : Sound system) (here : system.servers i = some listener)
    (careful : listener.name ≠ [] → ∀ j other, system.servers j = some other → j ≠ i →
      other.isOpen → other.name ≠ listener.name) :
    Sound (step process system (.close i)).1 := by
  obtain ⟨clean, owned⟩ := closeSocket_owned system i listener sound here
  have shut := closeSocket_closed listener system.table
  have nobody : ∀ fd, ¬ Owns (some (listener.closeSocket system.table).1) fd := by
    refine not_owns_closed _ fun other there => ?_
    cases there
    exact shut
  have idle : (listener.closeSocket system.table).1.active = true →
      (listener.closeSocket system.table).1.isOpen := by
    unfold Listener.closeSocket
    split
    · exact fun running => by cases running
    · exact sound.watching i listener here
  have leads : ∀ j other, system.servers j = some other → j ≠ i → other.isOpen →
      other.name ≠ [] → other.name ≠ listener.name := by
    intro j other there apart open_ named same
    exact careful (same ▸ named) j other there apart open_ same
  have general : ∀ names : List UInt8 → Option Nat,
      (∀ j other, system.servers j = some other → j ≠ i → other.isOpen → other.name ≠ [] →
        names other.name = some j) →
      Sound ⟨Function.update system.servers i (some (listener.closeSocket system.table).1), names,
        (listener.closeSocket system.table).2, system.aborted⟩ := by
    intro names others
    refine replaced_sound system _ i (some (listener.closeSocket system.table).1) sound
      ⟨rfl, sound.asserted, clean, ?_, fun fd own => absurd own (nobody fd), ?_, ?_, others⟩
    · intro fd
      rw [or_iff_left (nobody fd)]
      exact owned fd
    · intro other there running
      cases there
      exact idle running
    · intro other there open_
      cases there
      exact absurd open_ shut
  simp only [step, here]
  split
  · exact general _ fun j other there _ open_ named => sound.reached j other there open_ named
  · refine general _ fun j other there apart open_ named => ?_
    exact (Function.update_of_ne (leads j other there apart open_ named) ..).trans
      (sound.reached j other there open_ named)

theorem start_sound (system : System) (i : Nat) (listener : Listener) (sound : Sound system)
    (here : system.servers i = some listener)
    (startable : listener.isOpen ∧ listener.active = false) :
    Sound (system.startOn i listener) := by
  have started : listener.start = some { listener with active := true } := if_pos startable
  simp only [System.startOn, started]
  exact rewatched_sound system i listener _ sound here rfl fun _ => startable.1

theorem step_sound (process : Unaided) (system : System) (op : Op) (sound : Sound system)
    (careful : Careful system op) : Sound (step process system op).1 := by
  cases op with
  | construct i =>
      simp only [step]
      split
      · exact sound
      next free => exact construct_sound system i sound free
  | openOn i path flags calls =>
      simp only [step]
      split
      · exact sound
      next listener here =>
        split
        next new =>
          exact openOn_sound system i listener path flags calls process sound here
            (careful listener here new) new
        next => exact sound
  | start i =>
      simp only [step]
      split
      · exact sound
      next listener here => exact start_sound system i listener sound here (careful listener here)
  | stop i =>
      simp only [step]
      split
      · exact sound
      next listener here =>
        exact rewatched_sound system i listener _ sound here rfl fun running => by cases running
  | close i =>
      cases here : system.servers i with
      | none =>
          simp only [step, here]
          exact sound
      | some listener =>
          exact close_sound process system i listener sound here (careful listener here)
  | destroy i =>
      simp only [step]
      split
      · exact sound
      next listener here => exact destroy_sound system i listener sound here

/-! What a careless call breaks. -/

theorem startOn_keeps (system : System) (i : Nat) (listener : Listener) :
    ∃ active, (system.startOn i listener).servers =
        Function.update system.servers i (some ⟨listener.server, active⟩) ∧
      (system.startOn i listener).table = system.table := by
  unfold System.startOn Listener.start
  split
  next started started_eq =>
    split at started_eq
    · cases started_eq
      exact ⟨true, rfl, rfl⟩
    · cases started_eq
  next => exact ⟨listener.active, rfl, rfl⟩

theorem openOn_leaks (process : Unaided) (system : System) (i : Nat) (listener : Listener)
    (path : List UInt8) (flags : BitVec 32) (calls : Calls) (sound : Sound system)
    (here : system.servers i = some listener)
    (new : ∀ n ∈ calls.socket, (n : Int) ∉ system.table.opened)
    (after : Orderly (openOn process system i listener path flags calls).1) :
    ¬ listener.isOpen := by
  intro open_
  have member : listener.server.fd ∈ system.table.opened :=
    (sound.owned _).mpr ⟨i, listener, here, open_, rfl⟩
  -- Whichever way the call ends, the old descriptor stays in the table without its server.
  have left : ∃ next : Listener, next.server.fd ≠ listener.server.fd ∧
      listener.server.fd ∈ (openOn process system i listener path flags calls).1.table.opened ∧
      (openOn process system i listener path flags calls).1.servers =
        Function.update system.servers i (some next) := by
    obtain ⟨traced, result, ⟨failed, none, way⟩ | ⟨n, ok, made, nothing, fd, _, _⟩⟩ :=
      attempt_cases process (system.granted path calls) listener path flags
    · refine ⟨⟨traced.server, listener.active⟩, ?_, ?_, ?_⟩
      · intro same
        unfold Listener.isOpen at open_
        rw [← same, none] at open_
        exact absurd open_ (by decide)
      · simp only [openOn, result, failed, Bool.false_eq_true, if_false, System.put,
          (bindName_keeps _ i path flags _).2.1]
        rcases way with ⟨unmade, nothing⟩ | ⟨n, made, once⟩
        · rw [unmade, nothing]
          exact member
        · rw [made, once]
          exact (SocketLife.obtain_close_opened system.table n _ (new n made)).mpr member
      · simp only [openOn, result, failed, Bool.false_eq_true, if_false, System.put,
          (bindName_keeps _ i path flags _).1]
    · simp only [openOn, result, ok, if_true, made, nothing, List.foldl_nil]
      obtain ⟨active, servers, table⟩ := startOn_keeps
        (System.bindName { system with table := system.table.obtain n } i path flags
          (system.granted path calls)) i ⟨traced.server, listener.active⟩
      rw [(bindName_keeps _ i path flags _).1] at servers
      rw [(bindName_keeps _ i path flags _).2.1] at table
      refine ⟨⟨traced.server, active⟩, ?_, ?_, servers⟩
      · intro same
        exact new n made (by rw [← fd, same]; exact member)
      · rw [table]
        exact List.mem_cons_of_mem _ member
  obtain ⟨next, other, kept, servers⟩ := left
  obtain ⟨j, holder, there, opened, same⟩ := (after.owned _).mp kept
  rw [servers] at there
  by_cases mine : j = i
  · rw [mine, Function.update_self, Option.some.injEq] at there
    exact other (there ▸ same)
  · rw [Function.update_of_ne mine] at there
    exact mine (sound.apart j i holder listener there here opened same)

theorem orderly_careful (process : Unaided) (system : System) (op : Op) (sound : Sound system)
    (after : Orderly (step process system op).1) : Careful system op := by
  cases op with
  | construct i => trivial
  | openOn i path flags calls =>
      intro listener here new
      simp only [step, here, if_pos new] at after
      exact openOn_leaks process system i listener path flags calls sound here new after
  | start i =>
      intro listener here
      by_contra refused
      have none : listener.start = none := if_neg refused
      have asserted := after.asserted
      simp only [step, here, System.startOn, none] at asserted
      cases asserted
  | stop i => trivial
  | close i =>
      intro listener here named j other there apart open_ same
      have path : listener.server.path ≠ [] := by
        intro empty
        exact named (by rw [Listener.name, empty]; rfl)
      simp only [step, here, if_neg path] at after
      have leads := after.reached j other ((Function.update_of_ne apart ..).trans there) open_
        (same ▸ named)
      rw [same] at leads
      change Function.update system.names listener.name none listener.name = some j at leads
      rw [Function.update_self] at leads
      cases leads
  | destroy i => trivial

theorem initial_sound : Sound initial := by
  refine ⟨⟨rfl, rfl, ?_, ?_, ?_⟩, ?_⟩
  · exact fun _ _ there => nomatch there
  · exact fun fd => iff_of_false (fun member => nomatch member)
      (fun ⟨_, _, there, _⟩ => nomatch there)
  · exact fun _ _ there => nomatch there
  · exact fun _ _ _ _ there => nomatch there

/-- In a process that was handed no sockets any number of servers stay in order, descriptors,
watchers and names, exactly as long as the calls are careful. -/
theorem servers_orderly_iff (process : Unaided) (ops : List Op) :
    Always (step process) Orderly initial ops ↔ Along (step process) Careful initial ops :=
  always_iff_along (step process) Careful Sound Orderly (fun _ sound => sound.toOrderly)
    (step_sound process) (orderly_careful process) initial ops initial_sound

/-! Names that nobody removes. -/

def bound (observed : List (Option (List UInt8))) : List (List UInt8) := observed.filterMap id

theorem startOn_names (system : System) (i : Nat) (listener : Listener) :
    (system.startOn i listener).names = system.names := by
  unfold System.startOn
  split <;> rfl

theorem bindName_grows (system : System) (i : Nat) (path : List UInt8) (flags : BitVec 32)
    (calls : Calls) (name : List UInt8)
    (there : (system.names name).isSome = true ∨ System.boundName path flags calls = some name) :
    ((system.bindName i path flags calls).names name).isSome = true := by
  unfold System.bindName
  split
  next taken bound =>
    by_cases same : name = taken
    · subst same
      simp only [Function.update_self, Option.isSome_some]
    · simp only [Function.update_of_ne same]
      refine there.resolve_right fun also => same ?_
      exact Option.some.inj (also.symm.trans bound)
  next unbound =>
    refine there.resolve_right fun also => ?_
    rw [unbound] at also
    cases also

section Names
variable (process : Unaided) (system : System)

/-- What a step does to the names: those that were there stay, and one that it reports as
bound was free and is there now. -/
structure Binds (after : System × Option (List UInt8)) : Prop where
  grows : ∀ name, (system.names name).isSome = true → (after.1.names name).isSome = true
  fresh : ∀ name, after.2 = some name →
    system.names name = none ∧ (after.1.names name).isSome = true

theorem idle_binds (after : System) (same : after.names = system.names) :
    Binds system (after, none) := by
  constructor
  · intro name there
    rw [same]
    exact there
  · intro name none
    cases none

theorem openOn_binds (i : Nat) (listener : Listener) (path : List UInt8) (flags : BitVec 32)
    (calls : Calls) : Binds system (openOn process system i listener path flags calls) := by
  obtain ⟨traced, result, _⟩ :=
    attempt_cases process (system.granted path calls) listener path flags
  -- Whether the call then fails or starts, the names are those that `bind` left.
  have names : ∀ table : Descriptors,
      (if traced.ok then
        (({ system with table }.bindName i path flags (system.granted path calls)).startOn i
          { listener with server := traced.server })
      else ({ system with table }.bindName i path flags (system.granted path calls)).put i
          { listener with server := traced.server }).names =
        ({ system with table }.bindName i path flags (system.granted path calls)).names := by
    intro table
    split
    · exact startOn_names _ i _
    · rfl
  simp only [openOn, result]
  refine ⟨fun name there => ?_, fun name bound => ?_⟩
  · rw [names]
    exact bindName_grows _ i path flags _ name (Or.inl there)
  · rw [names]
    exact ⟨boundName_free system path flags calls name bound,
      bindName_grows _ i path flags _ name (Or.inr bound)⟩

theorem step_binds (op : Op) (kept : ∀ i, op ≠ .close i) :
    Binds system (step process system op) := by
  cases op with
  | construct i =>
      simp only [step]
      split <;> exact idle_binds system _ rfl
  | openOn i path flags calls =>
      simp only [step]
      split
      · exact idle_binds system _ rfl
      · split
        · exact openOn_binds process system i _ path flags calls
        · exact idle_binds system _ rfl
  | start i =>
      simp only [step]
      split
      · exact idle_binds system _ rfl
      · exact idle_binds system _ (startOn_names system i _)
  | stop i =>
      simp only [step]
      split <;> exact idle_binds system _ rfl
  | close i => exact absurd rfl (kept i)
  | destroy i =>
      simp only [step]
      split <;> exact idle_binds system _ rfl

/-- What is bound later was free after this step, and so before it. -/
theorem Binds.cons {after : System × Option (List UInt8)} (binds : Binds system after)
    {later : List (Option (List UInt8))} (distinct : (bound later).Nodup)
    (free : ∀ name ∈ bound later, after.1.names name = none) :
    (bound (after.2 :: later)).Nodup ∧
      ∀ name ∈ bound (after.2 :: later), system.names name = none := by
  have before : ∀ name ∈ bound later, system.names name = none := by
    intro name member
    cases there : system.names name with
    | none => rfl
    | some j =>
        have still := binds.grows name (by rw [there]; rfl)
        rw [free name member] at still
        cases still
  cases shown : after.2 with
  | none => exact ⟨distinct, before⟩
  | some name =>
      obtain ⟨unbound, taken⟩ := binds.fresh name shown
      refine ⟨List.nodup_cons.mpr ⟨fun member => ?_, distinct⟩, ?_⟩
      · rw [free name member] at taken
        cases taken
      · intro other member
        rcases List.mem_cons.mp member with rfl | later
        · exact unbound
        · exact before other later

end Names

/-- Servers that are destroyed without `close` leave their names behind, and so do those whose
`open` fails behind `bind`: in a run without `close`, in a process that was handed no
sockets, no name is bound a second time, whoever tries. -/
theorem names_bound_once (process : Unaided) (ops : List Op)
    (kept : ∀ op ∈ ops, ∀ i, op ≠ .close i) :
    (bound (outputs (step process) initial ops)).Nodup := by
  suffices run : ∀ system, (bound (outputs (step process) system ops)).Nodup ∧
      ∀ name ∈ bound (outputs (step process) system ops), system.names name = none from
    (run initial).1
  induction ops with
  | nil =>
      intro system
      exact ⟨List.nodup_nil, fun name member => by cases member⟩
  | cons op rest ih =>
      intro system
      rw [List.forall_mem_cons] at kept
      obtain ⟨distinct, free⟩ := ih kept.2 (step process system op).1
      exact (step_binds process system op kept.1).cons system distinct free

theorem names_bound_once_abandoned :
    let process : Unaided := ⟨⟨none, fun _ => false, 0, fun _ => false⟩, rfl, Int.le_refl 0⟩
    let ops : List Op := [.construct 0,
      .openOn 0 [47, 115] 0 ⟨true, true, true, true, true, some 5, true, false⟩,
      .destroy 0, .construct 1,
      .openOn 1 [47, 115] 0 ⟨true, true, true, true, true, some 5, true, true⟩]
    (bound (outputs (step process) initial ops)).Nodup ∧
      bound (outputs (step process) initial ops) = [[47, 115]] := by
  intro process ops
  refine ⟨names_bound_once process ops fun op member i => ?_, rfl⟩
  simp only [ops, List.mem_cons, List.not_mem_nil, or_false] at member
  rcases member with rfl | rfl | rfl | rfl | rfl <;> exact Op.noConfusion

end Xio.ServerLife
