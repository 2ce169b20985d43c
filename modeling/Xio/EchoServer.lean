import Xio.Accounts
import Xio.EchoClient

/-!
`examples/echo-server.cpp` with any number of clients, whose events interleave as they like.
The descriptors are kept in a table, and what a client had not sent when it was deleted is kept
aside, where nothing reads it.
-/

namespace Xio.EchoServer

open Environment Runs Accounts

inductive Slot where
  | unused
  | live (client : Client)
  | gone (reason : Reason) (unsent : List UInt8)

structure Server where
  slots : Nat → Slot
  accepted : Nat
  listening : Bool
  table : Descriptors

def start : Server := ⟨fun _ => .unused, 0, true, [], false⟩

inductive Event where
  | accept (fd : Nat)
  | ready (i : Nat) (ready : Ready)
  | timeout (i : Nat)

structure Seen where
  client : Nat
  received : List UInt8
  sent : List UInt8

def delete (server : Server) (i : Nat) (client : Client) (reason : Reason) : Server :=
  { server with
    slots := Function.update server.slots i (.gone reason client.writeBuffer.unread)
    table := (client.socket.close server.table).2 }

-- Only an armed watcher calls back, and only with what it waits for.
def delivered (client : Client) (ready : Ready) : Ready :=
  { ready with
    read := ready.read && client.interest.reads
    write := ready.write && client.interest.writes }

def perform (server : Server) : Event → Server × Seen
  | .accept fd =>
      if server.listening ∧ (fd : Int) ∉ server.table.opened then
        (⟨Function.update server.slots server.accepted (.live (.create fd)), server.accepted + 1,
          true, server.table.obtain fd⟩, ⟨server.accepted, [], []⟩)
      else (server, ⟨server.accepted, [], []⟩)
  | .ready i ready =>
      match server.slots i with
      | .live client =>
          let now := delivered client ready
          if client.socket.io ∧ (now.read ∨ now.write) then
            let socket := (client.socket.onIo none server.table).1
            let handled := { client with socket }.handle now
            let server := { server with listening := server.listening && !handled.stops }
            match handled.reason with
            | none =>
                ({ server with slots := Function.update server.slots i (.live handled.client) },
                  ⟨i, handled.received, handled.sent⟩)
            | some reason =>
                (delete server i handled.client reason, ⟨i, handled.received, handled.sent⟩)
          else (server, ⟨i, [], []⟩)
      | _ => (server, ⟨i, [], []⟩)
  | .timeout i =>
      match server.slots i with
      | .live client =>
          if client.socket.timer then
            (delete server i { client with socket := client.socket.onTimeout } .timedOut,
              ⟨i, [], []⟩)
          else (server, ⟨i, [], []⟩)
      | _ => (server, ⟨i, [], []⟩)

def step : Machine Server Event Seen := perform

/-- Runs that the source gives a meaning to: no read fills the array, behind whose end the
null character would go, and the allocator lets the buffer grow. -/
def Proper (server : Server) : Event → Prop
  | .ready i ready => ∀ client, server.slots i = .live client → ∀ bytes, ready.input = some bytes →
      bytes.length < 1024 ∧
        (client.writeBuffer.writeChars bytes ready.world).world.heap.Unrefused
  | _ => True

/-- Bytes that a client has been read but has not been sent, or had not when it was deleted. -/
def unsent (server : Server) (i : Nat) : List UInt8 :=
  match server.slots i with
  | .unused => []
  | .live client => client.writeBuffer.unread
  | .gone _ rest => rest

structure Sound (server : Server) : Prop where
  waiting : ∀ i client, server.slots i = .live client → Waiting client
  unused : ∀ i, server.accepted ≤ i → server.slots i = .unused
  finished : ∀ i rest, server.slots i = .gone .finished rest → rest = []

def Held (server after : Server) (i : Nat) : Prop :=
  (after.slots i = server.slots i ∧ after.table = server.table) ∨
    (∃ fd : Nat, server.slots i = .unused ∧ after.slots i = .live (.create fd) ∧
      (fd : Int) ∉ server.table.opened ∧ after.table = server.table.obtain fd) ∨
    ∃ client, server.slots i = .live client ∧
      ((∃ next, after.slots i = .live next ∧ next.socket.fd = client.socket.fd ∧
          after.table = server.table) ∨
        ∃ reason rest, after.slots i = .gone reason rest ∧
          after.table = (client.socket.close server.table).2)

structure Booked (server : Server) (after : Server × Seen) : Prop where
  others : ∀ i, i ≠ after.2.client → after.1.slots i = server.slots i
  balance : after.2.sent ++ unsent after.1 after.2.client =
    unsent server after.2.client ++ after.2.received
  listening : after.1.listening = true ↔ server.listening = true ∧ ¬ Stops after.2.received
  held : Held server after.1 after.2.client
  sound : Sound after.1

theorem idle_booked (server : Server) (i : Nat) (sound : Sound server) :
    Booked server (server, ⟨i, [], []⟩) where
  others _ _ := rfl
  balance := (List.append_nil _).symm
  listening := (and_iff_left not_stops_nil).symm
  held := Or.inl ⟨rfl, rfl⟩
  sound := sound

theorem replace_booked (server after : Server) (i : Nat) (client : Client) (slot : Slot)
    (received sent : List UInt8) (sound : Sound server) (here : server.slots i = .live client)
    (slots : after.slots = Function.update server.slots i slot)
    (accepted : after.accepted = server.accepted)
    (listening : after.listening = true ↔ server.listening = true ∧ ¬ Stops received)
    (balance : sent ++ unsent after i = client.writeBuffer.unread ++ received)
    (held : Held server after i)
    (waiting : ∀ next, slot = .live next → Waiting next)
    (finished : ∀ rest, slot = .gone .finished rest → rest = []) :
    Booked server (after, ⟨i, received, sent⟩) := by
  have old : unsent server i = client.writeBuffer.unread := by rw [unsent, here]
  have there : after.slots i = slot := by rw [slots, Function.update_self]
  have elsewhere : ∀ j, j ≠ i → after.slots j = server.slots j := by
    intro j apart
    rw [slots, Function.update_of_ne apart]
  refine ⟨elsewhere, balance.trans (by rw [old]), listening, held, ?_, ?_, ?_⟩
  · intro j next live
    by_cases same : j = i
    · rw [same, there] at live
      exact waiting next live
    · rw [elsewhere j same] at live
      exact sound.waiting j next live
  · intro j later
    rw [accepted] at later
    have free := sound.unused j later
    have apart : j ≠ i := by
      rintro rfl
      rw [here] at free
      cases free
    rw [elsewhere j apart]
    exact free
  · intro j rest gone
    by_cases same : j = i
    · rw [same, there] at gone
      exact finished rest gone
    · rw [elsewhere j same] at gone
      exact sound.finished j rest gone

theorem accept_booked (server : Server) (fd : Nat) (sound : Sound server) :
    Booked server (step server (.accept fd)) := by
  simp only [step, perform]
  split
  next open_ =>
    have free := sound.unused server.accepted (Nat.le_refl _)
    refine ⟨fun i apart => Function.update_of_ne apart _ _, ?_, ?_, ?_, ?_, ?_, ?_⟩
    · simp only [unsent, Function.update_self, free]
      rfl
    · exact iff_of_true rfl ⟨open_.1, not_stops_nil⟩
    · exact Or.inr (Or.inl ⟨fd, free, Function.update_self .., open_.2, rfl⟩)
    · intro i client live
      change Function.update server.slots server.accepted (.live (.create fd)) i = _ at live
      by_cases same : i = server.accepted
      · rw [same, Function.update_self, Slot.live.injEq] at live
        subst live
        refine ⟨⟨⟨⟨Nat.le_refl _, addressSpace_pos⟩, Nat.le_refl _⟩, rfl, rfl, rfl, rfl,
          iff_of_false Bool.false_ne_true fun filled => filled rfl, ?_⟩, fun _ => rfl⟩
        exact fun closing => absurd closing Bool.false_ne_true
      · rw [Function.update_of_ne same] at live
        exact sound.waiting i client live
    · intro i later
      change Function.update server.slots server.accepted (.live (.create fd)) i = _
      change server.accepted + 1 ≤ i at later
      rw [Function.update_of_ne (by omega)]
      exact sound.unused i (by omega)
    · intro i rest gone
      change Function.update server.slots server.accepted (.live (.create fd)) i = _ at gone
      by_cases same : i = server.accepted
      · rw [same, Function.update_self] at gone
        cases gone
      · rw [Function.update_of_ne same] at gone
        exact sound.finished i rest gone
  next => exact idle_booked server server.accepted sound

theorem close_table (socket other : Socket) (table : Descriptors) (same : socket.fd = other.fd) :
    (socket.close table).2 = (other.close table).2 := by
  simp only [Socket.close, same]
  split <;> rfl

theorem timeout_booked (server : Server) (i : Nat) (sound : Sound server) :
    Booked server (step server (.timeout i)) := by
  simp only [step, perform]
  split
  next client here =>
    split
    · refine replace_booked server _ i client _ [] [] sound here rfl rfl ?_ ?_ ?_ ?_ ?_
      · exact (and_iff_left not_stops_nil).symm
      · simp only [unsent, delete, Function.update_self, List.nil_append, List.append_nil]
      · exact Or.inr (Or.inr ⟨client, here, Or.inr ⟨_, _, Function.update_self ..,
          close_table _ client.socket server.table rfl⟩⟩)
      · exact fun _ live => by cases live
      · exact fun _ gone => by cases gone
    · exact idle_booked server i sound
  next => exact idle_booked server i sound

-- `onIo` of a socket that is not connecting stops the timer, and that is all.
theorem called_of_waiting (client : Client) (table : Descriptors) (waiting : Waiting client) :
    Called { client with socket := (client.socket.onIo none table).1 } ∧
      (client.socket.onIo none table).1.fd = client.socket.fd := by
  have plain : (client.socket.onIo none table).1 = { client.socket with timer := false } := by
    simp [Socket.onIo, waiting.operational]
  rw [plain]
  exact ⟨⟨waiting.valid, waiting.operational, waiting.watched, waiting.limited, waiting.reads,
    waiting.writes, waiting.closing⟩, rfl⟩

theorem ready_booked (server : Server) (i : Nat) (ready : Ready) (sound : Sound server)
    (proper : Proper server (.ready i ready)) :
    Booked server (step server (.ready i ready)) := by
  simp only [step, perform]
  split
  next client here =>
    split
    next awaited =>
      obtain ⟨called, kept⟩ := called_of_waiting client server.table (sound.waiting i client here)
      have echoes := handle_echoes _ (delivered client ready) called awaited.2
        (proper client here)
      generalize Client.handle _ _ = handled at echoes
      have listening : (server.listening && !handled.stops) = true ↔
          server.listening = true ∧ ¬ Stops handled.received := by
        rw [Bool.and_eq_true, Bool.not_eq_true', ← Bool.not_eq_true, echoes.stops]
      cases ended : handled.reason with
      | none =>
          refine replace_booked server _ i client _ _ _ sound here rfl rfl listening ?_ ?_ ?_ ?_
          · simp only [unsent, Function.update_self]
            exact echoes.balance
          · exact Or.inr (Or.inr ⟨client, here, Or.inl ⟨_, Function.update_self ..,
              echoes.fd.trans kept, rfl⟩⟩)
          · rintro next live
            cases live
            exact echoes.waiting ended
          · exact fun _ gone => by cases gone
      | some reason =>
          refine replace_booked server _ i client _ _ _ sound here rfl rfl listening ?_ ?_ ?_ ?_
          · simp only [unsent, delete, Function.update_self]
            exact echoes.balance
          · exact Or.inr (Or.inr ⟨client, here, Or.inr ⟨_, _, Function.update_self ..,
              close_table _ client.socket server.table (echoes.fd.trans kept)⟩⟩)
          · exact fun _ live => by cases live
          · rintro rest gone
            cases gone
            exact echoes.finished ended
    next => exact idle_booked server i sound
  next => exact idle_booked server i sound

theorem step_booked (server : Server) (event : Event) (sound : Sound server)
    (proper : Proper server event) : Booked server (step server event) := by
  cases event with
  | accept fd => exact accept_booked server fd sound
  | ready i ready => exact ready_booked server i ready sound proper
  | timeout i => exact timeout_booked server i sound

theorem start_sound : Sound start :=
  ⟨(fun _ _ live => nomatch live), fun _ _ => rfl, (fun _ _ gone => nomatch gone)⟩

theorem sound_along (events : List Event) (proper : Along step Proper start events) :
    Always step Sound start events :=
  always_of_along step Proper Sound
    (fun server event sound proper => (step_booked server event sound proper).sound) start events
    start_sound proper

def receivedFrom (i : Nat) (observed : List Seen) : List UInt8 :=
  (observed.map fun seen => only seen.client seen.received i).flatten

def sentTo (i : Nat) (observed : List Seen) : List UInt8 :=
  (observed.map fun seen => only seen.client seen.sent i).flatten

/-- However the events of the clients interleave, each client is sent its own bytes in the order
in which they came and nothing else: what was sent to it, followed by what is still to be
sent, is what was received from it. One that leaves by its own request has been sent all. -/
theorem echoes_in_order (events : List Event) (proper : Along step Proper start events) (i : Nat) :
    sentTo i (outputs step start events) ++ unsent (final step start events) i =
        receivedFrom i (outputs step start events) ∧
      ∀ rest, (final step start events).slots i = .gone .finished rest →
        sentTo i (outputs step start events) = receivedFrom i (outputs step start events) := by
  have ledger := conserved join blank step Proper Sound unsent
    (fun seen => only seen.client seen.sent) (fun seen => only seen.client seen.received)
    (fun server event sound proper => (step_booked server event sound proper).sound) ?_
    start events start_sound proper
  · have balance := congrFun ledger i
    simp only [join, total_at] at balance
    change sentTo i _ ++ _ = [] ++ receivedFrom i _ at balance
    refine ⟨balance, fun rest gone => ?_⟩
    have sound := always_final step Sound start events (sound_along events proper)
    have nothing : unsent (final step start events) i = [] := by
      rw [unsent, gone]
      exact sound.finished i rest gone
    rw [nothing, List.append_nil] at balance
    exact balance
  · intro server event sound proper
    have booked := step_booked server event sound proper
    funext i
    simp only [join]
    by_cases same : i = (step server event).2.client
    · rw [same, only_self, only_self]
      exact booked.balance
    · rw [only_other _ i _ same, only_other _ i _ same, List.append_nil, List.nil_append, unsent,
        unsent, booked.others i same]

/-- No client is ever forgotten: each is watched for reading, for writing exactly while there is
something to be sent to it, under a timer while there is not, and one that asked to be closed
still has something to be sent. -/
theorem clients_attended (events : List Event) (proper : Along step Proper start events) :
    Always step (fun server => ∀ i client, server.slots i = .live client →
      client.socket.io = true ∧ client.interest.reads = true ∧
        (client.interest.writes = true ↔ client.writeBuffer.unread ≠ []) ∧
        (client.writeBuffer.unread = [] → client.socket.timer = true) ∧
        (client.close = true → client.writeBuffer.unread ≠ [])) start events := by
  refine always_mono step Sound _ ?_ start events (sound_along events proper)
  intro server sound i client live
  have waiting := sound.waiting i client live
  exact ⟨waiting.watched, waiting.reads, waiting.writes, waiting.timed, waiting.closing⟩

/-- The listener runs until a piece arrives that the comparison with two dots takes for the
command, and no longer. -/
theorem listening_iff (events : List Event) (proper : Along step Proper start events) :
    (final step start events).listening = true ↔
      ∀ seen ∈ outputs step start events, ¬ Stops seen.received := by
  suffices run : ∀ server, Sound server → Along step Proper server events →
      ((final step server events).listening = true ↔
        server.listening = true ∧ ∀ seen ∈ outputs step server events, ¬ Stops seen.received) from
    (run start start_sound proper).trans (and_iff_right rfl)
  clear proper
  induction events with
  | nil =>
      intro server _ _
      exact (and_iff_left (List.forall_mem_nil _)).symm
  | cons event rest ih =>
      intro server sound proper
      have booked := step_booked server event sound proper.1
      rw [final, outputs, List.forall_mem_cons, ih _ booked.sound proper.2, booked.listening,
        and_assoc]

structure Handles (server : Server) : Prop where
  owned : ∀ fd, fd ∈ server.table.opened ↔
    ∃ i client, server.slots i = .live client ∧ client.socket.fd = fd
  apart : ∀ i j client other, server.slots i = .live client → server.slots j = .live other →
    client.socket.fd = other.socket.fd → i = j
  natural : ∀ i client, server.slots i = .live client → 0 ≤ client.socket.fd
  clean : server.table.misclosed = false

section Handles
variable (server after : Server) (i : Nat) (handles : Handles server)
variable (others : ∀ j, j ≠ i → after.slots j = server.slots j)

include handles others

theorem accepted_handles (fd : Nat) (free : server.slots i = .unused)
    (live : after.slots i = .live (.create fd)) (new : (fd : Int) ∉ server.table.opened)
    (table : after.table = server.table.obtain fd) : Handles after := by
  have elsewhere : ∀ j client, after.slots j = .live client →
      (j = i ∧ client.socket.fd = fd) ∨ server.slots j = .live client := by
    intro j client here
    by_cases same : j = i
    · rw [same, live] at here
      cases here
      exact Or.inl ⟨same, rfl⟩
    · exact Or.inr (others j same ▸ here)
  have busy : ∀ j client, server.slots j = .live client → after.slots j = .live client := by
    intro j client here
    rw [others j ?_]
    · exact here
    · rintro rfl
      rw [free] at here
      cases here
  have fresh : ∀ j client, server.slots j = .live client → client.socket.fd ≠ fd :=
    fun j client here same => new ((handles.owned fd).mpr ⟨j, client, here, same⟩)
  refine ⟨?_, ?_, ?_, ?_⟩
  · intro number
    rw [table, Descriptors.obtain, List.mem_cons, handles.owned number]
    constructor
    · rintro (rfl | ⟨j, client, here, same⟩)
      · exact ⟨i, _, live, rfl⟩
      · exact ⟨j, client, busy j client here, same⟩
    · rintro ⟨j, client, here, rfl⟩
      rcases elsewhere j client here with ⟨_, same⟩ | old
      · exact Or.inl same
      · exact Or.inr ⟨j, client, old, rfl⟩
  · intro j k client other here there same
    rcases elsewhere j client here with ⟨rfl, first⟩ | first <;>
      rcases elsewhere k other there with ⟨rfl, second⟩ | second
    · rfl
    · exact absurd (same.symm.trans first) (fresh k other second)
    · exact absurd (same.trans second) (fresh j client first)
    · exact handles.apart j k client other first second same
  · intro j client here
    rcases elsewhere j client here with ⟨_, same⟩ | old
    · rw [same]
      exact Int.natCast_nonneg fd
    · exact handles.natural j client old
  · rw [table]
    exact handles.clean

theorem kept_handles (client next : Client) (before : server.slots i = .live client)
    (live : after.slots i = .live next) (same : next.socket.fd = client.socket.fd)
    (table : after.table = server.table) : Handles after := by
  -- The same clients have the same descriptors.
  have clients : ∀ j fd, (∃ client, after.slots j = .live client ∧ client.socket.fd = fd) ↔
      ∃ client, server.slots j = .live client ∧ client.socket.fd = fd := by
    intro j fd
    by_cases here : j = i
    · subst here
      rw [live, before]
      simp only [Slot.live.injEq, exists_eq_left', same]
    · rw [others j here]
  refine ⟨?_, ?_, ?_, by rw [table]; exact handles.clean⟩
  · intro fd
    rw [table, handles.owned fd]
    exact exists_congr fun j => (clients j fd).symm
  · intro j k first second here there equal
    obtain ⟨one, at_j, fd_j⟩ := (clients j _).mp ⟨first, here, rfl⟩
    obtain ⟨two, at_k, fd_k⟩ := (clients k _).mp ⟨second, there, rfl⟩
    exact handles.apart j k one two at_j at_k (by rw [fd_j, fd_k, equal])
  · intro j first here
    obtain ⟨one, at_j, fd_j⟩ := (clients j _).mp ⟨first, here, rfl⟩
    exact fd_j ▸ handles.natural j one at_j

theorem deleted_handles (client : Client) (before : server.slots i = .live client)
    (reason : Reason) (rest : List UInt8) (gone : after.slots i = .gone reason rest)
    (table : after.table = (client.socket.close server.table).2) : Handles after := by
  have natural := handles.natural i client before
  have closed : after.table = server.table.close client.socket.fd := by
    rw [table, Socket.close, if_pos natural]
  have left : ∀ j other, after.slots j = .live other ↔ server.slots j = .live other ∧ j ≠ i := by
    intro j other
    by_cases same : j = i
    · rw [same, gone]
      exact iff_of_false (fun live => by cases live) fun both => both.2 rfl
    · rw [others j same]
      exact (and_iff_left same).symm
  refine ⟨?_, ?_, ?_, ?_⟩
  · intro fd
    rw [closed, SocketLife.mem_close, handles.owned fd]
    constructor
    · rintro ⟨⟨j, other, here, rfl⟩, apart⟩
      refine ⟨j, other, (left j other).mpr ⟨here, ?_⟩, rfl⟩
      rintro rfl
      rw [before, Slot.live.injEq] at here
      exact apart (by rw [here])
    · rintro ⟨j, other, here, rfl⟩
      obtain ⟨old, apart⟩ := (left j other).mp here
      exact ⟨⟨j, other, old, rfl⟩, fun same =>
        apart (handles.apart j i other client old before same)⟩
  · intro j k first second here there same
    exact handles.apart j k first second ((left j first).mp here).1
      ((left k second).mp there).1 same
  · exact fun j other here => handles.natural j other ((left j other).mp here).1
  · rw [closed, SocketLife.close_clean]
    exact ⟨handles.clean, (handles.owned _).mpr ⟨i, client, before, rfl⟩⟩

end Handles

theorem step_handles (server : Server) (event : Event) (sound : Sound server)
    (handles : Handles server) (proper : Proper server event) :
    Handles (step server event).1 := by
  have booked := step_booked server event sound proper
  rcases booked.held with ⟨slot, table⟩ | ⟨fd, free, live, new, table⟩ | ⟨client, before, way⟩
  · have slots : (step server event).1.slots = server.slots := by
      funext j
      by_cases same : j = (step server event).2.client
      · rw [same, slot]
      · exact booked.others j same
    refine ⟨?_, ?_, ?_, by rw [table]; exact handles.clean⟩
    · rw [slots, table]
      exact handles.owned
    · rw [slots]
      exact handles.apart
    · rw [slots]
      exact handles.natural
  · exact accepted_handles server _ _ handles booked.others fd free live new table
  · rcases way with ⟨next, live, same, table⟩ | ⟨reason, rest, gone, table⟩
    · exact kept_handles server _ _ handles booked.others client next before live same table
    · exact deleted_handles server _ _ handles booked.others client before reason rest gone table

/-- The connections that are open are those of the clients that are alive: none leaks, and none
is closed twice or under another client. -/
theorem connections_owned (events : List Event) (proper : Along step Proper start events) :
    Always step (fun server => server.table.misclosed = false ∧
      ∀ fd, fd ∈ server.table.opened ↔
        ∃ i client, server.slots i = .live client ∧ client.socket.fd = fd) start events := by
  refine always_mono step (fun server => Sound server ∧ Handles server) _
    (fun server held => ⟨held.2.clean, held.2.owned⟩) start events ?_
  refine always_of_along step Proper _ ?_ start events ⟨start_sound, ?_, ?_, ?_, rfl⟩ proper
  · rintro server event ⟨sound, handles⟩ proper
    exact ⟨(step_booked server event sound proper).sound,
      step_handles server event sound handles proper⟩
  · exact fun fd => iff_of_false (fun member => nomatch member)
      (fun ⟨_, _, live, _⟩ => nomatch live)
  · exact fun _ _ _ _ live => nomatch live
  · exact fun _ _ live => nomatch live

def greeting : List Event :=
  [.accept 5, .ready 0 ⟨true, false, some [104, 105, 10], none, ⟨.generous, .willing⟩⟩,
    .ready 0 ⟨false, true, none, some 2, ⟨.generous, .willing⟩⟩,
    .ready 0 ⟨false, true, none, some 1, ⟨.generous, .willing⟩⟩]

theorem greeting_proper : Along step Proper start greeting := by
  refine ⟨trivial, ?_, ?_, ?_, trivial⟩
  · intro client live bytes input
    cases input
    cases live
    exact ⟨by decide, by decide⟩
  · exact fun _ _ _ input => nomatch input
  · exact fun _ _ _ input => nomatch input

theorem echoes_in_order_greeting :
    sentTo 0 (outputs step start greeting) ++ unsent (final step start greeting) 0 =
      receivedFrom 0 (outputs step start greeting) :=
  (echoes_in_order greeting greeting_proper 0).1

theorem clients_attended_greeting :
    Always step (fun server => ∀ i client, server.slots i = .live client →
      client.socket.io = true ∧ client.interest.reads = true ∧
        (client.interest.writes = true ↔ client.writeBuffer.unread ≠ []) ∧
        (client.writeBuffer.unread = [] → client.socket.timer = true) ∧
        (client.close = true → client.writeBuffer.unread ≠ [])) start greeting :=
  clients_attended greeting greeting_proper

theorem listening_iff_greeting :
    (outputs step start greeting).map (·.received) = [[], [104, 105, 10], [], []] ∧
      ∀ seen ∈ outputs step start greeting, ¬ Stops seen.received :=
  ⟨by decide, (listening_iff greeting greeting_proper).mp (by decide)⟩

theorem connections_owned_greeting :
    Always step (fun server => server.table.misclosed = false ∧
      ∀ fd, fd ∈ server.table.opened ↔
        ∃ i client, server.slots i = .live client ∧ client.socket.fd = fd) start greeting :=
  connections_owned greeting greeting_proper

end Xio.EchoServer
