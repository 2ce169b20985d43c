import Xio.AcceptLoop

/-!
What one readiness event of a listening socket can lead to: how many callbacks and in which order,
how long a connection waits for its own, and whether the process returns to its event loop.
-/

namespace Xio.AcceptLoop

open Runs

/-- What can follow the clients of one event: nothing, a null pointer, or a client that was closed
again, with or without a null pointer after it. -/
def Ending (last : List Served) : Prop :=
  last = [] ∨ last = [.reported] ∨
    ∃ connection fd, last = [.dropped connection fd] ∨ last = [.dropped connection fd, .reported]

def Event.isReady : Event → Bool
  | .ready _ => true
  | _ => false

-- The turns of the loop that an event starts, or of the one that still waits.
def Event.turns (setting : Setting) (station : Station) : Event → Nat
  | .ready _ => if station.waiting = 0 then station.limit setting else station.waiting
  | _ => station.waiting

/-- Clients first, then what ended the loop, with `left` of the turns not yet made. -/
def Batch (turns : Nat) (served : List Served) (left : Nat) : Prop :=
  ∃ (clients : List (Connection × Nat)) (last : List Served),
    served = clients.map (fun client => .delivered client.1 client.2) ++ last ∧ Ending last ∧
      (last = [] ∨ left = 0) ∧ clients.length + min last.length 1 + left ≤ turns

theorem batch_nil {turns left : Nat} (bounded : left ≤ turns) : Batch turns [] left := by
  refine ⟨[], [], rfl, Or.inl rfl, Or.inl rfl, ?_⟩
  rw [List.length_nil, List.length_nil]
  omega

theorem batch_ending (turns : Nat) (last : List Served) (ending : Ending last) :
    Batch (turns + 1) last 0 := by
  refine ⟨[], last, rfl, ending, Or.inr rfl, ?_⟩
  rw [List.length_nil]
  omega

theorem batch_cons (turns connection fd : Nat) (served : List Served) (left : Nat)
    (batch : Batch turns served left) :
    Batch (turns + 1) (.delivered connection fd :: served) left := by
  obtain ⟨clients, last, rfl, ending, ended, bounded⟩ := batch
  refine ⟨(connection, fd) :: clients, last, rfl, ending, ended, ?_⟩
  rw [List.length_cons]
  omega

theorem Batch.append {turns between left : Nat} {first second : List Served}
    (before : Batch turns first between) (after : Batch between second left) :
    Batch turns (first ++ second) left := by
  obtain ⟨clients, last, rfl, ending, paused, bounded⟩ := before
  obtain ⟨later, final, rfl, closing, ended, rest⟩ := after
  rcases paused with rfl | rfl
  · refine ⟨clients ++ later, final, ?_, closing, ended, ?_⟩
    · rw [List.append_nil, List.map_append, List.append_assoc]
    · rw [List.length_nil] at bounded
      rw [List.length_append]
      omega
  · -- The first part was the end of its loop: nothing can follow.
    obtain rfl : later = [] := List.eq_nil_of_length_eq_zero (by omega)
    obtain rfl : final = [] := List.eq_nil_of_length_eq_zero (by omega)
    obtain rfl : left = 0 := by omega
    refine ⟨clients, last, ?_, ending, Or.inr rfl, bounded⟩
    rw [List.map_nil, List.append_nil, List.append_nil]

theorem report_ending (station : Station) (errno : Errno) (reactions : List Reaction) :
    (station.report errno reactions).2 = [] ∨ (station.report errno reactions).2 = [.reported] := by
  unfold Station.report
  split
  · exact Or.inl rfl
  · exact Or.inr rfl

theorem turn_ending {setting : Setting} {attempt : Attempt} {station : Station}
    {result : Handled × Station × List Served} (turn : Turn setting attempt station result)
    (ended : result.1 = .enough) : Ending result.2.2 := by
  cases turn with
  | waits => cases ended
  | refused errno =>
      rcases report_ending station errno attempt.reactions with none | reported
      · exact Or.inl none
      · exact Or.inr (Or.inl reported)
  | delivered => cases ended
  | dropped connection rest queued plain flagged failed reported equal =>
      refine Or.inr (Or.inr ⟨connection, attempt.fd, ?_⟩)
      rw [equal]
      rcases report_ending _ attempt.errno attempt.reactions with none | null
      · exact Or.inl (by rw [none])
      · exact Or.inr (by rw [null])

theorem acceptLoop_batch (setting : Setting) (attempts : Nat → Attempt) (left : Nat)
    (station : Station) :
    Batch left (station.acceptLoop setting attempts left).2
      (station.acceptLoop setting attempts left).1.waiting := by
  refine acceptLoop_rule setting attempts
    (fun left _ result => Batch left result.2 result.1.waiting)
    (fun _ => batch_nil (Nat.le_refl 0)) (fun left _ _ => batch_nil (Nat.zero_le _)) ?_ ?_ ?_
    left station
  · intro left station after served _ _ turn
    cases turn
    exact batch_nil (Nat.le_refl (left + 1))
  · intro left station after served _ _ turn
    exact batch_ending left served (turn_ending turn rfl)
  · intro left station after served rest _ _ turn tail
    cases turn
    exact batch_cons left _ _ _ _ tail

theorem step_batch (setting : Setting) (station : Station) (event : Event) :
    Batch (event.turns setting station) (step setting station event).2.served
      (step setting station event).1.waiting := by
  cases event with
  | connect connection attempts =>
      rw [step]
      split
      · exact batch_nil (Nat.le_refl _)
      · exact acceptLoop_batch setting attempts _ _
  | ready attempts =>
      rw [step, Event.turns]
      by_cases returned : station.waiting = 0
      · rw [if_pos returned]
        split
        · exact acceptLoop_batch setting attempts _ _
        · exact batch_nil (returned.trans_le (Nat.zero_le _))
      · rw [if_neg returned, if_neg fun effective => returned effective.1]
        exact batch_nil (Nat.le_refl _)
  | signal => exact batch_nil (Nat.zero_le _)
  | react reaction =>
      rw [step]
      split
      · exact batch_nil (Nat.le_of_eq (reactAll_calm station [reaction]).waiting)
      · exact batch_nil (Nat.le_refl _)

theorem run_batch (setting : Setting) (station : Station) (events : List Event)
    (later : ∀ next ∈ events, next.isReady = false) :
    Batch station.waiting (total (· ++ ·) [] Seen.served (outputs (step setting) station events))
      (final (step setting) station events).waiting := by
  induction events generalizing station with
  | nil => exact batch_nil (Nat.le_refl _)
  | cons event rest ih =>
      rw [List.forall_mem_cons] at later
      have here : Batch station.waiting (step setting station event).2.served
          (step setting station event).1.waiting := by
        have batch := step_batch setting station event
        cases event with
        | ready attempts => cases later.1
        | connect connection attempts => exact batch
        | signal => exact batch
        | react reaction => exact batch
      exact here.append (ih _ later.2)

def attended : Station where
  server := ⟨3, 0, SOCK_NONBLOCK⟩
  multiAcceptCount := 1
  active := true
  queue := [10, 11]
  files := fun _ => ⟨true, false⟩
  table := ⟨[3], false⟩
  waiting := 0
  aborted := false
  released := []

def granting (first k : Nat) : Attempt := ⟨none, first + k, true, .EBADF, []⟩

/-- One readiness event leads to at most as many callbacks as its loop has turns, also where the
loop waits inside `::accept` and goes on with later connections, and to at most one with a null
pointer, which is the last. The callbacks may stop or close the server or change the number of
turns. -/
theorem callbacks_bounded (setting : Setting) (station : Station) (event : Event)
    (rest : List Event) (later : ∀ next ∈ rest, next.isReady = false) :
    Batch (event.turns setting station)
      (total (· ++ ·) [] Seen.served (outputs (step setting) station (event :: rest)))
      (final (step setting) station (event :: rest)).waiting :=
  (step_batch setting station event).append (run_batch setting _ rest later)

theorem callbacks_bounded_patient :
    total (· ++ ·) [] Seen.served (outputs (step ⟨true, true, true⟩)
        { attended with multiAcceptCount := 4, files := fun _ => ⟨false, false⟩ }
        [.ready (granting 4), .connect 12 (granting 8)]) =
      [.delivered 10 7, .delivered 11 6, .delivered 12 9] ∧
    Batch 4 [.delivered 10 7, .delivered 11 6, .delivered 12 9] 1 :=
  ⟨by decide, callbacks_bounded ⟨true, true, true⟩
    { attended with multiAcceptCount := 4, files := fun _ => ⟨false, false⟩ }
    (.ready (granting 4)) [.connect 12 (granting 8)] (fun next member => by
      cases List.mem_singleton.mp member
      rfl)⟩

/-! Loops that nothing disturbs. -/

/-- The kernel hands out the waiting connections, and the callback leaves the server alone. -/
structure Smooth (home : Int) (attempt : Attempt) : Prop where
  unrefused : attempt.refusal = none
  flagged : attempt.setfl = true
  untouched : attempt.reactions = []
  apart : (attempt.fd : Int) ≠ home

structure Steady (before after : Station) : Prop where
  server : after.server = before.server
  count : after.multiAcceptCount = before.multiAcceptCount
  active : after.active = before.active
  aborted : after.aborted = before.aborted
  status : after.files before.server.fd = before.files before.server.fd

theorem Steady.trans {before between after : Station} (first : Steady before between)
    (second : Steady between after) : Steady before after where
  server := second.server.trans first.server
  count := second.count.trans first.count
  active := second.active.trans first.active
  aborted := second.aborted.trans first.aborted
  status := by rw [← first.status, ← first.server, second.status]

def delivered (served : List Served) : List Connection :=
  served.filterMap fun one => match one with
    | .delivered connection _ => some connection
    | _ => none

def Seen.delivered (seen : Seen) : List Connection := AcceptLoop.delivered seen.served

def Station.stuck (station : Station) (turns : Nat) : Nat :=
  if (station.files station.server.fd).nonblock then 0 else turns - station.queue.length

theorem turn_enough {setting : Setting} {attempt : Attempt} {station : Station}
    {result : Handled × Station × List Served} (turn : Turn setting attempt station result)
    (ended : result.1 = .enough) (unrefused : attempt.refusal = none)
    (flagged : attempt.setfl = true) (listening : 0 ≤ station.server.fd) :
    result = (.enough, station, []) ∧ station.queue = [] ∧
      (station.files station.server.fd).nonblock = true := by
  cases turn with
  | waits => cases ended
  | delivered => cases ended
  | dropped connection rest queued plain masked failed =>
      rw [flagged] at failed
      cases failed
  | refused errno reason =>
      rcases reason with closed | refused | ⟨rfl, idle, nonblock⟩
      · omega
      · rw [unrefused] at refused
        cases refused
      · exact ⟨rfl, idle, nonblock⟩

theorem acceptLoop_smooth (setting : Setting) (attempts : Nat → Attempt) (left : Nat)
    (station : Station) (smooth : ∀ k, Smooth station.server.fd (attempts k))
    (listening : 0 ≤ station.server.fd) (running : station.aborted = false) :
    delivered (station.acceptLoop setting attempts left).2 = station.queue.take left ∧
      (station.acceptLoop setting attempts left).1.queue = station.queue.drop left ∧
      Steady station (station.acceptLoop setting attempts left).1 ∧
      (station.acceptLoop setting attempts left).1.waiting = station.stuck left := by
  revert smooth listening running
  refine acceptLoop_rule setting attempts
    (fun left station result => (∀ k, Smooth station.server.fd (attempts k)) →
      0 ≤ station.server.fd → station.aborted = false →
      delivered result.2 = station.queue.take left ∧ result.1.queue = station.queue.drop left ∧
        Steady station result.1 ∧ result.1.waiting = station.stuck left) ?_ ?_ ?_ ?_ ?_ left station
  · intro station _ _ _
    refine ⟨List.take_zero.symm, List.drop_zero.symm, ⟨rfl, rfl, rfl, rfl, rfl⟩, ?_⟩
    simp [Station.stuck]
  · intro left station ended _ _ running
    rw [running] at ended
    cases ended
  · intro left station after served _ _ turn _ _ _
    cases turn with
    | waits _ blocking _ idle =>
        refine ⟨by rw [idle]; rfl, by rw [idle]; rfl, ⟨rfl, rfl, rfl, rfl, rfl⟩, ?_⟩
        simp [Station.stuck, blocking, idle]
  · intro left station after served _ _ turn smooth listening _
    obtain ⟨same, idle, nonblock⟩ := turn_enough turn rfl (smooth left).unrefused
      (smooth left).flagged listening
    cases same
    refine ⟨by rw [idle]; rfl, by rw [idle]; rfl, ⟨rfl, rfl, rfl, rfl, rfl⟩, ?_⟩
    simp [Station.stuck, nonblock]
  · intro left station after served rest _ _ turn tail smooth listening running
    cases turn with
    | delivered connection waiting files queued others =>
        rw [(smooth left).untouched] at tail
        obtain ⟨served, queue, steady, stuck⟩ := tail smooth listening running
        have status := others station.server.fd (smooth left).apart.symm
        have passed : Steady station { station with
            queue := waiting
            table := station.table.obtain (attempts left).fd
            files := files } := ⟨rfl, rfl, rfl, rfl, status⟩
        refine ⟨?_, ?_, passed.trans steady, ?_⟩
        · change connection :: delivered rest.2 = _
          rw [served, queued]
          rfl
        · rw [queue, queued]
          rfl
        · rw [stuck, Station.stuck, Station.stuck, queued, List.length_cons, Nat.add_sub_add_right]
          change (if (files station.server.fd).nonblock = true then 0
            else left - waiting.length) = _
          rw [status]

/-! Bounded waiting. -/

structure Attentive (station : Station) : Prop where
  listening : 0 ≤ station.server.fd
  active : station.active = true
  running : station.aborted = false
  returned : station.waiting = 0
  nonblock : (station.files station.server.fd).nonblock = true

/-- Only the arrival of connections, their service and the end of clients. -/
def Undisturbed (station : Station) : Event → Prop
  | .connect _ _ | .signal | .react (.release _) => True
  | .ready attempts => ∀ k, Smooth station.server.fd (attempts k)
  | .react _ => False

theorem step_release (setting : Setting) (station : Station) (fd : Nat)
    (attentive : Attentive station) :
    step setting station (.react (.release fd)) = (station.react (.release fd), ⟨[], []⟩) := by
  rw [step, if_pos attentive.returned, reactAll_cons, attentive.running]
  rfl

theorem step_undisturbed (setting : Setting) (station : Station) (event : Event)
    (attentive : Attentive station) (undisturbed : Undisturbed station event) :
    Attentive (step setting station event).1 ∧
      (step setting station event).1.limit setting = station.limit setting := by
  cases event with
  | connect connection attempts =>
      rw [step, if_pos attentive.returned]
      exact ⟨⟨attentive.listening, attentive.active, attentive.running, attentive.returned,
        attentive.nonblock⟩, rfl⟩
  | ready attempts =>
      rw [step, if_pos ⟨attentive.returned, attentive.active, attentive.running⟩]
      obtain ⟨_, _, steady, stuck⟩ := acceptLoop_smooth setting attempts (station.limit setting)
        station undisturbed attentive.listening attentive.running
      change Attentive (station.acceptLoop setting attempts (station.limit setting)).1 ∧
        (station.acceptLoop setting attempts (station.limit setting)).1.limit setting = _
      refine ⟨⟨?_, ?_, ?_, ?_, ?_⟩, ?_⟩
      · rw [steady.server]
        exact attentive.listening
      · rw [steady.active]
        exact attentive.active
      · rw [steady.aborted]
        exact attentive.running
      · rw [stuck, Station.stuck, if_pos attentive.nonblock]
      · rw [steady.server, steady.status]
        exact attentive.nonblock
      · rw [Station.limit, steady.count]
        rfl
  | signal =>
      exact ⟨⟨attentive.listening, attentive.active, attentive.running, rfl, attentive.nonblock⟩,
        rfl⟩
  | react reaction =>
      cases reaction with
      | release fd =>
          rw [step_release setting station fd attentive]
          exact ⟨⟨attentive.listening, attentive.active, attentive.running, attentive.returned,
            attentive.nonblock⟩, rfl⟩
      | _ => exact absurd undisturbed id

/-- Whoever else arrives in the meantime: with each readiness event the oldest `limit` of the
waiting connections reach the callback, so that a connection with `k` others in front of it has
been served after `k / limit + 1` of them. -/
theorem bounded_waiting (setting : Setting) (station : Station) (events : List Event)
    (attentive : Attentive station)
    (undisturbed : Along (step setting) Undisturbed station events) :
    station.queue.take (events.countP Event.isReady * station.limit setting) <+:
      total (· ++ ·) [] Seen.delivered (outputs (step setting) station events) := by
  induction events generalizing station with
  | nil =>
      rw [List.countP_nil, Nat.zero_mul, List.take_zero]
      exact List.nil_prefix
  | cons event rest ih =>
      obtain ⟨here, later⟩ := undisturbed
      obtain ⟨after, same⟩ := step_undisturbed setting station event attentive here
      have tail := ih _ after later
      rw [same] at tail
      have cons : total (· ++ ·) [] Seen.delivered
            (outputs (step setting) station (event :: rest)) =
          (step setting station event).2.delivered ++
            total (· ++ ·) [] Seen.delivered
              (outputs (step setting) (step setting station event).1 rest) :=
        rfl
      rw [cons]
      cases event with
      | connect connection attempts =>
          rw [step, if_pos attentive.returned] at tail ⊢
          exact ((List.prefix_append station.queue [connection]).take _).trans tail
      | ready attempts =>
          obtain ⟨served, queue, _, _⟩ := acceptLoop_smooth setting attempts (station.limit setting)
            station here attentive.listening attentive.running
          have count : (Event.ready attempts :: rest).countP Event.isReady * station.limit setting =
              station.limit setting + rest.countP Event.isReady * station.limit setting := by
            rw [List.countP_cons_of_pos rfl, Nat.add_mul, Nat.one_mul, Nat.add_comm]
          rw [step, if_pos ⟨attentive.returned, attentive.active, attentive.running⟩] at tail ⊢
          change _ <+: delivered
            (station.acceptLoop setting attempts (station.limit setting)).2 ++ _
          change (station.acceptLoop setting attempts (station.limit setting)).1.queue.take _ <+: _
            at tail
          rw [queue] at tail
          rw [count, List.take_add, served, List.prefix_append_right_inj]
          exact tail
      | signal => exact tail
      | react reaction =>
          cases reaction with
          | release fd =>
              rw [step_release setting station fd attentive] at tail ⊢
              exact tail
          | _ => exact absurd here id

theorem bounded_waiting_attended :
    Attentive attended ∧
      attended.queue.take ([Event.ready (granting 4), .ready (granting 5)].countP Event.isReady *
          attended.limit ⟨true, true, true⟩) <+:
        total (· ++ ·) [] Seen.delivered (outputs (step ⟨true, true, true⟩) attended
          [.ready (granting 4), .ready (granting 5)]) := by
  have attentive : Attentive attended := ⟨by decide, rfl, rfl, rfl, rfl⟩
  have smooth : ∀ first, 4 ≤ first → ∀ k, Smooth 3 (granting first k) := by
    intro first above k
    refine ⟨rfl, rfl, rfl, ?_⟩
    change ((first + k : Nat) : Int) ≠ 3
    omega
  exact ⟨attentive, bounded_waiting ⟨true, true, true⟩ attended _ attentive
    ⟨smooth 4 (by decide), smooth 5 (by decide), trivial⟩⟩

/-! Loops that do not return. -/

def KeepsMode (attempt : Attempt) : Prop := ∀ ok, .setNonBlocking false ok ∉ attempt.reactions

theorem setNonBlocking_self (files : Files) (fd : Int) (enable : Bool) :
    (setNonBlocking files fd enable fd).nonblock = enable := by
  rw [setNonBlocking, Function.update_self]

theorem setNonBlocking_others (files : Files) {fd other : Int} (apart : other ≠ fd)
    (enable : Bool) : (setNonBlocking files fd enable other).nonblock = (files other).nonblock := by
  rw [setNonBlocking, Function.update_of_ne apart]

theorem react_nonblock (home : Int) (station : Station) (reaction : Reaction)
    (kept : ∀ ok, reaction ≠ .setNonBlocking false ok)
    (nonblock : (station.files home).nonblock = true) :
    ((station.react reaction).files home).nonblock = true := by
  cases reaction with
  | start =>
      rw [Station.react]
      split
      · exact nonblock
      · exact nonblock
  | stop => exact nonblock
  | close =>
      rw [Station.react]
      split
      · exact nonblock
      · exact nonblock
  | setMultiAcceptCount value => exact nonblock
  | setNonBlocking enable ok =>
      cases enable with
      | false => exact absurd rfl (kept ok)
      | true =>
          rw [Station.react]
          split
          · by_cases here : home = station.server.fd
            · subst here
              exact setNonBlocking_self ..
            · exact (setNonBlocking_others station.files here true).trans nonblock
          · exact nonblock
  | release fd => exact nonblock

theorem reactAll_nonblock (home : Int) (station : Station) (reactions : List Reaction)
    (kept : ∀ ok, .setNonBlocking false ok ∉ reactions)
    (nonblock : (station.files home).nonblock = true) :
    ((station.reactAll reactions).files home).nonblock = true := by
  induction reactions generalizing station with
  | nil => exact nonblock
  | cons reaction rest ih =>
      have later : ∀ ok, .setNonBlocking false ok ∉ rest := fun ok member =>
        kept ok (List.mem_cons_of_mem _ member)
      rw [reactAll_cons]
      split
      · exact ih station later nonblock
      · refine ih _ later (react_nonblock home station reaction ?_ nonblock)
        rintro ok rfl
        exact kept ok List.mem_cons_self

theorem acceptLoop_returns_nonblock (setting : Setting) (attempts : Nat → Attempt) (home : Int)
    (left : Nat) (station : Station)
    (sparing : ∀ k, ((attempts k).fd : Int) ≠ home ∧ KeepsMode (attempts k))
    (place : station.server.fd = home ∨ station.server.fd = -1)
    (nonblock : (station.files home).nonblock = true) :
    (station.acceptLoop setting attempts left).1.waiting = 0 := by
  revert place nonblock
  refine acceptLoop_rule setting attempts
    (fun _ station result => (station.server.fd = home ∨ station.server.fd = -1) →
      (station.files home).nonblock = true → result.1.waiting = 0)
    (fun _ _ _ => rfl) (fun _ _ _ _ _ => rfl) ?_ (fun _ _ _ _ _ _ _ _ _ => rfl) ?_ left station
  · intro left station after served _ _ turn place nonblock
    cases turn with
    | waits listening blocking =>
        rcases place with same | closed
        · rw [same, nonblock] at blocking
          cases blocking
        · omega
  · intro left station after served rest _ _ turn tail place nonblock
    cases turn with
    | delivered connection waiting files queued others =>
        refine tail ?_ (reactAll_nonblock home _ _ (sparing left).2 ?_)
        · rcases (reactAll_calm { station with
              queue := waiting
              table := station.table.obtain (attempts left).fd
              files := files } (attempts left).reactions).place with same | closed
          · rw [same]
            exact place
          · exact Or.inr closed
        · change (files home).nonblock = true
          rw [others home (sparing left).1.symm]
          exact nonblock

theorem acceptLoop_returns_queue (setting : Setting) (attempts : Nat → Attempt) (left : Nat)
    (station : Station) (enough : left ≤ station.queue.length) :
    (station.acceptLoop setting attempts left).1.waiting = 0 := by
  revert enough
  refine acceptLoop_rule setting attempts
    (fun left station result => left ≤ station.queue.length → result.1.waiting = 0)
    (fun _ _ => rfl) (fun _ _ _ _ => rfl) ?_ (fun _ _ _ _ _ _ _ _ => rfl) ?_ left station
  · intro left station after served _ _ turn enough
    cases turn with
    | waits _ _ _ idle =>
        rw [idle] at enough
        exact absurd enough (Nat.not_succ_le_zero left)
  · intro left station after served rest _ _ turn tail enough
    cases turn with
    | delivered connection waiting files queued =>
        refine tail ?_
        rw [(reactAll_calm _ _).queue]
        rw [queued, List.length_cons] at enough
        exact Nat.le_of_succ_le_succ enough

theorem acceptLoop_returns_idle (setting : Setting) (attempts : Nat → Attempt) (left : Nat)
    (station : Station) (nonblock : (station.files station.server.fd).nonblock = true)
    (idle : station.queue = []) : (station.acceptLoop setting attempts left).1.waiting = 0 := by
  revert nonblock idle
  refine acceptLoop_rule setting attempts
    (fun _ station result => (station.files station.server.fd).nonblock = true →
      station.queue = [] → result.1.waiting = 0)
    (fun _ _ _ => rfl) (fun _ _ _ _ _ => rfl) ?_ (fun _ _ _ _ _ _ _ _ _ => rfl) ?_ left station
  · intro left station after served _ _ turn nonblock _
    cases turn with
    | waits _ blocking =>
        rw [nonblock] at blocking
        cases blocking
  · intro left station after served rest _ _ turn _ _ idle
    cases turn with
    | delivered connection waiting files queued =>
        rw [idle] at queued
        cases queued

def hindering (first k : Nat) : Attempt :=
  { granting first k with reactions := [.setNonBlocking false true] }

theorem acceptLoop_hangs (setting : Setting) (first left : Nat) (station : Station)
    (listening : 0 ≤ station.server.fd) (running : station.aborted = false)
    (blocks : (station.files station.server.fd).nonblock = false ∨ station.queue ≠ [])
    (few : station.queue.length < left) :
    (station.acceptLoop setting (hindering first) left).1.waiting ≠ 0 := by
  revert listening running blocks few
  refine acceptLoop_rule setting (hindering first)
    (fun left station result => 0 ≤ station.server.fd → station.aborted = false →
      ((station.files station.server.fd).nonblock = false ∨ station.queue ≠ []) →
      station.queue.length < left → result.1.waiting ≠ 0) ?_ ?_ ?_ ?_ ?_ left station
  · intro station _ _ _ few
    exact absurd few (Nat.not_lt_zero _)
  · intro left station ended _ running
    rw [running] at ended
    cases ended
  · intro left station after served _ _ _ _ _ _ _
    exact Nat.succ_ne_zero left
  · intro left station after served _ _ turn listening _ blocks _
    obtain ⟨_, idle, nonblock⟩ := turn_enough turn rfl rfl rfl listening
    rw [nonblock, idle] at blocks
    simp at blocks
  · intro left station after served rest running _ turn tail listening _ _ few
    cases turn with
    | delivered connection waiting files queued =>
        rw [queued, List.length_cons] at few
        have changed : { station with
            queue := waiting
            table := station.table.obtain (hindering first left).fd
            files := files }.reactAll (hindering first left).reactions =
            { station with
              queue := waiting
              table := station.table.obtain (hindering first left).fd
              files := setNonBlocking files station.server.fd false } := by
          change (if station.aborted = true then _ else _) = _
          rw [running, if_neg Bool.false_ne_true]
          exact if_pos ⟨listening, rfl⟩
        rw [changed] at tail
        exact tail listening running (Or.inl (setNonBlocking_self files _ false))
          (Nat.lt_of_succ_lt_succ few)

section Returns
variable (setting : Setting) (station : Station)
variable (listening : 0 ≤ station.server.fd) (running : station.aborted = false)

-- Numbers that are not the listener's.
theorem number_apart (fd : Int) (k : Nat) : ((fd.toNat + 1 + k : Nat) : Int) ≠ fd := by
  omega

include listening running

theorem returns_sparing_iff :
    (∀ attempts : Nat → Attempt,
        (∀ k, ((attempts k).fd : Int) ≠ station.server.fd ∧ KeepsMode (attempts k)) →
          (station.accept setting attempts).1.waiting = 0) ↔
      (station.files station.server.fd).nonblock = true ∨
        station.limit setting ≤ station.queue.length := by
  have apart := number_apart station.server.fd
  constructor
  · intro returns
    by_cases nonblock : (station.files station.server.fd).nonblock = true
    · exact Or.inl nonblock
    · have smooth := acceptLoop_smooth setting (granting (station.server.fd.toNat + 1))
        (station.limit setting) station (fun k => ⟨rfl, rfl, rfl, apart k⟩) listening running
      have stuck := smooth.2.2.2.symm.trans
        (returns _ fun k => ⟨apart k, fun _ => List.not_mem_nil⟩)
      rw [Station.stuck, if_neg nonblock] at stuck
      exact Or.inr (Nat.le_of_sub_eq_zero stuck)
  · rintro (nonblock | enough) attempts sparing
    · exact acceptLoop_returns_nonblock setting attempts station.server.fd _ station sparing
        (Or.inl rfl) nonblock
    · exact acceptLoop_returns_queue setting attempts _ station enough

theorem returns_always_iff :
    (∀ attempts : Nat → Attempt, (∀ k, ((attempts k).fd : Int) ≠ station.server.fd) →
        (station.accept setting attempts).1.waiting = 0) ↔
      station.limit setting ≤ station.queue.length ∨
        (station.files station.server.fd).nonblock = true ∧ station.queue = [] := by
  constructor
  · intro returns
    by_contra hung
    obtain ⟨few, busy⟩ := not_or.mp hung
    refine acceptLoop_hangs setting (station.server.fd.toNat + 1) (station.limit setting) station
      listening running ?_ (Nat.lt_of_not_le few) (returns _ (number_apart station.server.fd))
    by_cases nonblock : (station.files station.server.fd).nonblock = true
    · exact Or.inr fun idle => busy ⟨nonblock, idle⟩
    · exact Or.inl (Bool.eq_false_iff.mpr nonblock)
  · rintro (enough | ⟨nonblock, idle⟩) attempts _
    · exact acceptLoop_returns_queue setting attempts _ station enough
    · exact acceptLoop_returns_idle setting attempts _ station nonblock idle

end Returns

/-- Where no callback makes the listener a blocking one, a readiness event can leave the process
inside `::accept`, away from its event loop, exactly if the listener blocks and fewer connections
wait than the loop has turns. Where the callbacks may do so, a non-blocking listener is no help
once the first connection has been served. -/
theorem accept_returns_iff (setting : Setting) (station : Station)
    (listening : 0 ≤ station.server.fd) (running : station.aborted = false) :
    ((∀ attempts : Nat → Attempt,
        (∀ k, ((attempts k).fd : Int) ≠ station.server.fd ∧ KeepsMode (attempts k)) →
          (station.accept setting attempts).1.waiting = 0) ↔
      (station.files station.server.fd).nonblock = true ∨
        station.limit setting ≤ station.queue.length) ∧
    ((∀ attempts : Nat → Attempt, (∀ k, ((attempts k).fd : Int) ≠ station.server.fd) →
        (station.accept setting attempts).1.waiting = 0) ↔
      station.limit setting ≤ station.queue.length ∨
        (station.files station.server.fd).nonblock = true ∧ station.queue = []) :=
  ⟨returns_sparing_iff setting station listening running,
    returns_always_iff setting station listening running⟩

theorem accept_returns_iff_attended :
    (∀ attempts : Nat → Attempt, (∀ k, ((attempts k).fd : Int) ≠ 3 ∧ KeepsMode (attempts k)) →
      ({ attended with multiAcceptCount := 3 }.accept ⟨true, true, true⟩ attempts).1.waiting = 0) ∧
    ¬ ∀ attempts : Nat → Attempt, (∀ k, ((attempts k).fd : Int) ≠ 3) →
      ({ attended with multiAcceptCount := 3 }.accept ⟨true, true, true⟩ attempts).1.waiting =
        0 := by
  have exactly := accept_returns_iff ⟨true, true, true⟩ { attended with multiAcceptCount := 3 }
    (by decide) rfl
  exact ⟨exactly.1.mpr (Or.inl rfl), fun returns => absurd (exactly.2.mp returns) (by decide)⟩

end Xio.AcceptLoop
