import Xio.AcceptBatches

/-!
Who closes the descriptors that `accept` obtains. The server closes its own and those whose flags
it could not set; all others are handed to a callback, whose owner closes them, in the callback
itself or later. The kernel may hand out a closed number again, within the same batch too.
-/

namespace Xio.AcceptLoop

open Runs

/-- The number the server was opened with is the only one that it closes itself. -/
structure Clean (home : Int) (station : Station) : Prop where
  proper : station.table.misclosed = false
  place : station.server.fd = home ∨ station.server.fd = -1
  opened : 0 ≤ station.server.fd → station.server.fd ∈ station.table.opened

def held (station : Station) (fd : Nat) : Nat := if (fd : Int) ∈ station.table.opened then 1 else 0

-- How often owners have closed a number, and whether it is open now.
def settled (station : Station) (fd : Nat) : Nat := station.released.count fd + held station fd

def handed (served : List Served) : List Nat :=
  served.filterMap fun one => match one with
    | .delivered _ fd => some fd
    | _ => none

/-! Owners that close what is theirs, and a kernel that hands out free numbers. -/

def Fits (station : Station) : Reaction → Prop
  | .release fd => (fd : Int) ∈ station.table.opened ∧ (fd : Int) ≠ station.server.fd
  | _ => True

/-- Each reaction of a callback fits the state that the ones before it have left. -/
def AllFit : Station → List Reaction → Prop
  | _, [] => True
  | station, reaction :: rest =>
      (station.aborted = false → Fits station reaction) ∧ AllFit (station.reactAll [reaction]) rest

def Neat (setting : Setting) (attempt : Attempt) (station : Station) : Prop :=
  (attempt.fd : Int) ∉ station.table.opened ∧
    AllFit (station.acceptOne setting attempt).2.1 attempt.reactions

-- The number of a turn is free when that turn is made; the turns before it may have released it.
def Orderly (setting : Setting) (attempts : Nat → Attempt) : Nat → Station → Prop
  | 0, _ => True
  | left + 1, station =>
      Neat setting (attempts left) station ∧
        Orderly setting attempts left (station.handleOne setting (attempts left)).2.1

def Proper (setting : Setting) (station : Station) : Event → Prop
  | .connect connection attempts =>
      Orderly setting attempts station.waiting
        { station with queue := station.queue ++ [connection] }
  | .ready attempts => Orderly setting attempts (station.limit setting) station
  | .signal => True
  | .react reaction => Fits station reaction

/-! What each part of a turn does to the table. -/

structure Handover (home : Int) (before after : Station) (served : List Served) : Prop where
  clean : Clean home after
  accounted : ∀ fd : Nat, (fd : Int) ≠ home →
    settled after fd = settled before fd + (handed served).count fd

theorem Handover.refl {home : Int} {station : Station} (clean : Clean home station) :
    Handover home station station [] :=
  ⟨clean, fun _ _ => rfl⟩

theorem handed_append (first second : List Served) :
    handed (first ++ second) = handed first ++ handed second :=
  List.filterMap_append ..

theorem Handover.trans {home : Int} {before between after : Station} {first second : List Served}
    (here : Handover home before between first) (later : Handover home between after second) :
    Handover home before after (first ++ second) where
  clean := later.clean
  accounted fd other := by
    rw [later.accounted fd other, here.accounted fd other, handed_append, List.count_append,
      Nat.add_assoc]

theorem handover_same {home : Int} {before after : Station} (clean : Clean home before)
    (table : after.table = before.table) (server : after.server.fd = before.server.fd)
    (released : after.released = before.released) : Handover home before after [] := by
  refine ⟨⟨?_, ?_, ?_⟩, fun fd _ => ?_⟩
  · rw [table]
    exact clean.proper
  · rw [server]
    exact clean.place
  · rw [table, server]
    exact clean.opened
  · rw [settled, settled, held, held, table, released]
    rfl

theorem close_handover {home : Int} {station : Station} (clean : Clean home station)
    (listening : 0 ≤ station.server.fd) :
    Handover home station { station with
      active := false
      server := { station.server with fd := -1 }
      table := station.table.close station.server.fd } [] := by
  have here : station.server.fd = home := by
    rcases clean.place with same | closed
    · exact same
    · omega
  refine ⟨⟨?_, Or.inr rfl, fun impossible => absurd impossible (by decide : ¬ (0 : Int) ≤ -1)⟩, ?_⟩
  · exact (SocketLife.close_clean _ _).mpr ⟨clean.proper, clean.opened listening⟩
  · intro fd other
    rw [← here] at other
    simp only [settled, held, SocketLife.mem_close, ne_eq, other, not_false_eq_true, and_true]
    rfl

theorem release_handover {home : Int} {station : Station} {fd : Nat} (clean : Clean home station)
    (opened : (fd : Int) ∈ station.table.opened) (other : (fd : Int) ≠ station.server.fd) :
    Handover home station { station with
      table := station.table.close fd, released := fd :: station.released } [] := by
  refine ⟨⟨?_, clean.place, ?_⟩, ?_⟩
  · exact (SocketLife.close_clean _ _).mpr ⟨clean.proper, opened⟩
  · intro listening
    exact (SocketLife.mem_close _ _ _).mpr ⟨clean.opened listening, other.symm⟩
  · intro number _
    simp only [settled, held, SocketLife.mem_close, handed, List.filterMap_nil, List.count_nil]
    by_cases same : number = fd
    · subst same
      simp [opened]
    · simp [same, Ne.symm same]

theorem react_handover {home : Int} {station : Station} (reaction : Reaction)
    (clean : Clean home station) (fits : Fits station reaction) :
    Handover home station (station.react reaction) [] := by
  cases reaction with
  | start =>
      rw [Station.react]
      split
      · exact handover_same clean rfl rfl rfl
      · exact handover_same clean rfl rfl rfl
  | stop => exact handover_same clean rfl rfl rfl
  | close =>
      rw [Station.react]
      split
      · next listening => exact close_handover clean listening
      · exact .refl clean
  | setMultiAcceptCount value => exact handover_same clean rfl rfl rfl
  | setNonBlocking enable ok =>
      rw [Station.react]
      split
      · exact handover_same clean rfl rfl rfl
      · exact .refl clean
  | release fd => exact release_handover clean fits.1 fits.2

theorem reactAll_handover {home : Int} {station : Station} (reactions : List Reaction)
    (clean : Clean home station) (fit : AllFit station reactions) :
    Handover home station (station.reactAll reactions) [] := by
  induction reactions generalizing station with
  | nil => exact .refl clean
  | cons reaction rest ih =>
      obtain ⟨here, later⟩ := fit
      have first : Handover home station (station.reactAll [reaction]) [] := by
        rw [reactAll_cons]
        split
        · exact .refl clean
        · next running => exact react_handover reaction clean (here (by simpa using running))
      exact first.trans (ih first.clean later)

theorem taking_handover {setting : Setting} {attempt : Attempt} {station : Station} {home : Int}
    {result : Obtained × Station × List Served} (taking : Taking setting attempt station result)
    (clean : Clean home station) (fresh : (attempt.fd : Int) ∉ station.table.opened) :
    Handover home station result.2.1 result.2.2 := by
  cases taking with
  | waits => exact .refl clean
  | refused errno => exact .refl clean
  | delivered connection rest files queued others =>
      refine ⟨⟨clean.proper, clean.place, fun listening =>
        List.mem_cons_of_mem _ (clean.opened listening)⟩, fun fd _ => ?_⟩
      change station.released.count fd +
          (if (fd : Int) ∈ (attempt.fd : Int) :: station.table.opened then 1 else 0) =
        settled station fd + [attempt.fd].count fd
      by_cases same : fd = attempt.fd
      · subst same
        simp [settled, held, fresh]
      · simp [settled, held, same, Ne.symm same]
  | dropped connection rest queued plain flagged failed =>
      refine ⟨⟨?_, clean.place, ?_⟩, fun fd _ => ?_⟩
      · exact (SocketLife.close_clean _ _).mpr ⟨clean.proper, List.mem_cons_self⟩
      · intro listening
        exact (SocketLife.obtain_close_opened _ _ _ fresh).mpr (clean.opened listening)
      · simp only [settled, held, SocketLife.obtain_close_opened _ _ _ fresh]
        rfl

theorem report_handover {home : Int} {station : Station} (errno : Errno)
    (reactions : List Reaction) (clean : Clean home station) (fit : AllFit station reactions) :
    Handover home station (station.report errno reactions).1
      (station.report errno reactions).2 := by
  unfold Station.report
  split
  · exact .refl clean
  · exact ⟨(reactAll_handover reactions clean fit).clean,
      (reactAll_handover reactions clean fit).accounted⟩

theorem handleOne_handover {setting : Setting} {attempt : Attempt} {station : Station}
    {home : Int} (clean : Clean home station) (neat : Neat setting attempt station) :
    Handover home station (station.handleOne setting attempt).2.1
      (station.handleOne setting attempt).2.2 := by
  obtain ⟨fresh, fit⟩ := neat
  have taken := taking_handover (acceptOne_taking setting attempt station) clean fresh
  unfold Station.handleOne
  generalize station.acceptOne setting attempt = result at taken fit ⊢
  obtain ⟨obtained, after, served⟩ := result
  cases obtained with
  | waits => exact taken
  | client =>
      have reacted := taken.trans (reactAll_handover attempt.reactions taken.clean fit)
      rwa [List.append_nil] at reacted
  | nothing errno => exact taken.trans (report_handover errno attempt.reactions taken.clean fit)

theorem acceptLoop_handover (setting : Setting) (attempts : Nat → Attempt) (home : Int) (left : Nat)
    (station : Station) (clean : Clean home station)
    (orderly : Orderly setting attempts left station) :
    Handover home station (station.acceptLoop setting attempts left).1
      (station.acceptLoop setting attempts left).2 := by
  have ended : ∀ {before after : Station} {served : List Served} (waiting : Nat),
      Handover home before after served →
      Handover home before { after with waiting := waiting } served := fun _ handover =>
    ⟨⟨handover.clean.proper, handover.clean.place, handover.clean.opened⟩, handover.accounted⟩
  revert clean orderly
  refine acceptLoop_rule setting attempts
    (fun left station result => Clean home station → Orderly setting attempts left station →
      Handover home station result.1 result.2) ?_ ?_ ?_ ?_ ?_ left station
  · intro station clean _
    exact ended 0 (.refl clean)
  · intro left station _ clean _
    exact ended 0 (.refl clean)
  · intro left station after served _ made _ clean orderly
    have handover := handleOne_handover clean orderly.1
    rw [made] at handover
    exact ended (left + 1) handover
  · intro left station after served _ made _ clean orderly
    have handover := handleOne_handover clean orderly.1
    rw [made] at handover
    exact ended 0 handover
  · intro left station after served rest _ made _ tail clean orderly
    have handover := handleOne_handover clean orderly.1
    have later := orderly.2
    rw [made] at handover later
    exact handover.trans (tail handover.clean later)

theorem step_handover (setting : Setting) (home : Int) (station : Station) (event : Event)
    (clean : Clean home station) (proper : Proper setting station event) :
    Handover home station (step setting station event).1
      (step setting station event).2.served := by
  cases event with
  | connect connection attempts =>
      rw [step]
      split
      · exact handover_same clean rfl rfl rfl
      · have loop := acceptLoop_handover setting attempts home station.waiting
          { station with queue := station.queue ++ [connection] }
          ⟨clean.proper, clean.place, clean.opened⟩ proper
        exact ⟨loop.clean, loop.accounted⟩
  | ready attempts =>
      rw [step]
      split
      · exact acceptLoop_handover setting attempts home _ station clean proper
      · exact .refl clean
  | signal => exact handover_same clean rfl rfl rfl
  | react reaction =>
      rw [step]
      split
      · exact reactAll_handover [reaction] clean ⟨fun _ => proper, trivial⟩
      · exact .refl clean

/-- Every descriptor that `accept` obtains is closed by the server itself or reaches a callback,
never both and never twice: apart from the listener's own number, what is open at the end was open
before or was handed to a callback and not yet closed by its owner. -/
theorem descriptors_accounted (setting : Setting) (station : Station) (events : List Event)
    (clean : Clean station.server.fd station)
    (proper : Along (step setting) (Proper setting) station events) :
    Always (step setting) (fun station => station.table.misclosed = false) station events ∧
      ∀ fd : Nat, (fd : Int) ≠ station.server.fd →
        (final (step setting) station events).released.count fd +
            held (final (step setting) station events) fd =
          station.released.count fd + held station fd +
            total (· + ·) 0 (fun seen => (handed seen.served).count fd)
              (outputs (step setting) station events) := by
  have kept : ∀ state event, Clean station.server.fd state → Proper setting state event →
      Clean station.server.fd (step setting state event).1 := fun state event held proper =>
    (step_handover setting _ state event held proper).clean
  constructor
  · exact always_mono _ _ _ (fun state clean => clean.proper) _ _
      (always_of_along _ _ _ kept station events clean proper)
  · intro fd other
    have balance := conserved (· + ·) 0 (step setting) (Proper setting) (Clean station.server.fd)
      (fun state => settled state fd) (fun _ => 0) (fun seen => (handed seen.served).count fd) kept
      (fun state event clean proper => (Nat.zero_add _).trans
        ((step_handover setting _ state event clean proper).accounted fd other))
      station events clean proper
    have nothing : total (· + ·) 0 (fun _ => 0) (outputs (step setting) station events) = 0 :=
      total_unit (· + ·) 0 (step setting) (fun _ => 0) station events
        (along_of_forall _ _ _ _ fun _ _ _ => rfl)
    rwa [nothing, Nat.zero_add] at balance

def reusing (k : Nat) : Attempt :=
  { granting 4 0 with reactions := if k = 1 then [.release 4] else [] }

theorem descriptors_accounted_attended :
    Along (step ⟨true, true, true⟩) (Proper ⟨true, true, true⟩)
        { attended with multiAcceptCount := 2 } [.ready reusing, .react (.release 4)] ∧
      (final (step ⟨true, true, true⟩) { attended with multiAcceptCount := 2 }
          [.ready reusing, .react (.release 4)]).released.count 4 +
        held (final (step ⟨true, true, true⟩) { attended with multiAcceptCount := 2 }
          [.ready reusing, .react (.release 4)]) 4 = 2 := by
  have proper : Along (step ⟨true, true, true⟩) (Proper ⟨true, true, true⟩)
      { attended with multiAcceptCount := 2 } [.ready reusing, .react (.release 4)] := by
    refine ⟨⟨⟨by decide, fun _ => ⟨by decide, by decide⟩, trivial⟩, ⟨by decide, trivial⟩, trivial⟩,
      ⟨by decide, by decide⟩, trivial⟩
  have clean : Clean 3 { attended with multiAcceptCount := 2 } :=
    ⟨rfl, Or.inl rfl, fun _ => by decide⟩
  exact ⟨proper, (descriptors_accounted ⟨true, true, true⟩ { attended with multiAcceptCount := 2 }
    _ clean proper).2 4 (by decide)⟩

end Xio.AcceptLoop
