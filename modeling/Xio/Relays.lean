import Xio.Pipe
import Xio.Runs

/-!
The loops of the example programs that pass data on. `examples/network-splicing.cpp` moves it
through a pipe: the proxy thread from its client to a second connection of the same server, which
the main thread, past the first bytes, moves on to the terminal. `examples/filter.cpp` copies
through an array. A loop ends with the first read that delivers nothing. Reads of a descriptor
deliver what the kernel's script says; that the two threads share a connection is a condition on
what arrives.
-/

namespace Xio.Relays

open Storage MachineWord Environment Runs

structure Relay where
  pipe : Pipe
  kernel : Kernel
  ended : Bool

structure Round where
  received : List UInt8
  delivered : List UInt8

def idle : Round := ⟨[], []⟩

/-- The two ways to empty the pipe: `backend.write(&pipe, pipe.size())` and
`pipe.read(STDOUT_FILENO, pipe.size())`. -/
inductive Outlet where
  | backend
  | terminal

def Outlet.drain : Outlet → Pipe → Kernel → Moved
  | .backend, pipe, kernel => Socket.writePipe pipe pipe.size .move kernel
  | .terminal, pipe, kernel => pipe.readFd pipe.size kernel

def turn (outlet : Outlet) (relay : Relay) : Relay × Round :=
  if relay.ended then (relay, idle)
  else
    let filled := Socket.readPipe relay.pipe 1024 relay.kernel
    if 0 < filled.result then
      let drained := outlet.drain filled.pipe filled.kernel
      (⟨drained.pipe, drained.kernel, false⟩, ⟨filled.bytes, drained.bytes⟩)
    else (⟨filled.pipe, filled.kernel, true⟩, ⟨filled.bytes, []⟩)

/-! One turn. -/

-- The counter never falls behind the queue, so each write asks for all that is there.
def Ample (pipe : Pipe) : Prop := pipe.queue.length ≤ pipe.size

structure Drained (pipe : Pipe) (moved : Moved) : Prop where
  front : moved.bytes ++ moved.pipe.queue = pipe.queue
  ample : Ample pipe → Ample moved.pipe

theorem drain_cases (outlet : Outlet) (pipe : Pipe) (kernel : Kernel) :
    (pipe.offered kernel (min pipe.size pipe.queue.length) = none ∧
        outlet.drain pipe kernel = ⟨-1, [], pipe, kernel.next⟩) ∨
      ∃ n size, pipe.offered kernel (min pipe.size pipe.queue.length) = some n ∧
        (size = pipe.size ∨ size = sub pipe.size n) ∧
        outlet.drain pipe kernel = ⟨n, pipe.queue.take n,
          { pipe with size := size, queue := pipe.queue.drop n }, kernel.next⟩ := by
  cases offer : pipe.offered kernel (min pipe.size pipe.queue.length) with
  | none =>
      refine Or.inl ⟨rfl, ?_⟩
      cases outlet with
      | backend => simp only [Outlet.drain, Socket.writePipe, offer]
      | terminal => simp only [Outlet.drain, Pipe.readFd, Pipe.moveOut, offer]
  | some n =>
      cases outlet with
      | backend =>
          refine Or.inr ⟨n, pipe.size, rfl, Or.inl rfl, ?_⟩
          simp only [Outlet.drain, Socket.writePipe, offer]
      | terminal =>
          refine Or.inr ⟨n, _, rfl, Or.inr rfl, ?_⟩
          simp only [Outlet.drain, Pipe.readFd, Pipe.moveOut, offer]

theorem drain_drained (outlet : Outlet) (pipe : Pipe) (kernel : Kernel) :
    Drained pipe (outlet.drain pipe kernel) := by
  rcases drain_cases outlet pipe kernel with ⟨_, failed⟩ | ⟨n, size, offer, counter, moved⟩
  · rw [failed]
    exact ⟨rfl, id⟩
  · rw [moved]
    refine ⟨List.take_append_drop n pipe.queue, fun ample => ?_⟩
    have limit := (Pipe.offered_le pipe kernel _ n offer).1
    have bounded : pipe.queue.length ≤ pipe.size := ample
    change (pipe.queue.drop n).length ≤ size
    rw [List.length_drop]
    rcases counter with rfl | rfl
    · omega
    · rw [sub_exact (by omega)]
      omega

theorem fill_queue (pipe : Pipe) (kernel : Kernel) :
    (Socket.readPipe pipe 1024 kernel).pipe.queue =
      pipe.queue ++ (Socket.readPipe pipe 1024 kernel).bytes :=
  Pipe.moveIn_queue pipe _ kernel

theorem fill_ample (pipe : Pipe) (kernel : Kernel) (ample : Ample pipe) :
    Ample (Socket.readPipe pipe 1024 kernel).pipe := by
  have bounded : pipe.queue.length ≤ pipe.size := ample
  simp only [Socket.readPipe, Pipe.writeSocket]
  cases (if pipe.isOpen then kernel.receive 1024 else none) with
  | none => exact ample
  | some bytes =>
      change (pipe.queue ++ bytes).length ≤ pipe.size + bytes.length
      rw [List.length_append]
      omega

theorem fill_nothing (pipe : Pipe) (kernel : Kernel)
    (none : ¬ 0 < (Socket.readPipe pipe 1024 kernel).result) :
    (Socket.readPipe pipe 1024 kernel).bytes = [] := by
  have reports : Reports (Socket.readPipe pipe 1024 kernel).result
      (Socket.readPipe pipe 1024 kernel).bytes := Pipe.moveIn_reports pipe _ kernel
  rcases reports with counted | ⟨_, nothing⟩
  · exact List.length_eq_zero_iff.mp (by omega)
  · exact nothing

theorem turn_balanced (outlet : Outlet) (relay : Relay) :
    (turn outlet relay).2.delivered ++ (turn outlet relay).1.pipe.queue =
      relay.pipe.queue ++ (turn outlet relay).2.received := by
  unfold turn
  split
  · exact (List.append_nil _).symm
  · dsimp only
    split
    · rw [← fill_queue]
      exact (drain_drained outlet _ _).front
    · exact fill_queue relay.pipe relay.kernel

/-! Both threads. -/

/-- `wire` holds what the proxy has sent and the main thread has not read. -/
structure Program where
  proxy : Relay
  wire : List UInt8
  main : Relay

inductive Thread where
  | proxy
  | main

def step : Machine Program Thread Round
  | program, .proxy =>
      let after := turn .backend program.proxy
      ({ program with proxy := after.1, wire := program.wire ++ after.2.delivered },
        ⟨after.2.received, []⟩)
  | program, .main =>
      let after := turn .terminal program.main
      ({ program with main := after.1, wire := program.wire.drop after.2.received.length },
        ⟨[], after.2.delivered⟩)

def Wired (program : Program) : Thread → Prop
  | .proxy => True
  | .main => (turn .terminal program.main).2.received <+: program.wire

def pending (program : Program) : List UInt8 :=
  program.main.pipe.queue ++ (program.wire ++ program.proxy.pipe.queue)

theorem step_balanced (program : Program) (thread : Thread) (wired : Wired program thread) :
    (step program thread).2.delivered ++ pending (step program thread).1 =
      pending program ++ (step program thread).2.received := by
  cases thread with
  | proxy =>
      have balanced := turn_balanced .backend program.proxy
      simp only [step, pending, List.nil_append, List.append_assoc, balanced]
  | main =>
      have balanced := turn_balanced .terminal program.main
      obtain ⟨rest, wire⟩ := wired
      have left : program.wire.drop (turn .terminal program.main).2.received.length = rest := by
        rw [← wire, List.drop_left]
      simp only [step, pending, left, List.append_nil]
      rw [← List.append_assoc, balanced, List.append_assoc, ← List.append_assoc _ rest, wire]

/-- However the two threads interleave and whatever the kernel does: what was printed, followed by
what is in the pipes and on the wire, is what the client has sent. Nothing is lost, repeated or
reordered on the way; what is missing at the end is what the loops have left behind. -/
theorem spliced_in_order (program : Program) (threads : List Thread)
    (wired : Along step Wired program threads) :
    total (· ++ ·) [] Round.delivered (outputs step program threads) ++
        pending (final step program threads) =
      pending program ++ total (· ++ ·) [] Round.received (outputs step program threads) :=
  conserved (· ++ ·) [] step Wired (fun _ => True) pending Round.delivered Round.received
    (fun _ _ _ _ => trivial) (fun program thread _ wired => step_balanced program thread wired)
    program threads trivial wired

def script : Kernel :=
  ⟨fun call => if call % 2 = 1 then some 1024 else if call = 0 then some 1 else some 0,
    fun _ _ => 65, 0⟩

def beginning : Program := ⟨⟨⟨true, 0, []⟩, script, false⟩, [], ⟨⟨true, 0, []⟩, script, false⟩⟩

theorem spliced_in_order_script :
    Along step Wired beginning [.proxy, .main, .proxy] ∧
      total (· ++ ·) [] Round.delivered (outputs step beginning [.proxy, .main, .proxy]) ++
          pending (final step beginning [.proxy, .main, .proxy]) =
        pending beginning ++
          total (· ++ ·) [] Round.received (outputs step beginning [.proxy, .main, .proxy]) := by
  have wired : Along step Wired beginning [.proxy, .main, .proxy] :=
    ⟨trivial, ⟨[], by decide⟩, trivial, trivial⟩
  exact ⟨wired, spliced_in_order beginning _ wired⟩

/-! Writes that nothing holds up. -/

/-- The write of the next turn, the second of its two system calls, may move all of a pipe. -/
def Unhindered (relay : Relay) : Prop :=
  ∃ n, 1024 ≤ n ∧ relay.kernel.answers (relay.kernel.calls + 1) = some n

theorem fill_success (pipe : Pipe) (kernel : Kernel)
    (some : 0 < (Socket.readPipe pipe 1024 kernel).result) :
    (Socket.readPipe pipe 1024 kernel).pipe.isOpen = true ∧
      (Socket.readPipe pipe 1024 kernel).kernel = kernel.next ∧
      (Socket.readPipe pipe 1024 kernel).bytes.length ≤ 1024 ∧
      (Socket.readPipe pipe 1024 kernel).bytes ≠ [] := by
  simp only [Socket.readPipe, Pipe.writeSocket] at some ⊢
  cases opened : pipe.isOpen with
  | false =>
      simp only [opened, Bool.false_eq_true, ↓reduceIte, Pipe.moveIn] at some
      omega
  | true =>
      simp only [opened, ↓reduceIte] at some ⊢
      cases read : kernel.receive 1024 with
      | none =>
          simp only [read, Pipe.moveIn] at some
          omega
      | some bytes =>
          refine ⟨opened, rfl, kernel.receive_length_le 1024 bytes read, ?_⟩
          rintro (rfl : bytes = [])
          rw [read] at some
          exact absurd some (Int.lt_irrefl 0)

theorem transfer_all (kernel : Kernel) (available n : Nat)
    (answered : kernel.answers kernel.calls = some n)
    (enough : available ≤ n) : kernel.transfer available = some available := by
  simp only [Kernel.transfer, answered, Option.map_some, Option.some.injEq]
  split <;> omega

theorem turn_empties (outlet : Outlet) (relay : Relay) (unhindered : Unhindered relay)
    (empty : relay.pipe.queue = []) : (turn outlet relay).1.pipe.queue = [] := by
  unfold turn
  split
  · exact empty
  · dsimp only
    split
    · next some =>
      obtain ⟨opened, kernel, bounded, _⟩ := fill_success relay.pipe relay.kernel some
      have ample : Ample relay.pipe := by
        rw [Ample, empty]
        exact Nat.zero_le _
      have filled := fill_ample relay.pipe relay.kernel ample
      have queue := fill_queue relay.pipe relay.kernel
      rw [empty, List.nil_append] at queue
      obtain ⟨n, enough, answered⟩ := unhindered
      generalize Socket.readPipe relay.pipe 1024 relay.kernel = moved at *
      have offer : moved.pipe.offered moved.kernel (min moved.pipe.size moved.pipe.queue.length) =
          Option.some moved.pipe.queue.length := by
        rw [Nat.min_eq_right filled, Pipe.offered, if_pos opened, kernel]
        exact transfer_all _ _ n answered (by rw [queue]; omega)
      rcases drain_cases outlet moved.pipe moved.kernel with
        ⟨refused, _⟩ | ⟨k, size, taken, _, drained⟩
      · rw [offer] at refused
        cases refused
      · rw [offer] at taken
        cases taken
        rw [drained]
        exact List.drop_length
    · next none =>
      change (Socket.readPipe relay.pipe 1024 relay.kernel).pipe.queue = []
      rw [fill_queue, empty, fill_nothing _ _ none]
      rfl

def Free (program : Program) : Thread → Prop
  | .proxy => Unhindered program.proxy
  | .main => Unhindered program.main

structure Emptied (program : Program) : Prop where
  proxy : program.proxy.pipe.queue = []
  main : program.main.pipe.queue = []

theorem step_emptied (program : Program) (thread : Thread) (emptied : Emptied program)
    (free : Free program thread) : Emptied (step program thread).1 := by
  cases thread with
  | proxy => exact ⟨turn_empties .backend program.proxy free emptied.proxy, emptied.main⟩
  | main => exact ⟨emptied.proxy, turn_empties .terminal program.main free emptied.main⟩

theorem pending_emptied (program : Program) (emptied : Emptied program) :
    pending program = program.wire := by
  rw [pending, emptied.proxy, emptied.main, List.nil_append, List.append_nil]

/-- If no write is cut short, nothing stays behind in a pipe, although the counter of the first pipe
counts only upwards: what was printed, followed by what is on the wire, is what the client has
sent. -/
theorem spliced_completely (program : Program) (threads : List Thread) (emptied : Emptied program)
    (free : Along step (fun program thread => Wired program thread ∧ Free program thread)
      program threads) :
    total (· ++ ·) [] Round.delivered (outputs step program threads) ++
        (final step program threads).wire =
      program.wire ++ total (· ++ ·) [] Round.received (outputs step program threads) := by
  refine conserved (· ++ ·) [] step
    (fun program thread => Wired program thread ∧ Free program thread)
    Emptied Program.wire Round.delivered Round.received
    (fun program thread emptied free => step_emptied program thread emptied free.2) ?_
    program threads emptied free
  intro program thread emptied free
  have balanced := step_balanced program thread free.1
  rwa [pending_emptied _ (step_emptied program thread emptied free.2),
    pending_emptied program emptied] at balanced

theorem spliced_completely_script :
    Along step (fun program thread => Wired program thread ∧ Free program thread) beginning
        [.proxy, .main, .proxy] ∧
      total (· ++ ·) [] Round.delivered (outputs step beginning [.proxy, .main, .proxy]) ++
          (final step beginning [.proxy, .main, .proxy]).wire =
        beginning.wire ++
          total (· ++ ·) [] Round.received (outputs step beginning [.proxy, .main, .proxy]) := by
  have free : Along step (fun program thread => Wired program thread ∧ Free program thread)
      beginning [.proxy, .main, .proxy] :=
    ⟨⟨trivial, 1024, Nat.le_refl _, rfl⟩, ⟨⟨[], by decide⟩, 1024, Nat.le_refl _, rfl⟩,
      ⟨trivial, 1024, Nat.le_refl _, by decide⟩, trivial⟩
  exact ⟨free, spliced_completely beginning _ ⟨rfl, rfl⟩ free⟩

/-! Copying through an array. -/

/-- The loop of `examples/filter.cpp`: its array does not outlive the turn. -/
structure Copy where
  kernel : Kernel
  ended : Bool

def copy : Machine Copy Unit Round := fun state _ =>
  if state.ended then (state, idle)
  else match state.kernel.receive 1024 with
    | none => (⟨state.kernel.next, true⟩, idle)
    | some bytes =>
        if bytes = [] then (⟨state.kernel.next, true⟩, idle)
        else
          let written := ((state.kernel.next.transfer bytes.length).map bytes.take).getD []
          (⟨state.kernel.next.next, false⟩, ⟨bytes, written⟩)

theorem copy_front (state : Copy) (turn : Unit) :
    (copy state turn).2.delivered <+: (copy state turn).2.received := by
  unfold copy
  split
  · exact List.prefix_rfl
  split
  · exact List.prefix_rfl
  split
  · exact List.prefix_rfl
  · next bytes _ _ =>
    dsimp only
    cases state.kernel.next.transfer bytes.length with
    | none => exact List.nil_prefix
    | some n => exact List.take_prefix n bytes

theorem copied_length_le (state : Copy) (turns : List Unit) :
    (total (· ++ ·) [] Round.delivered (outputs copy state turns)).length ≤
      (total (· ++ ·) [] Round.received (outputs copy state turns)).length := by
  induction turns generalizing state with
  | nil => exact Nat.le_refl _
  | cons turn rest ih =>
      change ((copy state turn).2.delivered ++ total (· ++ ·) [] Round.delivered _).length ≤
        ((copy state turn).2.received ++ total (· ++ ·) [] Round.received _).length
      rw [List.length_append, List.length_append]
      exact Nat.add_le_add (copy_front state turn).length_le (ih (copy state turn).1)

/-- The rest of a short write is never written: the output is the input exactly if every write was
complete. -/
theorem copied_iff (state : Copy) (turns : List Unit) :
    total (· ++ ·) [] Round.delivered (outputs copy state turns) =
        total (· ++ ·) [] Round.received (outputs copy state turns) ↔
      Along copy (fun state turn => (copy state turn).2.delivered = (copy state turn).2.received)
        state turns := by
  induction turns generalizing state with
  | nil => exact iff_of_true rfl trivial
  | cons turn rest ih =>
      change (copy state turn).2.delivered ++ total (· ++ ·) [] Round.delivered
          (outputs copy (copy state turn).1 rest) =
        (copy state turn).2.received ++ total (· ++ ·) [] Round.received
          (outputs copy (copy state turn).1 rest) ↔ _ ∧ _
      constructor
      · intro same
        have lengths := congrArg List.length same
        rw [List.length_append, List.length_append] at lengths
        have here := (copy_front state turn).length_le
        have later := copied_length_le (copy state turn).1 rest
        -- Neither part can make up for what the other lacks.
        have whole : (copy state turn).2.delivered = (copy state turn).2.received :=
          (copy_front state turn).eq_of_length (by omega)
        rw [whole, List.append_right_inj] at same
        exact ⟨whole, (ih _).mp same⟩
      · rintro ⟨whole, later⟩
        rw [whole, (ih _).mpr later]

end Xio.Relays
