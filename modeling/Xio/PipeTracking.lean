import Mathlib.Logic.Function.Basic
import Xio.Runs
import Xio.Pipe

/-!
`Pipe::size_` against the kernel's queue, over runs of any number of pipes that
share one kernel and one allocator. Sockets and plain descriptors are outside the
model: the kernel script says what arrives from them and how much they take.
-/

namespace Xio.PipeTracking

open MachineWord Environment Runs

structure System where
  pipes : Nat → Pipe
  world : World

inductive Op where
  | create (i : Nat)
  | writeChars (i : Nat) (value : List UInt8)
  | writeSocket (i size : Nat) (mode : Mode)
  | writePipe (i source size : Nat) (mode : Mode)
  | writeFd (i size : Nat)
  | readChars (i size : Nat)
  | readBuffer (i : Nat) (result : Buffer) (size : Nat)
  | readSocket (i size : Nat)
  | readPipe (i size : Nat)
  | readFd (i size : Nat)
  | readByte (i : Nat)
  | clear (i rounds : Nat)
  | socketRead (i size : Nat)
  | socketWrite (i size : Nat) (mode : Mode)

def initial (world : World) : System := ⟨fun _ => ⟨false, 0, []⟩, world⟩

def System.put (system : System) (i : Nat) (pipe : Pipe) (kernel : Kernel) : System :=
  ⟨Function.update system.pipes i pipe, { system.world with kernel := kernel }⟩

def System.apply (system : System) (i : Nat) (call : Pipe → Kernel → Moved) : System :=
  let moved := call (system.pipes i) system.world.kernel
  system.put i moved.pipe moved.kernel

def perform (system : System) : Op → System
  | .create i =>
      let made := Pipe.create system.world.kernel
      system.put i made.1 made.2
  | .writeChars i value => system.apply i fun pipe => pipe.writeChars value
  | .writeSocket i size mode => system.apply i fun pipe => pipe.writeSocket size mode
  | .writePipe i source size mode =>
      -- EINVAL when both ends belong to one pipe
      if i = source then { system with world.kernel := system.world.kernel.next }
      else
        let moved := (system.pipes i).writePipe (system.pipes source) size mode system.world.kernel
        (system.put i moved.1.pipe moved.1.kernel).put source moved.2 moved.1.kernel
  | .writeFd i size => system.apply i fun pipe => pipe.writeFd size
  | .readChars i size => system.apply i fun pipe => pipe.readChars size
  | .readBuffer i result size =>
      let read := (system.pipes i).readBuffer result size system.world
      ⟨Function.update system.pipes i read.pipe, read.world⟩
  | .readSocket i size => system.apply i fun pipe => pipe.readSocket size
  | .readPipe i size => system.apply i fun pipe => pipe.readPipe size
  | .readFd i size => system.apply i fun pipe => pipe.readFd size
  | .readByte i => system.apply i Pipe.readByte
  | .clear i rounds =>
      let cleared := (system.pipes i).clearLoop rounds system.world.kernel
      system.put i cleared.1 cleared.2
  | .socketRead i size => system.apply i fun pipe => Socket.readPipe pipe size
  | .socketWrite i size mode => system.apply i fun pipe => Socket.writePipe pipe size mode

def step : Machine System Op Unit := fun system op => (perform system op, ())

def Responsive (kernel : Kernel) : Prop := ∀ i, ∃ j, i ≤ j ∧ (kernel.answers j).isSome = true

/-- `size_` is the number of queued bytes, and the loop of `clear`, which stops when
`size_` is 0, does stop and leaves nothing behind. -/
structure Tracked (pipe : Pipe) : Prop where
  counted : pipe.size = pipe.queue.length
  cleared : ∀ rounds kernel, (pipe.clearLoop rounds kernel).1.size = 0 →
    (pipe.clearLoop rounds kernel).1.queue = []
  ends : ∀ kernel, Responsive kernel → ∃ rounds, (pipe.clearLoop rounds kernel).1.size = 0

def AllTracked (system : System) : Prop := ∀ i, Tracked (system.pipes i)

def AllExact (system : System) : Prop := ∀ i, (system.pipes i).Exact

def leaked (system : System) : Op → Nat
  | .readBuffer i result size => (system.pipes i).firstRead result size system.world
  | .socketWrite i size _ =>
      ((system.pipes i).offered system.world.kernel
        (min size (system.pipes i).queue.length)).getD 0
  | _ => 0

def Counted (system : System) (op : Op) : Prop := leaked system op = 0

theorem clearLoop_exact (rounds : Nat) (pipe : Pipe) (kernel : Kernel) (exact_pipe : pipe.Exact) :
    (pipe.clearLoop rounds kernel).1.Exact := by
  induction rounds generalizing pipe kernel with
  | zero => exact exact_pipe
  | succ rounds ih =>
      simp only [Pipe.clearLoop]
      split
      · exact exact_pipe
      · exact ih _ _ (Pipe.moveOut_exact pipe _ kernel exact_pipe)

theorem clearLoop_answers (rounds : Nat) (pipe : Pipe) (kernel : Kernel) :
    (pipe.clearLoop rounds kernel).2.answers = kernel.answers := by
  induction rounds generalizing pipe kernel with
  | zero => rfl
  | succ rounds ih =>
      simp only [Pipe.clearLoop]
      split
      · rfl
      · rw [ih]
        rcases Pipe.moveOut_cases pipe (min pipe.size 4096) kernel with failed | ⟨n, _, _, moved⟩
        · rw [failed]
          rfl
        · rw [moved]
          rfl

theorem clearLoop_add (first second : Nat) (pipe : Pipe) (kernel : Kernel) :
    pipe.clearLoop (first + second) kernel =
      (pipe.clearLoop first kernel).1.clearLoop second (pipe.clearLoop first kernel).2 := by
  induction first generalizing pipe kernel with
  | zero => simp [Pipe.clearLoop]
  | succ first ih =>
      rw [Nat.succ_add]
      by_cases done : pipe.size = 0
      · cases second <;> simp [Pipe.clearLoop, done]
      · simp only [Pipe.clearLoop, done, ↓reduceIte]
        exact ih _ _

theorem clearLoop_moved (pipe : Pipe) (kernel : Kernel) (n : Nat) (pending : pipe.size ≠ 0)
    (within : n ≤ pipe.size) (some_bytes : 0 < n)
    (moved : (pipe.moveOut (min pipe.size 4096) kernel).pipe.size = sub pipe.size n) :
    ∃ rounds, (pipe.clearLoop rounds kernel).1.size < pipe.size := by
  refine ⟨1, ?_⟩
  simp only [Pipe.clearLoop, pending, ↓reduceIte, moved]
  rw [sub_exact within]
  omega

-- The induction is on the failed reads that precede the next successful one.
theorem clearLoop_advances (delay : Nat) (pipe : Pipe) (kernel : Kernel) (exact_pipe : pipe.Exact)
    (pending : pipe.size ≠ 0) (answered : (kernel.answers (kernel.calls + delay)).isSome = true) :
    ∃ rounds, (pipe.clearLoop rounds kernel).1.size < pipe.size := by
  have counted := exact_pipe.counted
  have opened : pipe.isOpen = true := by
    cases isOpen : pipe.isOpen with
    | true => rfl
    | false =>
        rw [exact_pipe.closed isOpen] at counted
        exact absurd counted pending
  induction delay generalizing kernel with
  | zero =>
      have success := Pipe.moveOut_answered pipe (min pipe.size 4096) kernel opened answered
      rcases Pipe.moveOut_cases pipe (min pipe.size 4096) kernel with
        failed | ⟨n, limit, some_bytes, moved⟩
      · rw [failed] at success
        exact absurd rfl success
      · exact clearLoop_moved pipe kernel n pending (by omega) (some_bytes (by omega))
          (by rw [moved])
  | succ delay ih =>
      rcases Pipe.moveOut_cases pipe (min pipe.size 4096) kernel with
        failed | ⟨n, limit, some_bytes, moved⟩
      · have later : kernel.next.calls + delay = kernel.calls + (delay + 1) := by
          simp only [Kernel.next]
          omega
        obtain ⟨rounds, smaller⟩ := ih kernel.next (by rw [later]; exact answered)
        refine ⟨rounds + 1, ?_⟩
        simp only [Pipe.clearLoop, pending, ↓reduceIte, failed]
        exact smaller
      · exact clearLoop_moved pipe kernel n pending (by omega) (some_bytes (by omega))
          (by rw [moved])

theorem clearLoop_ends (pipe : Pipe) (kernel : Kernel) (exact_pipe : pipe.Exact)
    (responsive : Responsive kernel) : ∃ rounds, (pipe.clearLoop rounds kernel).1.size = 0 := by
  induction bytes : pipe.size using Nat.strongRecOn generalizing pipe kernel with
  | ind bytes ih =>
      subst bytes
      by_cases done : pipe.size = 0
      · exact ⟨0, done⟩
      obtain ⟨success, later, answered⟩ := responsive kernel.calls
      obtain ⟨delay, rfl⟩ := Nat.exists_eq_add_of_le later
      obtain ⟨first, smaller⟩ := clearLoop_advances delay pipe kernel exact_pipe done answered
      have stillResponsive : Responsive (pipe.clearLoop first kernel).2 := by
        intro i
        rw [clearLoop_answers]
        exact responsive i
      obtain ⟨second, ended⟩ := ih _ smaller _ _ (clearLoop_exact first pipe kernel exact_pipe)
        stillResponsive rfl
      refine ⟨first + second, ?_⟩
      rw [clearLoop_add]
      exact ended

theorem tracked_of_exact (pipe : Pipe) (exact_pipe : pipe.Exact) : Tracked pipe where
  counted := exact_pipe.counted
  cleared rounds kernel ended := by
    have left := (clearLoop_exact rounds pipe kernel exact_pipe).counted
    rw [ended] at left
    exact List.length_eq_zero_iff.mp left.symm
  ends kernel responsive := clearLoop_ends pipe kernel exact_pipe responsive

theorem put_exact (system : System) (i : Nat) (pipe : Pipe) (kernel : Kernel)
    (exact_all : AllExact system) (exact_pipe : pipe.Exact) :
    AllExact (system.put i pipe kernel) :=
  (Function.forall_update_iff system.pipes fun _ pipe => pipe.Exact).mpr
    ⟨exact_pipe, fun j _ => exact_all j⟩

theorem perform_exact (system : System) (op : Op) (exact_all : AllExact system)
    (counted : Counted system op) : AllExact (perform system op) := by
  cases op with
  | create i => exact put_exact system i _ _ exact_all (Pipe.create_exact _)
  | writeChars i value =>
      exact put_exact system i _ _ exact_all (Pipe.writeChars_exact _ value _ (exact_all i))
  | writeSocket i size mode =>
      exact put_exact system i _ _ exact_all (Pipe.writeSocket_exact _ size mode _ (exact_all i))
  | writePipe i source size mode =>
      simp only [perform]
      split
      · exact exact_all
      · have moved := Pipe.writePipe_exact (system.pipes i) (system.pipes source) size mode
          system.world.kernel (exact_all i)
        exact put_exact _ source _ _ (put_exact system i _ _ exact_all moved.1)
          (moved.2 (exact_all source))
  | writeFd i size =>
      exact put_exact system i _ _ exact_all (Pipe.receive_exact _ size _ (exact_all i))
  | readChars i size =>
      exact put_exact system i _ _ exact_all (Pipe.moveOut_exact _ size _ (exact_all i))
  | readBuffer i result size =>
      have idle := Pipe.readBuffer_idle (system.pipes i) result size system.world counted
      intro j
      by_cases same : j = i
      · subst j
        simpa [perform, idle] using exact_all i
      · simpa [perform, same] using exact_all j
  | readSocket i size => exact put_exact system i _ _ exact_all (exact_all i)
  | readPipe i size => exact put_exact system i _ _ exact_all (exact_all i)
  | readFd i size =>
      exact put_exact system i _ _ exact_all (Pipe.moveOut_exact _ size _ (exact_all i))
  | readByte i => exact put_exact system i _ _ exact_all (Pipe.readByte_exact _ _ (exact_all i))
  | clear i rounds =>
      exact put_exact system i _ _ exact_all (clearLoop_exact rounds _ _ (exact_all i))
  | socketRead i size =>
      exact put_exact system i _ _ exact_all (Pipe.writeSocket_exact _ size .move _ (exact_all i))
  | socketWrite i size mode =>
      refine put_exact system i _ _ exact_all ?_
      simp only [Counted, leaked] at counted
      simp only [Socket.writePipe]
      split
      · exact exact_all i
      · rename_i n offer
        rw [offer, Option.getD_some] at counted
        subst n
        exact exact_all i

theorem counted_of_tracked (system : System) (op : Op) (exact_all : AllExact system)
    (tracked : AllTracked (perform system op)) : Counted system op := by
  by_contra leaking
  simp only [Counted] at leaking
  cases op with
  | readBuffer i result size =>
      have before := (exact_all i).counted
      have after := (tracked i).counted
      have shorter := Pipe.readBuffer_leaks (system.pipes i) result size system.world leaking
      have sized := (Pipe.readBufferLoop_pipe size size 0 (system.pipes i) result system.world).1
      simp only [perform, Function.update_self, Pipe.readBuffer] at after shorter
      omega
  | socketWrite i size mode =>
      have before := (exact_all i).counted
      have after := (tracked i).counted
      simp only [leaked] at leaking
      simp only [perform, System.apply, System.put, Function.update_self, Socket.writePipe] at after
      cases offer : (system.pipes i).offered system.world.kernel
          (min size (system.pipes i).queue.length) with
      | none => simp [offer] at leaking
      | some n =>
          have limit := (Pipe.offered_le _ _ _ n offer).1
          simp only [offer, Option.getD_some] at leaking
          simp only [offer, List.length_drop] at after
          omega
  | create | writeChars | writeSocket | writePipe | writeFd | readChars | readSocket | readPipe
  | readFd | readByte | clear | socketRead => exact leaking rfl

/-- Every counter is exact in every state of a run exactly when no step of it takes
bytes out through `Pipe::read(Buffer&)` or `Socket::write(Pipe*)`. -/
theorem tracked_iff_counted (world : World) (ops : List Op) :
    Always step AllTracked (initial world) ops ↔ Along step Counted (initial world) ops :=
  always_iff_along step Counted AllExact AllTracked
    (fun _ exact_all i => tracked_of_exact _ (exact_all i))
    (fun system op exact_all counted => perform_exact system op exact_all counted)
    (fun system op exact_all tracked => counted_of_tracked system op exact_all tracked)
    (initial world) ops (fun _ => ⟨rfl, fun _ => rfl⟩)

theorem readBuffer_untracked :
    ¬ Always step AllTracked (initial ⟨Heap.generous, Kernel.willing⟩)
      [.create 0, .writeChars 0 [72, 101, 108, 108, 111],
        .readBuffer 0 MutableBuffer.empty 3] := by
  intro always
  have last := (always_final step AllTracked _ _ always 0).counted
  revert last
  decide

end Xio.PipeTracking
