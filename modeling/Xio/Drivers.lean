import Mathlib.Logic.Function.Basic
import Xio.Runs

/-!
Who owns a `SocketDriver`. Each `ServerSocket` of `lib/ServerSocket.cpp` is made with a driver of
its own, `setSocketDriver` deletes the one it replaces, and the destructor the last one; a
connection is turned into a `Socket` by the driver. Users may make drivers themselves and hand them
over, or hand over none. Drivers are told apart by their number, as pointers to objects are.
-/

namespace Xio.Drivers

open Runs

abbrev Driver := Nat

/-- `loose` has the drivers that were made and not yet handed over; nothing reads it. The flag
records that an object was deleted or called that did not exist. -/
structure System where
  alive : List Driver
  made : Nat
  servers : Nat → Option (Option Driver)
  loose : List Driver
  misused : Bool

def initial : System := ⟨[], 0, fun _ => none, [], false⟩

inductive Op where
  | construct (i : Nat)
  | makeDriver
  | setSocketDriver (i : Nat) (sd : Option Driver)
  | createSocket (i : Nat)
  | destroy (i : Nat)

namespace System

def make (system : System) : System :=
  { system with
    alive := system.made :: system.alive
    made := system.made + 1
    loose := system.made :: system.loose }

def release (system : System) (own : Option Driver) : System :=
  match own with
  | none => system
  | some driver =>
      { system with
        alive := system.alive.filter (· ≠ driver)
        misused := system.misused || decide (driver ∉ system.alive) }

/-- The server gives up its driver, and has another, or none, or is gone itself. -/
def replace (system : System) (i : Nat) (own : Option Driver) (slot : Option (Option Driver)) :
    System :=
  { system.release own with
    servers := Function.update system.servers i slot
    loose := system.loose.filter fun driver => slot ≠ some (some driver) }

def call (system : System) (own : Option Driver) : System :=
  match own with
  | none => { system with misused := true }
  | some driver => { system with misused := system.misused || decide (driver ∉ system.alive) }

end System

def perform (system : System) : Op → System
  | .construct i =>
      match system.servers i with
      | some _ => system
      | none => system.make.replace i none (some (some system.made))
  | .makeDriver => system.make
  | .setSocketDriver i sd =>
      match system.servers i with
      | none => system
      | some own => if own = sd then system else system.replace i own (some sd)
  | .createSocket i =>
      match system.servers i with
      | none => system
      | some own => system.call own
  | .destroy i =>
      match system.servers i with
      | none => system
      | some own => system.replace i own none

def step : Machine System Op Unit := fun system op => (perform system op, ())

/-- Every server's driver exists and is its own, and no driver is forgotten. -/
structure Orderly (system : System) : Prop where
  proper : system.misused = false
  exists_for : ∀ i driver, system.servers i = some (some driver) → driver ∈ system.alive
  apart : ∀ i j driver, system.servers i = some (some driver) →
    system.servers j = some (some driver) → i = j
  owned : ∀ driver ∈ system.alive,
    (∃ i, system.servers i = some (some driver)) ∨ driver ∈ system.loose

/-- A driver is handed over while it exists and to one server only, unless that server has it
already, and a server without a driver accepts no connection. -/
def Careful (system : System) : Op → Prop
  | .setSocketDriver i (some driver) => ∀ own, system.servers i = some own →
      own = some driver ∨
        driver ∈ system.alive ∧ ∀ j, system.servers j ≠ some (some driver)
  | .createSocket i => system.servers i ≠ some none
  | _ => True

structure Sound (system : System) : Prop extends Orderly system where
  numbered : ∀ driver ∈ system.alive, driver < system.made

/-! The operations. -/

theorem mem_release (system : System) (own : Option Driver) (driver : Driver) :
    driver ∈ (system.release own).alive ↔ driver ∈ system.alive ∧ own ≠ some driver := by
  cases own with
  | none => simp [System.release]
  | some other => simp [System.release, ne_comm]

theorem release_proper (system : System) (own : Option Driver) (proper : system.misused = false)
    (there : ∀ driver, own = some driver → driver ∈ system.alive) :
    (system.release own).misused = false := by
  cases own with
  | none => exact proper
  | some driver => simp [System.release, proper, there driver rfl]

theorem replace_servers (system : System) (i : Nat) (own : Option Driver)
    (slot : Option (Option Driver)) :
    (system.replace i own slot).servers = Function.update system.servers i slot := rfl

theorem replace_sound (system : System) (i : Nat) (own : Option Driver)
    (slot : Option (Option Driver)) (sound : Sound system)
    (mine : ∀ driver, own = some driver ↔ system.servers i = some (some driver))
    (free : ∀ driver, slot = some (some driver) →
      driver ∈ system.alive ∧ ∀ j, system.servers j ≠ some (some driver)) :
    Sound (system.replace i own slot) := by
  have others (j : Nat) (driver : Driver) (different : j ≠ i)
      (has : (system.replace i own slot).servers j = some (some driver)) :
      system.servers j = some (some driver) := by
    rwa [replace_servers, Function.update_of_ne different] at has
  have new (driver : Driver) (has : (system.replace i own slot).servers i = some (some driver)) :
      driver ∈ system.alive ∧ ∀ j, system.servers j ≠ some (some driver) := by
    rw [replace_servers, Function.update_self] at has
    exact free driver has
  refine ⟨⟨?_, ?_, ?_, ?_⟩, ?_⟩
  · exact release_proper system own sound.proper fun driver same =>
      sound.exists_for i driver ((mine driver).mp same)
  · intro j driver has
    refine (mem_release system own driver).mpr ?_
    by_cases same : j = i
    · rw [same] at has
      obtain ⟨there, nobody⟩ := new driver has
      exact ⟨there, fun held => nobody i ((mine driver).mp held)⟩
    · have had := others j driver same has
      exact ⟨sound.exists_for j driver had,
        fun held => same (sound.apart j i driver had ((mine driver).mp held))⟩
  · intro j k driver has also
    by_cases first : j = i
    · by_cases second : k = i
      · rw [first, second]
      · rw [first] at has
        exact absurd (others k driver second also) ((new driver has).2 k)
    · by_cases second : k = i
      · rw [second] at also
        exact absurd (others j driver first has) ((new driver also).2 j)
      · exact sound.apart j k driver (others j driver first has) (others k driver second also)
  · intro driver there
    obtain ⟨was, spared⟩ := (mem_release system own driver).mp there
    by_cases taken : slot = some (some driver)
    · exact Or.inl ⟨i, (Function.update_self ..).trans taken⟩
    rcases sound.owned driver was with ⟨j, has⟩ | loose
    · have different : j ≠ i := by
        rintro rfl
        exact spared ((mine driver).mpr has)
      exact Or.inl ⟨j, (Function.update_of_ne different ..).trans has⟩
    · exact Or.inr (List.mem_filter.mpr ⟨loose, decide_eq_true taken⟩)
  · intro driver there
    have kept : (system.release own).made = system.made := by
      cases own with
      | none => rfl
      | some _ => rfl
    change driver < (system.release own).made
    rw [kept]
    exact sound.numbered driver ((mem_release system own driver).mp there).1

theorem make_sound (system : System) (sound : Sound system) : Sound system.make := by
  refine ⟨⟨sound.proper, ?_, sound.apart, ?_⟩, ?_⟩
  · exact fun i driver has => List.mem_cons_of_mem _ (sound.exists_for i driver has)
  · intro driver there
    rcases List.mem_cons.mp there with rfl | was
    · exact Or.inr List.mem_cons_self
    · exact (sound.owned driver was).imp_right (List.mem_cons_of_mem _)
  · intro driver there
    rcases List.mem_cons.mp there with rfl | was
    · exact Nat.lt_succ_self _
    · exact Nat.lt_succ_of_lt (sound.numbered driver was)

theorem made_free (system : System) (sound : Sound system) (j : Nat) :
    system.servers j ≠ some (some system.made) :=
  fun has => Nat.lt_irrefl _ (sound.numbered _ (sound.exists_for j _ has))

theorem perform_sound (system : System) (op : Op) (sound : Sound system)
    (careful : Careful system op) : Sound (perform system op) := by
  cases op with
  | construct i =>
      rw [perform]
      cases there : system.servers i with
      | some _ => exact sound
      | none =>
          refine replace_sound system.make i none _ (make_sound system sound) ?_ ?_
          · intro driver
            refine iff_of_false (fun same => nomatch same) fun has => ?_
            exact nomatch there.symm.trans has
          · rintro driver ⟨⟩
            exact ⟨List.mem_cons_self, made_free system sound⟩
  | makeDriver => exact make_sound system sound
  | setSocketDriver i sd =>
      rw [perform]
      cases there : system.servers i with
      | none => exact sound
      | some own =>
          dsimp only
          split
          · exact sound
          · next different =>
            refine replace_sound system i own _ sound (by simp [there]) ?_
            rintro driver ⟨⟩
            exact (careful own there).resolve_left different
  | createSocket i =>
      rw [perform]
      cases there : system.servers i with
      | none => exact sound
      | some own =>
          cases own with
          | none => exact absurd there careful
          | some driver =>
              have alive := sound.exists_for i driver there
              refine ⟨⟨?_, sound.exists_for, sound.apart, sound.owned⟩, sound.numbered⟩
              simp [System.call, sound.proper, alive]
  | destroy i =>
      rw [perform]
      cases there : system.servers i with
      | none => exact sound
      | some own =>
          exact replace_sound system i own none sound (by simp [there])
            fun driver impossible => nomatch impossible

theorem perform_needs (system : System) (op : Op) (orderly : Orderly (perform system op)) :
    Careful system op := by
  cases op with
  | setSocketDriver i sd =>
      cases sd with
      | none => trivial
      | some driver =>
          intro own there
          by_cases same : own = some driver
          · exact Or.inl same
          rw [perform, there] at orderly
          simp only [if_neg same] at orderly
          have has : (system.replace i own (some (some driver))).servers i = some (some driver) :=
            Function.update_self ..
          have alive := orderly.exists_for i driver has
          refine Or.inr ⟨((mem_release system own driver).mp alive).1, fun j also => ?_⟩
          have different : j ≠ i := by
            rintro rfl
            rw [there, Option.some.injEq] at also
            exact same also
          exact different (orderly.apart j i driver
            ((Function.update_of_ne different ..).trans also) has)
  | createSocket i =>
      intro none
      have proper := orderly.proper
      rw [perform, none] at proper
      cases proper
  | construct i => trivial
  | makeDriver => trivial
  | destroy i => trivial

/-- Drivers of any number of servers: none is deleted twice, called after its end, shared or
forgotten, and no server calls one it does not have, exactly as long as drivers are handed over with
care. -/
theorem drivers_orderly_iff (ops : List Op) :
    Always step Orderly initial ops ↔ Along step Careful initial ops := by
  refine always_iff_along step Careful Sound Orderly (fun _ sound => sound.toOrderly)
    perform_sound (fun system op _ orderly => perform_needs system op orderly) initial ops ?_
  refine ⟨⟨rfl, ?_, ?_, ?_⟩, ?_⟩
  · exact fun i driver has => nomatch has
  · exact fun i j driver has => nomatch has
  · exact fun driver there => absurd there List.not_mem_nil
  · exact fun driver there => absurd there List.not_mem_nil

end Xio.Drivers
