import Mathlib.Data.List.Basic

/-!
Finite runs of a deterministic machine. Whatever the environment decides is part
of the input or of the state, so a run is a fold and every interleaving is some
list of inputs. The rules below turn facts about one step into facts about all
states a run reaches.
-/

namespace Xio.Runs

universe u v w x
variable {State : Type u} {Input : Type v} {Output : Type w}

abbrev Machine (State : Type u) (Input : Type v) (Output : Type w) :=
  State → Input → State × Output

def final (step : Machine State Input Output) : State → List Input → State
  | state, [] => state
  | state, input :: rest => final step (step state input).1 rest

def outputs (step : Machine State Input Output) : State → List Input → List Output
  | _, [] => []
  | state, input :: rest => (step state input).2 :: outputs step (step state input).1 rest

/-- Every state of the run, the first and the last included, satisfies `holds`. -/
def Always (step : Machine State Input Output) (holds : State → Prop) :
    State → List Input → Prop
  | state, [] => holds state
  | state, input :: rest => holds state ∧ Always step holds (step state input).1 rest

/-- Every step of the run is taken in a state and with an input that meet `guard`. -/
def Along (step : Machine State Input Output) (guard : State → Input → Prop) :
    State → List Input → Prop
  | _, [] => True
  | state, input :: rest => guard state input ∧ Along step guard (step state input).1 rest

section Invariants
variable (step : Machine State Input Output) (guard : State → Input → Prop)
variable (holds : State → Prop)

theorem always_final (state : State) (inputs : List Input)
    (always : Always step holds state inputs) : holds (final step state inputs) := by
  induction inputs generalizing state with
  | nil => exact always
  | cons input rest ih => exact ih _ always.2

theorem always_mono (weaker : State → Prop) (implied : ∀ state, holds state → weaker state)
    (state : State) (inputs : List Input) (always : Always step holds state inputs) :
    Always step weaker state inputs := by
  induction inputs generalizing state with
  | nil => exact implied _ always
  | cons input rest ih => exact ⟨implied _ always.1, ih _ always.2⟩

theorem along_of_forall (state : State) (inputs : List Input)
    (each : ∀ input ∈ inputs, ∀ state, guard state input) : Along step guard state inputs := by
  induction inputs generalizing state with
  | nil => trivial
  | cons input rest ih =>
      rw [List.forall_mem_cons] at each
      exact ⟨each.1 state, ih _ each.2⟩

theorem along_inputs_iff (allowed : Input → Prop) (state : State) (inputs : List Input) :
    Along step (fun _ input => allowed input) state inputs ↔ ∀ input ∈ inputs, allowed input := by
  induction inputs generalizing state with
  | nil => exact iff_of_true trivial (List.forall_mem_nil _)
  | cons input rest ih =>
      rw [List.forall_mem_cons]
      exact and_congr_right fun _ => ih _

/-- The invariant rule: an invariant that guarded steps keep holds in every state
of a guarded run. -/
theorem always_of_along
    (kept : ∀ state input, holds state → guard state input → holds (step state input).1)
    (state : State) (inputs : List Input) (start : holds state)
    (guarded : Along step guard state inputs) : Always step holds state inputs := by
  induction inputs generalizing state with
  | nil => exact start
  | cons input rest ih =>
      exact ⟨start, ih _ (kept state input start guarded.1) guarded.2⟩

/-- Where a step that breaks the guard breaks what is to be shown, of the next state or of
the step itself, the guarded runs are exactly the runs on which nothing fails. -/
theorem always_along_iff_along (shown : State → Prop) (shows : State → Input → Prop)
    (implied : ∀ state, holds state → shown state)
    (kept : ∀ state input, holds state → guard state input →
      holds (step state input).1 ∧ shows state input)
    (needed : ∀ state input, holds state → shown (step state input).1 → shows state input →
      guard state input)
    (state : State) (inputs : List Input) (start : holds state) :
    (Always step shown state inputs ∧ Along step shows state inputs) ↔
      Along step guard state inputs := by
  induction inputs generalizing state with
  | nil => exact ⟨fun _ => trivial, fun _ => ⟨implied state start, trivial⟩⟩
  | cons input rest ih =>
      constructor
      · rintro ⟨⟨_, always⟩, here, along⟩
        have next : shown (step state input).1 := by
          cases rest with
          | nil => exact always
          | cons _ _ => exact always.1
        have guarded := needed state input start next here
        exact ⟨guarded, (ih _ (kept state input start guarded).1).mp ⟨always, along⟩⟩
      · rintro ⟨guarded, along⟩
        have after := kept state input start guarded
        have tail := (ih _ after.1).mpr along
        exact ⟨⟨implied state start, tail.1⟩, after.2, tail.2⟩

theorem always_iff_along (shown : State → Prop)
    (implied : ∀ state, holds state → shown state)
    (kept : ∀ state input, holds state → guard state input → holds (step state input).1)
    (needed : ∀ state input, holds state → shown (step state input).1 → guard state input)
    (state : State) (inputs : List Input) (start : holds state) :
    Always step shown state inputs ↔ Along step guard state inputs := by
  have both := always_along_iff_along step guard holds shown (fun _ _ => True) implied
    (fun state input held guarded => ⟨kept state input held guarded, trivial⟩)
    (fun state input held next _ => needed state input held next) state inputs start
  rw [← both]
  exact (and_iff_left (along_of_forall step _ state inputs fun _ _ _ => trivial)).symm

theorem along_of_along (shown : State → Input → Prop)
    (kept : ∀ state input, holds state → guard state input → holds (step state input).1)
    (implied : ∀ state input, holds state → guard state input → shown state input)
    (state : State) (inputs : List Input) (start : holds state)
    (guarded : Along step guard state inputs) : Along step shown state inputs := by
  induction inputs generalizing state with
  | nil => trivial
  | cons input rest ih =>
      exact ⟨implied state input start guarded.1,
        ih _ (kept state input start guarded.1) guarded.2⟩

theorem along_and (also : State → Input → Prop) (state : State) (inputs : List Input)
    (first : Along step guard state inputs) (second : Along step also state inputs) :
    Along step (fun state input => guard state input ∧ also state input) state inputs := by
  induction inputs generalizing state with
  | nil => trivial
  | cons input rest ih => exact ⟨⟨first.1, second.1⟩, ih _ first.2 second.2⟩

/-- Where a step shows the property exactly when it meets the guard, so do runs, up to the
first step that does neither. Steps outside `domain` are not considered. -/
theorem along_iff_along (domain shown : State → Input → Prop)
    (kept : ∀ state input, holds state → domain state input → guard state input →
      holds (step state input).1)
    (exact_step : ∀ state input, holds state → domain state input →
      (shown state input ↔ guard state input))
    (state : State) (inputs : List Input) (start : holds state)
    (inside : Along step domain state inputs) :
    Along step shown state inputs ↔ Along step guard state inputs := by
  induction inputs generalizing state with
  | nil => exact Iff.rfl
  | cons input rest ih =>
      have here := exact_step state input start inside.1
      constructor
      · intro along
        have guarded := here.mp along.1
        exact ⟨guarded, (ih _ (kept state input start inside.1 guarded) inside.2).mp along.2⟩
      · intro along
        exact ⟨here.mpr along.1,
          (ih _ (kept state input start inside.1 along.1) inside.2).mpr along.2⟩

end Invariants

section Replay
variable {View : Type x}

/-- If each step changes a view of the state as `model` says, given what the step showed,
then the view after a run is the replay of its inputs and observations. -/
theorem replayed (step : Machine State Input Output) (guard : State → Input → Prop)
    (holds : State → Prop) (view : State → View) (model : View → Input × Output → View)
    (kept : ∀ state input, holds state → guard state input → holds (step state input).1)
    (matched : ∀ state input, holds state → guard state input →
      view (step state input).1 = model (view state) (input, (step state input).2))
    (state : State) (inputs : List Input) (start : holds state)
    (guarded : Along step guard state inputs) :
    view (final step state inputs) =
      (inputs.zip (outputs step state inputs)).foldl model (view state) := by
  induction inputs generalizing state with
  | nil => rfl
  | cons input rest ih =>
      simp only [final, outputs, List.zip_cons_cons, List.foldl_cons]
      rw [ih _ (kept state input start guarded.1) guarded.2, matched state input start guarded.1]

end Replay

section Conservation
variable {Amount : Type x} (join : Amount → Amount → Amount) (unit : Amount)
variable [grouped : Std.Associative join] [neutral : Std.LawfulIdentity join unit]

def total (measure : Output → Amount) (observed : List Output) : Amount :=
  (observed.map measure).foldr join unit

/-- A queue-like ledger: if every step gives out at the front what it does not keep,
then over the run what was given out, followed by what is still held, is what was
held at the start followed by everything taken in. Amounts need not commute. -/
theorem conserved (step : Machine State Input Output) (guard : State → Input → Prop)
    (holds : State → Prop) (held : State → Amount) (given taken : Output → Amount)
    (kept : ∀ state input, holds state → guard state input → holds (step state input).1)
    (balanced : ∀ state input, holds state → guard state input →
      join (given (step state input).2) (held (step state input).1) =
        join (held state) (taken (step state input).2))
    (state : State) (inputs : List Input) (start : holds state)
    (guarded : Along step guard state inputs) :
    join (total join unit given (outputs step state inputs)) (held (final step state inputs)) =
      join (held state) (total join unit taken (outputs step state inputs)) := by
  induction inputs generalizing state with
  | nil =>
      simp only [outputs, final, total, List.map_nil, List.foldr_nil]
      rw [neutral.left_id, neutral.right_id]
  | cons input rest ih =>
      have tail := ih _ (kept state input start guarded.1) guarded.2
      simp only [total] at tail
      simp only [outputs, final, total, List.map_cons, List.foldr_cons]
      rw [grouped.assoc, tail, ← grouped.assoc, balanced state input start guarded.1,
        grouped.assoc]

omit grouped in
theorem total_unit (step : Machine State Input Output) (measure : Output → Amount) (state : State)
    (inputs : List Input)
    (idle : Along step (fun state input => measure (step state input).2 = unit) state inputs) :
    total join unit measure (outputs step state inputs) = unit := by
  induction inputs generalizing state with
  | nil => rfl
  | cons input rest ih =>
      have tail := ih _ idle.2
      simp only [total] at tail
      simp only [outputs, total, List.map_cons, List.foldr_cons]
      rw [tail, idle.1, neutral.left_id]

end Conservation

section Simulation
variable {Abstract : Type x}

/-- Forward simulation: related states stay related and show the same observation. -/
theorem simulated (step : Machine State Input Output)
    (model : Machine Abstract Input Output) (related : State → Abstract → Prop)
    (guard : State → Input → Prop)
    (forward : ∀ state abstract input, related state abstract → guard state input →
      related (step state input).1 (model abstract input).1 ∧
        (step state input).2 = (model abstract input).2)
    (state : State) (abstract : Abstract) (inputs : List Input)
    (start : related state abstract) (guarded : Along step guard state inputs) :
    related (final step state inputs) (final model abstract inputs) ∧
      outputs step state inputs = outputs model abstract inputs := by
  induction inputs generalizing state abstract with
  | nil => exact ⟨start, rfl⟩
  | cons input rest ih =>
      have matched := forward state abstract input start guarded.1
      have tail := ih _ _ matched.1 guarded.2
      refine ⟨tail.1, ?_⟩
      simp only [outputs, matched.2, tail.2]

end Simulation

end Xio.Runs
