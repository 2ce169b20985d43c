import Mathlib.Data.List.Basic

/-!
Byte-addressed storage as a total function. A block is a function of which only
the first `capacity` cells are owned; the cells beyond stand for whatever memory
follows. `load` is a copy out, `store` a copy in (`memcpy` with disjoint ends).
No cell is ever undefined, so uninitialised memory is an arbitrary value.
-/

namespace Xio.Storage

universe u
variable {α : Type u}

abbrev Memory (α : Type u) := Nat → α

def load (memory : Memory α) (start count : Nat) : List α :=
  (List.range count).map fun i => memory (start + i)

def store (memory : Memory α) (start : Nat) (values : List α) : Memory α :=
  fun address =>
    if start ≤ address then (values[address - start]?).getD (memory address)
    else memory address

@[simp] theorem load_length (memory : Memory α) (start count : Nat) :
    (load memory start count).length = count := by
  simp [load]

@[simp] theorem load_zero (memory : Memory α) (start : Nat) : load memory start 0 = [] := rfl

theorem load_getElem? (memory : Memory α) (start count i : Nat) :
    (load memory start count)[i]? = if i < count then some (memory (start + i)) else none := by
  by_cases inside : i < count <;> simp [load, inside]

theorem load_add (memory : Memory α) (start first second : Nat) :
    load memory start (first + second) =
      load memory start first ++ load memory (start + first) second := by
  simp [load, List.range_add, Nat.add_assoc]

theorem load_succ (memory : Memory α) (start count : Nat) :
    load memory start (count + 1) = memory start :: load memory (start + 1) count := by
  rw [Nat.add_comm, load_add]
  rfl

theorem load_take (memory : Memory α) (start count n : Nat) :
    (load memory start count).take n = load memory start (min n count) := by
  simp [load, ← List.map_take, List.take_range]

theorem load_drop (memory : Memory α) (start count n : Nat) :
    (load memory start count).drop n = load memory (start + n) (count - n) := by
  apply List.ext_getElem?
  intro i
  simp only [List.getElem?_drop, load_getElem?, Nat.add_assoc]
  by_cases inside : n + i < count
  · have rest : i < count - n := by omega
    simp [inside, rest]
  · have past : ¬ i < count - n := by omega
    simp [inside, past]

theorem load_congr (left right : Memory α) (start count : Nat)
    (same : ∀ address, start ≤ address → address < start + count →
      left address = right address) :
    load left start count = load right start count := by
  apply List.map_congr_left
  intro i member
  have inside := List.mem_range.mp member
  exact same (start + i) (by omega) (by omega)

theorem store_outside (memory : Memory α) (start address : Nat) (values : List α)
    (outside : address < start ∨ start + values.length ≤ address) :
    store memory start values address = memory address := by
  unfold store
  split
  · have past : values[address - start]? = none := List.getElem?_eq_none (by omega)
    simp [past]
  · rfl

theorem load_store_before (memory : Memory α) (start count position : Nat) (values : List α)
    (before : start + count ≤ position) :
    load (store memory position values) start count = load memory start count := by
  apply load_congr
  intro address _ inside
  exact store_outside memory position address values (Or.inl (by omega))

@[simp] theorem store_nil (memory : Memory α) (start : Nat) : store memory start [] = memory := by
  funext address
  exact store_outside memory start address [] (by simp; omega)

theorem load_store_self (memory : Memory α) (start : Nat) (values : List α) :
    load (store memory start values) start values.length = values := by
  apply List.ext_getElem?
  intro i
  rw [load_getElem?]
  by_cases inside : i < values.length
  · simp [inside, store]
  · simp [inside]

-- Storing at the end of a window extends it.
theorem load_store_behind (memory : Memory α) (count : Nat) (values : List α) :
    load (store memory count values) 0 (count + values.length) = load memory 0 count ++ values := by
  rw [load_add, Nat.zero_add, load_store_self, load_store_before _ _ _ _ _ (by omega)]

theorem load_store_append (memory : Memory α) (start : Nat) (values rest : List α) :
    load (store memory start (values ++ rest)) start values.length = values := by
  have whole := congrArg (List.take values.length) (load_store_self memory start (values ++ rest))
  rwa [load_take, List.take_left, Nat.min_eq_left (by simp)] at whole

end Xio.Storage
