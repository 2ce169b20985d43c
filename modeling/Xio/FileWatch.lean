import Xio.Runs
import Xio.Socket

/-!
The inotify watch of a `File` in `lib/File.cpp`. The watch descriptors that are live are kept
in a table of their own, which records a removal of one that is not. `updateCache` removes
the stored watch where it is negative, and so where there is none.
-/

namespace Xio

structure File where
  inotify : Int

namespace Inotify

def add (table : Descriptors) (outcome : Option Nat) : Int × Descriptors :=
  match outcome with
  | none => (-1, table)
  | some wd => (wd, table.obtain wd)

def remove (table : Descriptors) (wd : Int) : Descriptors := table.close wd

end Inotify

namespace File

def create : File := ⟨-1⟩

def updateCache (file : File) (outcome : Option Nat) (table : Descriptors) : File × Descriptors :=
  let table := if file.inotify < 0 then Inotify.remove table file.inotify else table
  let added := Inotify.add table outcome
  (⟨added.1⟩, added.2)

def clearCache (file : File) (table : Descriptors) : File × Descriptors :=
  if file.inotify ≠ -1 then (⟨-1⟩, Inotify.remove table file.inotify) else (file, table)

/-- The destructor has the body of `clearCache`. -/
def destroy (file : File) (table : Descriptors) : File × Descriptors := file.clearCache table

end File

namespace FileWatch

open Runs File

structure System where
  file : File
  table : Descriptors

def initial : System := ⟨.create, [], false⟩

inductive Op where
  | updateCache (outcome : Option Nat)
  | clearCache

def perform (system : System) : Op → System
  | .updateCache outcome =>
      let after := system.file.updateCache outcome system.table
      ⟨after.1, after.2⟩
  | .clearCache =>
      let after := system.file.clearCache system.table
      ⟨after.1, after.2⟩

def step : Machine System Op Unit := fun system op => (perform system op, ())

/-- No removal went wrong, and there is at most one live watch, the stored one. -/
structure Tidy (system : System) : Prop where
  clean : system.table.misclosed = false
  single : system.table.opened.length ≤ 1
  stored : ∀ wd ∈ system.table.opened, wd = system.file.inotify

def Released (system : System) : Prop :=
  (system.file.destroy system.table).2.opened = [] ∧
    (system.file.destroy system.table).2.misclosed = false

-- Without a watch there is nothing to clear.
theorem clearCache_initial : perform initial .clearCache = initial := rfl

theorem updateCache_initial (outcome : Option Nat) :
    (perform initial (.updateCache outcome)).table.misclosed = true := by
  cases outcome <;> rfl

theorem tidy_initial : Tidy initial :=
  ⟨rfl, Nat.zero_le 1, fun _ member => absurd member List.not_mem_nil⟩

-- A clearing run never leaves the initial state.
theorem cleared_initial (ops : List Op) (cleared : ∀ op ∈ ops, op = .clearCache) :
    final step initial ops = initial := by
  apply always_final step (· = initial)
  apply always_of_along step (fun _ op => op = .clearCache)
  · rintro system op rfl rfl
    exact clearCache_initial
  · rfl
  · exact (along_inputs_iff step _ initial ops).mpr cleared

theorem tidy_iff_cleared (ops : List Op) :
    Always step Tidy initial ops ↔ ∀ op ∈ ops, op = .clearCache := by
  rw [← along_inputs_iff step (· = .clearCache) initial ops]
  apply always_iff_along step _ (· = initial) Tidy
  · rintro system rfl
    exact tidy_initial
  · rintro system op rfl rfl
    exact clearCache_initial
  · rintro system op rfl tidy
    cases op with
    | clearCache => rfl
    | updateCache outcome =>
        have clean : (perform initial (.updateCache outcome)).table.misclosed = false := tidy.clean
        rw [updateCache_initial outcome] at clean
        cases clean
  · rfl

/-- The watches of a `File` are in order along exactly the runs that never refresh it. -/
theorem watch_bookkeeping_iff (ops : List Op) :
    (Always step Tidy initial ops ∧ Released (final step initial ops)) ↔
      ∀ op ∈ ops, op = .clearCache := by
  constructor
  · rintro ⟨tidy, _⟩
    exact (tidy_iff_cleared ops).mp tidy
  · intro cleared
    refine ⟨(tidy_iff_cleared ops).mpr cleared, ?_⟩
    rw [cleared_initial ops cleared]
    exact ⟨rfl, rfl⟩

/-- The first refresh removes -1; the second leaves two watches, and the destructor only
removes one of them. -/
theorem refresh_leaks_watch :
    (final step initial [.updateCache (some 1)]).table.misclosed = true ∧
      (final step initial [.updateCache (some 1), .updateCache (some 2)]).table.opened = [2, 1] ∧
      ¬ Released (final step initial [.updateCache (some 1), .updateCache (some 2)]) := by
  refine ⟨rfl, rfl, fun released => ?_⟩
  cases released.1

end FileWatch

end Xio
