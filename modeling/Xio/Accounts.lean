import Mathlib.Data.List.Flatten
import Xio.Runs

/-!
Ledgers with many accounts. Amounts are lists of items, one list for each account, and are
joined account by account; with them the rule of conservation of a run speaks of every
account at once, however the steps of the accounts interleave. Where a step may also forfeit
what it holds, amounts are numbers and the rule is a bound.
-/

namespace Xio.Accounts

open Runs

universe u v w
variable {Account : Type u} {Item : Type v}

abbrev Ledger (Account : Type u) (Item : Type v) := Account → List Item

def join (left right : Ledger Account Item) : Ledger Account Item :=
  fun account => left account ++ right account

def blank : Ledger Account Item := fun _ => []

def only [DecidableEq Account] (account : Account) (items : List Item) : Ledger Account Item :=
  fun other => if other = account then items else []

instance : Std.Associative (join : Ledger Account Item → Ledger Account Item → _) where
  assoc left middle right := by
    funext account
    exact List.append_assoc ..

instance : Std.LawfulIdentity (join : Ledger Account Item → Ledger Account Item → _) blank where
  left_id _ := rfl
  right_id ledger := by
    funext account
    exact List.append_nil _

@[simp] theorem only_self [DecidableEq Account] (account : Account) (items : List Item) :
    only account items account = items :=
  if_pos rfl

theorem only_other [DecidableEq Account] (account other : Account) (items : List Item)
    (apart : other ≠ account) : only account items other = [] :=
  if_neg apart

theorem total_at {Output : Type w} (measure : Output → Ledger Account Item)
    (observed : List Output) (account : Account) :
    total join blank measure observed account =
      (observed.map fun seen => measure seen account).flatten := by
  induction observed with
  | nil => rfl
  | cons seen rest ih =>
      rw [List.map_cons, List.flatten_cons, ← ih]
      rfl

/-- If every step pays for what it shows with what it is given or what is held, a run shows no
more than it was given and had. -/
theorem bounded {State Input Output : Type*} (step : Machine State Input Output)
    (guard : State → Input → Prop) (held : State → Nat) (given : Input → Bool)
    (shown : Output → Bool)
    (paid : ∀ state input, guard state input →
      (if shown (step state input).2 then 1 else 0) + held (step state input).1 ≤
        held state + if given input then 1 else 0)
    (state : State) (inputs : List Input) (guarded : Along step guard state inputs) :
    (outputs step state inputs).countP shown + held (final step state inputs) ≤
      held state + inputs.countP given := by
  induction inputs generalizing state with
  | nil => exact Nat.le_of_eq (Nat.zero_add _)
  | cons input rest ih =>
      have here := paid state input guarded.1
      have later := ih (step state input).1 guarded.2
      rw [outputs, final, List.countP_cons, List.countP_cons]
      omega

end Xio.Accounts
