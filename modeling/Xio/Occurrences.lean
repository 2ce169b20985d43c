import Mathlib.Data.List.Basic
import Mathlib.Data.List.Infix
import Mathlib.Order.Bounds.Basic

/-!
Where a list stands in another one, and searching for it from left to right. The test of
a position may be undefined; the search is then undefined from the first such position
on. Splitting at the first occurrence, again and again, is undone by joining.
-/

namespace Xio.Occurrences

universe u v
variable {α : Type u}

def Occurs (text pattern : List α) (i : Nat) : Prop := pattern <+: text.drop i

theorem Occurs.end_le {text pattern : List α} {i : Nat} (occurs : Occurs text pattern i)
    (nonempty : pattern ≠ []) : i + pattern.length ≤ text.length := by
  have shorter := List.IsPrefix.length_le occurs
  have positive := List.length_pos_iff.mpr nonempty
  rw [List.length_drop] at shorter
  omega

theorem Occurs.splits {text pattern : List α} {i : Nat} (occurs : Occurs text pattern i) :
    text.take i ++ pattern ++ text.drop (i + pattern.length) = text := by
  obtain ⟨rest, whole⟩ := occurs
  have behind : text.drop (i + pattern.length) = rest := by
    rw [← List.drop_drop, ← whole, List.drop_left]
  rw [behind, List.append_assoc, whole, List.take_append_drop]

theorem infix_iff_occurs (text pattern : List α) :
    pattern <:+: text ↔ ∃ i, Occurs text pattern i := by
  constructor
  · rintro ⟨before, after, rfl⟩
    refine ⟨before.length, after, ?_⟩
    rw [List.append_assoc, List.drop_left]
  · rintro ⟨i, occurs⟩
    exact ⟨text.take i, text.drop (i + pattern.length), occurs.splits⟩

/-- The first position from `offset` on, or `none` if there is none. -/
def IsFirst (text pattern : List α) (offset : Nat) : Option Nat → Prop
  | some i => IsLeast { i | offset ≤ i ∧ Occurs text pattern i } i
  | none => ∀ i, offset ≤ i → ¬ Occurs text pattern i

def IsLast (text pattern : List α) : Option Nat → Prop
  | some i => IsGreatest { i | Occurs text pattern i } i
  | none => ∀ i, ¬ Occurs text pattern i

theorem last_split (holds : α → Prop) (list : List α) : (∀ element ∈ list, ¬ holds element) ∨
    ∃ before last after, list = before ++ last :: after ∧ holds last ∧
      ∀ element ∈ after, ¬ holds element := by
  induction list with
  | nil => exact Or.inl (List.forall_mem_nil _)
  | cons first rest ih =>
      rcases ih with none | ⟨before, last, after, rfl, found, none⟩
      · by_cases here : holds first
        · exact Or.inr ⟨[], first, rest, rfl, here, none⟩
        · exact Or.inl (List.forall_mem_cons.mpr ⟨here, none⟩)
      · exact Or.inr ⟨first :: before, last, after, rfl, found, none⟩

/-! Searching. -/

def search (test : Nat → Option Bool) : Nat → Nat → Option (Option Nat)
  | 0, _ => some none
  | count + 1, i =>
      match test i with
      | none => none
      | some true => some (some i)
      | some false => search test count (i + 1)

def Passed (test : Nat → Option Bool) (i j : Nat) : Prop :=
  ∀ k, i ≤ k → k < j → test k = some false

theorem passed_cons {test : Nat → Option Bool} {i j : Nat} (here : test i = some false)
    (rest : Passed test (i + 1) j) : Passed test i j := by
  intro k first last
  rcases Nat.eq_or_lt_of_le first with same | later
  · rw [← same]
    exact here
  · exact rest k later last

theorem search_cases (test : Nat → Option Bool) (count i : Nat) :
    (∃ j, i ≤ j ∧ j < i + count ∧ Passed test i j ∧ test j = some true ∧
        search test count i = some (some j)) ∨
      (∃ j, i ≤ j ∧ j < i + count ∧ test j = none ∧ search test count i = none) ∨
      (Passed test i (i + count) ∧ search test count i = some none) := by
  induction count generalizing i with
  | zero => exact Or.inr (Or.inr ⟨fun k first last => by omega, rfl⟩)
  | succ count ih =>
      have none_before : Passed test i i := fun k first last => by omega
      cases here : test i with
      | none =>
          exact Or.inr (Or.inl ⟨i, Nat.le_refl i, by omega, here, by simp only [search, here]⟩)
      | some found =>
          cases found with
          | true =>
              exact Or.inl ⟨i, Nat.le_refl i, by omega, none_before, here,
                by simp only [search, here]⟩
          | false =>
              have next : search test (count + 1) i = search test count (i + 1) := by
                simp only [search, here]
              rw [next]
              rcases ih (i + 1) with ⟨j, first, last, passed, hit, found⟩ |
                ⟨j, first, last, undefined_test, undefined_search⟩ | ⟨passed, found⟩
              · exact Or.inl ⟨j, by omega, by omega, passed_cons here passed, hit, found⟩
              · exact Or.inr (Or.inl ⟨j, by omega, by omega, undefined_test, undefined_search⟩)
              · refine Or.inr (Or.inr ⟨passed_cons here ?_, found⟩)
                rw [Nat.add_comm count 1, ← Nat.add_assoc]
                exact passed

theorem search_inside {test : Nat → Option Bool} {count i j : Nat}
    (found : search test count i = some (some j)) : j < i + count := by
  rcases search_cases test count i with
    ⟨k, _, last, _, _, result⟩ | ⟨_, _, _, _, result⟩ | ⟨_, result⟩
  all_goals
    rw [found] at result
    cases result
  exact last

/-- A search with a defined test finds the first occurrence exactly if every hit has an
occurrence at or before it. -/
theorem search_isFirst_iff (text pattern : List α) (hit : Nat → Prop) [DecidablePred hit]
    (offset count : Nat)
    (complete : ∀ i, offset ≤ i → Occurs text pattern i → i < offset + count ∧ hit i) :
    (∃ found, search (fun i => some (decide (hit i))) count offset = some found ∧
        IsFirst text pattern offset found) ↔
      ∀ i, offset ≤ i → i < offset + count → hit i →
        ∃ j, offset ≤ j ∧ j ≤ i ∧ Occurs text pattern j := by
  have missed : ∀ k, some (decide (hit k)) = some false ↔ ¬ hit k := by simp
  rcases search_cases (fun i => some (decide (hit i))) count offset with
    ⟨j, first, last, passed, hits, found⟩ | ⟨j, _, _, undefined_test, _⟩ | ⟨passed, found⟩
  · have hits_here : hit j := by simpa using hits
    have earliest : ∀ i, offset ≤ i → Occurs text pattern i → j ≤ i := by
      intro i from_offset occurs
      by_contra before
      exact (missed i).mp (passed i from_offset (by omega)) (complete i from_offset occurs).2
    rw [found]
    constructor
    · rintro ⟨_, ⟨⟩, least⟩ i from_offset _ hit_i
      have at_or_before : j ≤ i := by
        by_contra before
        exact (missed i).mp (passed i from_offset (by omega)) hit_i
      exact ⟨j, first, at_or_before, least.1.2⟩
    · intro covered
      obtain ⟨k, from_offset, before, occurs⟩ := covered j first last hits_here
      have same : k = j := Nat.le_antisymm before (earliest k from_offset occurs)
      rw [same] at occurs
      exact ⟨some j, rfl, ⟨first, occurs⟩, fun i both => earliest i both.1 both.2⟩
  · cases undefined_test
  · rw [found]
    constructor
    · rintro _ i from_offset inside hit_i
      exact absurd hit_i ((missed i).mp (passed i from_offset inside))
    · intro _
      refine ⟨none, rfl, ?_⟩
      intro i from_offset occurs
      obtain ⟨inside, hit_i⟩ := complete i from_offset occurs
      exact (missed i).mp (passed i from_offset inside) hit_i

theorem search_blind_iff (text pattern : List α) (bad : Nat → Prop) [DecidablePred bad]
    (offset count : Nat)
    (complete : ∀ i, offset ≤ i → Occurs text pattern i → i < offset + count) :
    (∃ found, search (fun i => if bad i then none else some false) count offset = some found ∧
        IsFirst text pattern offset found) ↔
      ∀ i, offset ≤ i → i < offset + count → ¬ Occurs text pattern i ∧ ¬ bad i := by
  have passes : ∀ k, (if bad k then none else some false) = some false ↔ ¬ bad k := by simp
  rcases search_cases (fun i => if bad i then none else some false) count offset with
    ⟨j, _, _, _, hits, _⟩ | ⟨j, first, last, undefined_test, undefined_search⟩ | ⟨passed, found⟩
  · split at hits <;> cases hits
  · rw [undefined_search]
    constructor
    · rintro ⟨_, found, _⟩
      cases found
    · intro fine
      exact absurd undefined_test (by simp [(fine j first last).2])
  · rw [found]
    constructor
    · rintro ⟨_, ⟨⟩, absent⟩ i from_offset inside
      exact ⟨absent i from_offset, (passes i).mp (passed i from_offset inside)⟩
    · intro fine
      exact ⟨none, rfl, fun i from_offset occurs =>
        (fine i from_offset (complete i from_offset occurs)).1 occurs⟩

/-! Splitting again and again. -/

/-- The first components and the last remainder; `none` if a split fails or the rounds do
not suffice. -/
def pieces {View : Type v} (split : View → Option (View × View)) (more : View → Bool) :
    Nat → View → Option (List View)
  | 0, _ => none
  | rounds + 1, view =>
      if more view then
        match split view with
        | none => none
        | some (first, rest) => (pieces split more rounds rest).map (first :: ·)
      else some [view]

theorem pieces_join {View : Type v} (split : View → Option (View × View)) (more : View → Bool)
    (content : View → List α) (delimiter : List α) (nonempty : delimiter ≠ [])
    (sound : View → Prop)
    (splits : ∀ view, sound view → more view = true →
      ∃ first rest, split view = some (first, rest) ∧ sound rest ∧
        content first ++ delimiter ++ content rest = content view)
    (rounds : Nat) (view : View) (holds : sound view) (enough : (content view).length < rounds) :
    ∃ parts, pieces split more rounds view = some parts ∧ parts ≠ [] ∧
      delimiter.intercalate (parts.map content) = content view := by
  induction rounds generalizing view with
  | zero => exact absurd enough (Nat.not_lt_zero _)
  | succ rounds ih =>
      by_cases again : more view = true
      · obtain ⟨first, rest, done, rest_holds, whole⟩ := splits view holds again
        -- the delimiter is gone, so the remainder is shorter
        have shorter : (content rest).length < rounds := by
          have positive := List.length_pos_iff.mpr nonempty
          have lengths := congrArg List.length whole
          simp only [List.length_append] at lengths
          omega
        obtain ⟨parts, split_rest, some_parts, joined⟩ := ih rest rest_holds shorter
        refine ⟨first :: parts, ?_, List.cons_ne_nil _ _, ?_⟩
        · simp only [pieces, if_pos again, done, split_rest, Option.map_some]
        · have some_contents : parts.map content ≠ [] := by simpa using some_parts
          obtain ⟨head, tail, cons⟩ := List.exists_cons_of_ne_nil some_contents
          rw [List.map_cons, cons, List.intercalate_cons_cons, ← cons, joined, whole]
      · exact ⟨[view], by simp only [pieces, if_neg again], List.cons_ne_nil _ _,
          List.intercalate_singleton⟩

end Xio.Occurrences
