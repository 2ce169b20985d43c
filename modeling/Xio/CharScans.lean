import Xio.Scans

/-!
The searches of `include/xio/Buffer.h` for one character. `find` is `memchr`; `rfind` runs
backwards from a given position, which is not compared with the size of the view.
-/

namespace Xio.BufferRef

open MachineWord

-- `q` runs down from the offset to the first character.
def rfindCharLoop (view : BufferRef) (value : UInt8) : Nat → Scanned Nat
  | 0 => ⟨[0], if view.byteAt 0 = value then 0 else npos⟩
  | q + 1 =>
      if view.byteAt (q + 1) = value then ⟨[q + 1], q + 1⟩
      else
        let rest := view.rfindCharLoop value q
        ⟨(q + 1) :: rest.reads, rest.result⟩

/-- `rfind(value, offset)` -/
def rfindCharFrom (view : BufferRef) (value : UInt8) (offset : Nat) : Scanned Nat :=
  if view.size = 0 then ⟨[], npos⟩ else view.rfindCharLoop value offset

def rfindChar (view : BufferRef) (value : UInt8) : Scanned Nat :=
  view.rfindCharFrom value (sub view.size 1)

end Xio.BufferRef

namespace Xio.CharScans

open Storage MachineWord Occurrences BufferRef Scans Find

def Latest (view : BufferRef) (value : UInt8) (q : Nat) : Option Nat → Prop
  | some i => i ≤ q ∧ view.byteAt i = value ∧ ∀ j, i < j → j ≤ q → view.byteAt j ≠ value
  | none => ∀ j ≤ q, view.byteAt j ≠ value

structure RunsDown (view : BufferRef) (value : UInt8) (q : Nat) (scan : Scanned Nat) : Prop where
  found : ∃ found, Latest view value q found ∧ scan.result = found.getD npos
  below : ∀ position ∈ scan.reads, position ≤ q
  first : q ∈ scan.reads

theorem rfindCharLoop_runsDown (view : BufferRef) (value : UInt8) (q : Nat) :
    RunsDown view value q (view.rfindCharLoop value q) := by
  induction q with
  | zero =>
      rw [rfindCharLoop]
      refine ⟨?_, List.forall_mem_singleton.mpr (Nat.le_refl 0), List.mem_singleton_self 0⟩
      by_cases hit : view.byteAt 0 = value
      · exact ⟨some 0, ⟨Nat.le_refl 0, hit, fun j later within => by omega⟩, if_pos hit⟩
      · refine ⟨none, fun j within => ?_, if_neg hit⟩
        rw [Nat.le_zero.mp within]
        exact hit
  | succ q ih =>
      rw [rfindCharLoop]
      split
      · next hit =>
        refine ⟨⟨some (q + 1), ⟨Nat.le_refl _, hit, fun j later within => by omega⟩, rfl⟩,
          List.forall_mem_singleton.mpr (Nat.le_refl _), List.mem_singleton_self _⟩
      · next miss =>
        obtain ⟨⟨found, latest, answer⟩, below, _⟩ := ih
        refine ⟨⟨found, ?_, answer⟩, ?_, List.mem_cons_self⟩
        · cases found with
          | none =>
              intro j within
              rcases Nat.le_succ_iff.mp within with earlier | rfl
              · exact latest j earlier
              · exact miss
          | some i =>
              refine ⟨Nat.le_succ_of_le latest.1, latest.2.1, fun j later within => ?_⟩
              rcases Nat.le_succ_iff.mp within with earlier | rfl
              · exact latest.2.2 j later earlier
              · exact miss
        · exact List.forall_mem_cons.mpr ⟨Nat.le_refl _, fun position member =>
            Nat.le_succ_of_le (below position member)⟩

theorem occurs_char (view : BufferRef) (value : UInt8) (i : Nat) :
    Occurs view.content [value] i ↔ i < view.size ∧ view.byteAt i = value := by
  rw [occurs_iff_load view [value] i (List.cons_ne_nil _ _)]
  simp [load, byteAt]

theorem latest_isLast (view : BufferRef) (value : UInt8) (found : Option Nat)
    (some_bytes : view.size ≠ 0) (latest : Latest view value (view.size - 1) found) :
    IsLast view.content [value] found := by
  cases found with
  | none =>
      intro i occurs
      obtain ⟨inside, hit⟩ := (occurs_char view value i).mp occurs
      exact latest i (by omega) hit
  | some i =>
      obtain ⟨within, hit, behind⟩ := latest
      refine ⟨(occurs_char view value i).mpr ⟨by omega, hit⟩, fun j occurs => ?_⟩
      obtain ⟨inside, also⟩ := (occurs_char view value j).mp occurs
      by_contra later
      exact behind j (by omega) (by omega) also

theorem rfindChar_mirrors (view : BufferRef) (value : UInt8) (word : view.size < 2 ^ 64) :
    Mirrors view [value] (view.rfindChar value) := by
  rw [rfindChar, rfindCharFrom]
  split
  · next empty =>
    rw [idle_mirrors_iff view [value] (List.cons_ne_nil _ _) word]
    intro i occurs
    have inside := ((occurs_char view value i).mp occurs).1
    omega
  · next bytes =>
    rw [sub_exact (by omega)]
    obtain ⟨⟨found, latest, answer⟩, below, _⟩ := rfindCharLoop_runsDown view value (view.size - 1)
    refine ⟨⟨found, latest_isLast view value found bytes latest, answer⟩, fun position member => ?_⟩
    have within := below position member
    omega

theorem rfindCharFrom_inside_iff (view : BufferRef) (value : UInt8) (offset : Nat) :
    (∀ position ∈ (view.rfindCharFrom value offset).reads, position < view.size) ↔
      view.size = 0 ∨ offset < view.size := by
  rw [rfindCharFrom]
  split
  · next empty =>
    exact iff_of_true (fun _ member => absurd member List.not_mem_nil) (Or.inl empty)
  · next bytes =>
    obtain ⟨_, below, first⟩ := rfindCharLoop_runsDown view value offset
    rw [or_iff_right bytes]
    constructor
    · exact fun inside => inside offset first
    · exact fun within position member => Nat.lt_of_le_of_lt (below position member) within

theorem found_alone (view : BufferRef) (value : UInt8) (i : Nat) (inside : i < view.size)
    (word : view.size < 2 ^ 64) (forwards : view.findChar value 0 = some i)
    (backwards : (view.rfindChar value).result = i) :
    view.byteAt i = value ∧ ∀ j, j < view.size ∧ view.byteAt j = value → j = i := by
  obtain ⟨first, leads, answer⟩ := findChar_finds view value word
  obtain ⟨last, trails, result⟩ := (rfindChar_mirrors view value word).found
  rw [forwards, Option.some.injEq] at answer
  rw [backwards] at result
  have least : first = some i := by
    cases first with
    | none => simp only [Option.getD_none, npos] at answer; omega
    | some k => rw [answer, Option.getD_some]
  have greatest : last = some i := by
    cases last with
    | none => simp only [Option.getD_none, npos] at result; omega
    | some k => rw [result, Option.getD_some]
  rw [least] at leads
  rw [greatest] at trails
  refine ⟨((occurs_char view value i).mp leads.1.2).2, fun j there => ?_⟩
  have occurs := (occurs_char view value j).mpr there
  exact Nat.le_antisymm (trails.2 occurs) (leads.2 ⟨Nat.zero_le j, occurs⟩)

theorem alone_found (view : BufferRef) (value : UInt8) (i : Nat) (inside : i < view.size)
    (hit : view.byteAt i = value) (word : view.size < 2 ^ 64)
    (alone : ∀ j, j < view.size ∧ view.byteAt j = value → j = i) :
    view.findChar value 0 = some i ∧ (view.rfindChar value).result = i := by
  obtain ⟨first, leads, answer⟩ := findChar_finds view value word
  obtain ⟨last, trails, result⟩ := (rfindChar_mirrors view value word).found
  have occurs := (occurs_char view value i).mpr ⟨inside, hit⟩
  constructor
  · cases first with
    | none => exact absurd occurs (leads i (Nat.zero_le i))
    | some k =>
        rw [answer, Option.getD_some, alone k ((occurs_char view value k).mp leads.1.2)]
  · cases last with
    | none => exact absurd occurs (trails i)
    | some k => rw [result, Option.getD_some, alone k ((occurs_char view value k).mp trails.1)]

/-- What fails for texts holds for characters: `rfind` gives the last position and reads nothing
outside, unless it is told to begin there. Together with `find` it tells whether the character
stands alone. -/
theorem char_scans_agree (view : BufferRef) (value : UInt8) (word : view.size < 2 ^ 64) :
    Mirrors view [value] (view.rfindChar value) ∧
      (∀ offset, (∀ position ∈ (view.rfindCharFrom value offset).reads, position < view.size) ↔
        view.size = 0 ∨ offset < view.size) ∧
      ((∃! i, i < view.size ∧ view.byteAt i = value) ↔
        ∃ i < view.size, view.findChar value 0 = some i ∧ (view.rfindChar value).result = i) := by
  refine ⟨rfindChar_mirrors view value word, rfindCharFrom_inside_iff view value, ?_, ?_⟩
  · rintro ⟨i, ⟨inside, hit⟩, alone⟩
    exact ⟨i, inside, alone_found view value i inside hit word alone⟩
  · rintro ⟨i, inside, forwards, backwards⟩
    obtain ⟨hit, alone⟩ := found_alone view value i inside word forwards backwards
    exact ⟨i, ⟨inside, hit⟩, alone⟩

theorem char_scans_agree_letter :
    let view : BufferRef := ⟨store (fun _ => 0) 0 [97, 98, 99], 0, 3⟩
    view.findChar 98 0 = some 1 ∧ (view.rfindChar 98).result = 1 ∧
      ∃! i, i < view.size ∧ view.byteAt i = 98 := by
  intro view
  have forwards : view.findChar 98 0 = some 1 := by decide
  have backwards : (view.rfindChar 98).result = 1 := by decide
  exact ⟨forwards, backwards, (char_scans_agree view 98 (by decide)).2.2.mpr
    ⟨1, by decide, forwards, backwards⟩⟩

end Xio.CharScans
