import Mathlib.Order.Bounds.Basic
import Xio.BufferAppend

/-!
One capacity change of a `Buffer` as its caller sees it: what a refused change leaves
behind, and what a granted growth provides. The caller knows only the `bool`, so each
statement is about what that answer entails, whatever `realloc` does.
-/

namespace Xio.Capacity

open Storage MachineWord Environment MutableBuffer BufferAppend

theorem setCapacity_of_larger (buffer : Buffer) (value : Nat) (heap : Heap)
    (larger : buffer.capacity < value) :
    Buffer.setCapacity buffer value heap =
      Buffer.reallocate buffer (asked buffer value) heap := by
  have kept : ¬ (value = 0 ∧ buffer.capacity ≠ 0) := by omega
  simp only [Buffer.setCapacity, if_neg kept, if_pos larger, asked]

theorem reserve_of_larger (buffer : Buffer) (value : Nat) (heap : Heap)
    (larger : buffer.capacity < value) :
    buffer.reserve value heap = Buffer.reallocate buffer (asked buffer value) heap := by
  rw [reserve, if_pos (Or.inl larger)]
  exact setCapacity_of_larger buffer value heap larger

theorem setCapacity_of_smaller (buffer : Buffer) (value : Nat) (heap : Heap)
    (positive : 0 < value) (smaller : value < buffer.capacity) :
    Buffer.setCapacity buffer value heap =
      Buffer.reallocate { buffer with size := if value < buffer.size then value else buffer.size }
        value heap := by
  have kept : ¬ (value = 0 ∧ buffer.capacity ≠ 0) := by omega
  have idle : ¬ buffer.capacity < value := by omega
  simp only [Buffer.setCapacity, if_neg kept, if_neg idle, if_pos smaller]

/-! A refused change. -/

theorem reallocate_refused (buffer : Buffer) (value : Nat) (heap : Heap)
    (refused : (Buffer.reallocate buffer value heap).ok = false) :
    (Buffer.reallocate buffer value heap).buffer = buffer := by
  simp only [Buffer.reallocate] at refused ⊢
  split
  · simp_all
  split
  · simp_all
  · rfl

-- A reservation only ever grows, so it has nothing to cut.
theorem reserve_refused {ensure : Ensure} (buffer : MutableBuffer ensure) (value : Nat)
    (heap : Heap) (refused : (buffer.reserve value heap).ok = false) :
    (buffer.reserve value heap).buffer = buffer := by
  cases ensure with
  | immutableEnsure => rfl
  | mutableEnsure =>
      by_cases larger : buffer.capacity < value
      · rw [reserve_of_larger buffer value heap larger] at refused ⊢
        exact reallocate_refused buffer _ heap refused
      · simp only [reserve, larger, false_or] at refused ⊢
        split
        · rename_i zero
          subst zero
          by_cases unbacked : buffer.capacity = 0
          · simp [Buffer.setCapacity, unbacked]
          · simp [Buffer.setCapacity, unbacked] at refused
        · rfl

def Logged (heap : Heap) (after : Reserved .mutableEnsure) : Prop :=
  ∃ made, after.heap.calls = made ++ heap.calls ∧
    ((∀ call ∈ made, call.refused = false) → after.ok = true)

theorem reallocate_logged (buffer : Buffer) (value : Nat) (heap : Heap) :
    Logged heap (Buffer.reallocate buffer value heap) := by
  simp only [Buffer.reallocate]
  split
  · exact ⟨[_], rfl, fun _ => rfl⟩
  · rename_i denied
    split
    · exact ⟨[_], rfl, fun _ => rfl⟩
    · rename_i nonzero
      refine ⟨[_], rfl, ?_⟩
      intro unrefused
      have answered := List.forall_mem_singleton.mp unrefused
      simp [Call.refused, denied, nonzero] at answered

theorem reserve_logged (buffer : Buffer) (value : Nat) (heap : Heap) :
    Logged heap (buffer.reserve value heap) := by
  simp only [reserve, Buffer.setCapacity]
  split
  · split
    · exact ⟨[_], rfl, fun _ => rfl⟩
    split
    · exact reallocate_logged buffer _ heap
    split
    · exact reallocate_logged _ value heap
    · exact ⟨[], rfl, fun _ => rfl⟩
  · exact ⟨[], rfl, fun _ => rfl⟩

theorem pushBack_logged (buffer : Buffer) (value : List UInt8) (heap : Heap) (valid : buffer.Valid)
    (inMemory : value.length < addressSpace) :
    ∃ made, (buffer.pushBack value heap).2.calls = made ++ heap.calls ∧
      ((∀ call ∈ made, call.refused = false) →
        (buffer.pushBack value heap).1.size = buffer.size + value.length) := by
  simp only [MutableBuffer.pushBack]
  by_cases nothing : value.length = 0
  · rw [if_pos nothing]
    exact ⟨[], rfl, fun _ => by rw [nothing, Nat.add_zero]⟩
  · have grown := Buffer.reserve_more buffer value.length heap valid
      (Buffer.requestable_of_inMemory buffer _ valid inMemory)
    have bounded := grown.valid.bounded
    obtain ⟨made, calls, ok⟩ :=
      reserve_logged buffer (add buffer.size value.length) heap
    rw [if_neg nothing, MutableBuffer.append]
    refine ⟨made, by split <;> exact calls, ?_⟩
    intro unrefused
    have room := grown.room (ok unrefused)
    simp only [addressSpace] at bounded
    rw [if_pos (ok unrefused), grown.kept.size_eq]
    exact add_exact (by omega)

-- A `push_back` to which nothing is refused appends all of its value.
theorem pushBack_granted (buffer : Buffer) (value : List UInt8) (heap : Heap) (valid : buffer.Valid)
    (inMemory : value.length < addressSpace)
    (granted : heap.GrantedSince (buffer.pushBack value heap).2) :
    (buffer.pushBack value heap).1.content = buffer.content ++ value := by
  obtain ⟨made, calls, whole⟩ := pushBack_logged buffer value heap valid inMemory
  exact Buffer.content_of_appends (Buffer.pushBack_appends buffer value heap valid inMemory)
    (whole (granted made calls))

/-- The request takes stored bytes away: `size_` is cut before `realloc` is asked. -/
def Cuts (buffer : Buffer) (value : Nat) : Prop :=
  0 < value ∧ value < buffer.capacity ∧ value < buffer.size

-- The shortened buffer is what a refusal returns.
theorem cut_atomic_iff (buffer : Buffer) (value : Nat) (heap : Heap) (positive : 0 < value)
    (cut : value < buffer.size) :
    let asked := Buffer.reallocate { buffer with size := value } value heap
    (asked.ok = false → asked.buffer = buffer) ↔ heap.answer value = true := by
  intro asked
  rw [← reallocate_ok_iff { buffer with size := value } value heap positive]
  constructor
  · intro atomic
    by_contra refused
    have failed : asked.ok = false := (Bool.not_eq_true _).mp refused
    have sizes := congrArg MutableBuffer.size (atomic failed)
    rw [reallocate_refused _ value heap failed] at sizes
    exact absurd sizes (Nat.ne_of_lt cut)
  · intro granted failed
    rw [show asked.ok = true from granted] at failed
    cases failed

/-- A refused change leaves the buffer as it was, except when it was to cut the content:
then the content is cut although the storage stays. -/
theorem refused_change_atomic_iff (buffer : Buffer) (value : Nat) (heap : Heap) :
    ((Buffer.setCapacity buffer value heap).ok = false →
        (Buffer.setCapacity buffer value heap).buffer = buffer) ↔
      (Cuts buffer value → heap.answer value = true) := by
  rcases Nat.lt_trichotomy value buffer.capacity with smaller | same | larger
  · by_cases zero : value = 0
    · subst zero
      have backed : buffer.capacity ≠ 0 := by omega
      simp [Buffer.setCapacity, backed, Cuts]
    · have positive : 0 < value := by omega
      rw [setCapacity_of_smaller buffer value heap positive smaller]
      by_cases cut : value < buffer.size
      · have cuts : Cuts buffer value := ⟨positive, smaller, cut⟩
        rw [if_pos cut]
        refine (cut_atomic_iff buffer value heap positive cut).trans ?_
        exact ⟨fun granted _ => granted, fun granted => granted cuts⟩
      · simp only [if_neg cut]
        have uncut : ¬ Cuts buffer value := fun cuts => cut cuts.2.2
        exact ⟨fun _ cuts => absurd cuts uncut,
          fun _ failed => reallocate_refused buffer value heap failed⟩
  · subst same
    simp [Buffer.setCapacity, Cuts]
  · have uncut : ¬ Cuts buffer value := fun cuts => absurd cuts.2.1 (by omega)
    rw [setCapacity_of_larger buffer value heap larger]
    exact ⟨fun _ cuts => absurd cuts uncut,
      fun _ failed => reallocate_refused buffer _ heap failed⟩

def stored : Buffer := ⟨some 0, store (fun _ => 0) 0 [97, 98, 99], 3, 3⟩

theorem refused_shrink_cuts :
    (Buffer.setCapacity stored 1 Heap.exhausted).ok = false ∧
      stored.content = [97, 98, 99] ∧
      (Buffer.setCapacity stored 1 Heap.exhausted).buffer.content = [97] := by
  decide

/-! A granted growth. -/

structure Regrown (before : Buffer) (value : Nat) (after : Buffer) : Prop where
  covers : value ≤ after.capacity
  first : before.capacity = 0 → after.capacity = value
  aligned : before.capacity ≠ 0 →
    IsLeast { capacity | Buffer.chunkSize ∣ capacity ∧ value ≤ capacity } after.capacity
  kept : before.Kept after
  room : ∀ n < 2 ^ 64, add before.size n = value → after.size + n ≤ after.capacity

def Dependable (change : Buffer → Nat → Heap → Reserved .mutableEnsure) (buffer : Buffer)
    (value : Nat) : Prop :=
  ∀ heap, (change buffer value heap).ok = true →
    Regrown buffer value (change buffer value heap).buffer

theorem padded_eq (value : Nat) (positive : 0 < value)
    (small : value ≤ 2 ^ 64 - Buffer.chunkSize) :
    Buffer.padded value = Buffer.chunkSize * ((value - 1) / Buffer.chunkSize + 1) := by
  simp only [Buffer.chunkSize] at small
  have last : sub value 1 = value - 1 := sub_exact positive
  have sum : add (value - 1) 4096 = value - 1 + 4096 := add_exact (by omega)
  simp only [Buffer.padded, Buffer.chunkSize, last, sum]
  rw [sub_exact (by omega)]
  omega

theorem padded_least (value : Nat) (positive : 0 < value)
    (small : value ≤ 2 ^ 64 - Buffer.chunkSize) :
    IsLeast { capacity | Buffer.chunkSize ∣ capacity ∧ value ≤ capacity }
      (Buffer.padded value) := by
  have cover := (Buffer.padded_bounds value positive small).1
  have multiple := padded_eq value positive small
  refine ⟨⟨⟨_, multiple⟩, cover⟩, ?_⟩
  rintro capacity ⟨⟨chunks, rfl⟩, enough⟩
  rw [multiple]
  apply Nat.mul_le_mul_left
  simp only [Buffer.chunkSize] at enough ⊢
  omega

def Paddable (buffer : Buffer) (value : Nat) : Prop :=
  buffer.capacity = 0 ∨ value ≤ 2 ^ 64 - Buffer.chunkSize

theorem asked_covers (buffer : Buffer) (value : Nat) (larger : buffer.capacity < value)
    (paddable : Paddable buffer value) : value ≤ asked buffer value := by
  simp only [asked]
  split
  · exact Nat.le_refl value
  · rename_i backed
    exact (Buffer.padded_bounds value (by omega) (paddable.resolve_left backed)).1

-- A growth keeps the bytes the old block held: all of the content, where it fits its block.
theorem grown_kept (buffer : Buffer) (value : Nat) (heap : Heap)
    (fits : buffer.size ≤ buffer.capacity) (larger : buffer.capacity < value)
    (granted : (Buffer.reallocate buffer value heap).ok = true) :
    buffer.Kept (Buffer.reallocate buffer value heap).buffer ∧
      (Buffer.reallocate buffer value heap).buffer.capacity = value := by
  have answered := (reallocate_ok_iff buffer value heap (by omega)).mp granted
  simp only [Buffer.reallocate, answered, ↓reduceIte]
  refine ⟨⟨rfl, ?_⟩, trivial⟩
  intro address inside
  have copied : address < min buffer.capacity value := by omega
  simp only [Heap.resized, if_pos copied]

theorem reallocate_regrown (buffer : Buffer) (value : Nat) (heap : Heap)
    (larger : buffer.capacity < value) (paddable : Paddable buffer value)
    (fits : buffer.size ≤ buffer.capacity)
    (granted : (Buffer.reallocate buffer (asked buffer value) heap).ok = true) :
    Regrown buffer value (Buffer.reallocate buffer (asked buffer value) heap).buffer := by
  have cover := asked_covers buffer value larger paddable
  obtain ⟨kept, capacity⟩ := grown_kept buffer _ heap fits (Nat.lt_of_lt_of_le larger cover) granted
  have covers : value ≤ (Buffer.reallocate buffer (asked buffer value) heap).buffer.capacity := by
    rw [capacity]
    exact cover
  refine ⟨covers, ?_, ?_, kept, ?_⟩
  · intro unbacked
    rw [capacity, asked, if_pos unbacked]
  · intro backed
    rw [capacity, asked, if_neg backed]
    exact padded_least value (by omega) (paddable.resolve_left backed)
  · -- a sum that wrapped would be below the size and so within the old capacity
    intro n word sum
    rw [kept.size_eq]
    simp only [add] at sum
    omega

theorem reallocate_wrapped (buffer : Buffer) (value : Nat) (heap : Heap) (word : value < 2 ^ 64)
    (wraps : ¬ Paddable buffer value) :
    (Buffer.reallocate buffer (asked buffer value) heap).ok = true ∧
      (Buffer.reallocate buffer (asked buffer value) heap).buffer.capacity = 0 := by
  obtain ⟨backed, last⟩ := not_or.mp wraps
  have zero : asked buffer value = 0 := by
    rw [asked, if_neg backed]
    exact BufferInvariant.padded_wraps value (by omega) word
  rw [zero]
  refine ⟨?_, (BufferInvariant.reallocate_zero_capacity buffer heap).1⟩
  simp only [Buffer.reallocate, ↓reduceIte]
  split <;> rfl

def scribbling (bytes : Memory UInt8) : Heap :=
  { Heap.generous with fresh := fun _ address => bytes address + 1 }

theorem scribbled (buffer : Buffer) (value : Nat) (overrun : buffer.capacity < buffer.size)
    (larger : buffer.capacity < value) (small : value < addressSpace) :
    (Buffer.reallocate buffer value (scribbling buffer.bytes)).ok = true ∧
      ¬ buffer.Kept (Buffer.reallocate buffer value (scribbling buffer.bytes)).buffer := by
  have answered : (scribbling buffer.bytes).answer value = true := decide_eq_true small
  refine ⟨(reallocate_ok_iff buffer value _ (by omega)).mpr answered, ?_⟩
  intro kept
  have last := kept.bytes_eq buffer.capacity overrun
  simp only [Buffer.reallocate, answered, ↓reduceIte, Heap.resized] at last
  rw [if_neg (by omega)] at last
  exact absurd last (by simp [scribbling])

theorem dependable_iff (change : Buffer → Nat → Heap → Reserved .mutableEnsure) (buffer : Buffer)
    (value : Nat) (larger : buffer.capacity < value) (word : value < 2 ^ 64)
    (reallocates : ∀ heap, change buffer value heap =
      Buffer.reallocate buffer (asked buffer value) heap) :
    Dependable change buffer value ↔
      Paddable buffer value ∧
        (buffer.size ≤ buffer.capacity ∨ addressSpace ≤ asked buffer value) := by
  simp only [Dependable, reallocates]
  constructor
  · intro dependable
    have paddable : Paddable buffer value := by
      by_contra wraps
      obtain ⟨ok, dropped⟩ := reallocate_wrapped buffer value Heap.generous word wraps
      have covers := (dependable Heap.generous ok).covers
      omega
    refine ⟨paddable, ?_⟩
    by_contra neither
    simp only [not_or, Nat.not_le] at neither
    have cover := asked_covers buffer value larger paddable
    obtain ⟨ok, lost⟩ := scribbled buffer (asked buffer value) neither.1
      (Nat.lt_of_lt_of_le larger cover) neither.2
    exact lost (dependable _ ok).kept
  · rintro ⟨paddable, fits | unobtainable⟩ heap ok
    · exact reallocate_regrown buffer value heap larger paddable fits ok
    · have cover := asked_covers buffer value larger paddable
      have answered := (reallocate_ok_iff buffer _ heap (by omega)).mp ok
      exact absurd (heap.answer_bounded _ answered) (by omega)

/-- When a true answer to a request beyond the capacity can be relied on, whatever the
allocator does: the padding must not wrap, which it does in the last chunk below 2^64,
and the content must lie within the old block, unless the request cannot be granted. -/
theorem growth_dependable_iff (buffer : Buffer) (value : Nat) (larger : buffer.capacity < value)
    (word : value < 2 ^ 64) :
    (Dependable Buffer.setCapacity buffer value ∧ Dependable reserve buffer value) ↔
      Paddable buffer value ∧
        (buffer.size ≤ buffer.capacity ∨ addressSpace ≤ asked buffer value) := by
  rw [dependable_iff Buffer.setCapacity buffer value larger word
      fun heap => setCapacity_of_larger buffer value heap larger,
    dependable_iff reserve buffer value larger word
      fun heap => reserve_of_larger buffer value heap larger,
    and_self]

theorem growth_dependable_stored :
    Dependable Buffer.setCapacity stored 4097 ∧ Dependable reserve stored 4097 :=
  (growth_dependable_iff stored 4097 (by decide) (by decide)).mpr
    ⟨Or.inr (by decide), Or.inl (by decide)⟩

theorem last_chunk_grows_to_zero :
    (Buffer.setCapacity stored (2 ^ 64 - 1) Heap.generous).ok = true ∧
      (Buffer.setCapacity stored (2 ^ 64 - 1) Heap.generous).buffer.capacity = 0 ∧
      (Buffer.setCapacity stored (2 ^ 64 - 1) Heap.generous).buffer.size = 3 := by
  decide

end Xio.Capacity
