import Xio.Capacity

/-!
What a growing `Buffer` costs over a run of `push_back` calls. A buffer that has a block grows to
the next multiple of 4096 bytes, not to a multiple of its capacity: it never has more than a chunk
to spare, and it is moved once for every chunk.
-/

namespace Xio.Growth

open Storage MachineWord Environment Runs MutableBuffer BufferAppend Buffer

def Call.isGranted : Call → Bool
  | .realloc _ _ granted => granted
  | .free _ => false

def reallocations (heap : Heap) : Nat := heap.calls.countP Call.isGranted

/-- One `push_back`, with the bytes that `realloc` has to keep: those of a block that grows. -/
def step : Machine (System .mutableEnsure) Value Nat := fun system value =>
  let after := BufferAppend.push system.buffer value system.heap
  (⟨after.1, after.2⟩, if after.1.capacity = system.buffer.capacity then 0 else system.buffer.size)

/-! One call. -/

inductive Pushed (buffer : Buffer) (heap : Heap) (length : Nat) : Buffer × Heap → Prop
  | fits (after : Buffer) (room : buffer.size + length ≤ buffer.capacity)
      (size : after.size = buffer.size + length) (capacity : after.capacity = buffer.capacity) :
      Pushed buffer heap length (after, heap)
  | grows (after : Buffer) (full : buffer.capacity < buffer.size + length)
      (granted : heap.answer (asked buffer (buffer.size + length)) = true)
      (size : after.size = buffer.size + length)
      (capacity : after.capacity = asked buffer (buffer.size + length)) :
      Pushed buffer heap length
        (after, heap.realloc buffer.data (asked buffer (buffer.size + length)))
  | refused (full : buffer.capacity < buffer.size + length)
      (refused : heap.answer (asked buffer (buffer.size + length)) = false) :
      Pushed buffer heap length
        (buffer, heap.realloc buffer.data (asked buffer (buffer.size + length)))

theorem asked_pos (buffer : Buffer) (value : Nat) (positive : 0 < value)
    (small : value ≤ 2 ^ 64 - chunkSize) : 0 < asked buffer value := by
  have cover := (padded_bounds value positive small).1
  simp only [asked]
  split <;> omega

theorem pushBack_pushed (buffer : Buffer) (text : List UInt8) (heap : Heap) (valid : buffer.Valid)
    (inMemory : text.length < addressSpace) :
    Pushed buffer heap text.length (buffer.pushBack text heap) := by
  have requestable := requestable_of_inMemory buffer _ valid inMemory
  simp only [Requestable] at requestable
  have sum : add buffer.size text.length = buffer.size + text.length :=
    add_exact (by simp only [chunkSize] at requestable; omega)
  have within := valid.fits
  rw [pushBack]
  by_cases nothing : text.length = 0
  · rw [if_pos nothing, nothing]
    exact .fits buffer within rfl rfl
  rw [if_neg nothing, sum]
  by_cases room : buffer.size + text.length ≤ buffer.capacity
  · have idle : ¬ (buffer.capacity < buffer.size + text.length ∨
        buffer.size + text.length = 0) := by
      omega
    rw [MutableBuffer.reserve, if_neg idle]
    exact .fits _ room sum rfl
  have full : buffer.capacity < buffer.size + text.length := Nat.lt_of_not_le room
  have positive := asked_pos buffer _ (Nat.zero_lt_of_lt full) requestable
  have reserved : buffer.reserve (buffer.size + text.length) heap =
      reallocate buffer (asked buffer (buffer.size + text.length)) heap := by
    rw [MutableBuffer.reserve, if_pos (Or.inl full), setCapacity, if_neg (by omega), if_pos full]
    rfl
  rw [reserved, reallocate]
  cases granted : heap.answer (asked buffer (buffer.size + text.length)) with
  | true =>
      rw [if_pos rfl]
      exact .grows _ full granted sum rfl
  | false =>
      rw [if_neg Bool.false_ne_true, if_neg (Nat.ne_of_gt positive)]
      exact .refused full granted

theorem push_pushed (system : System .mutableEnsure) (value : Value) (valid : system.buffer.Valid) :
    Pushed system.buffer system.heap value.text.length
      (BufferAppend.push system.buffer value system.heap) := by
  rw [push_eq]
  exact pushBack_pushed _ _ _ valid (text_inMemory value)

theorem push_valid (system : System .mutableEnsure) (value : Value) (valid : system.buffer.Valid) :
    (step system value).1.buffer.Valid := by
  change (BufferAppend.push system.buffer value system.heap).1.Valid
  rw [push_eq]
  exact (pushBack_appends _ _ _ valid (text_inMemory value)).valid

theorem reallocations_realloc (heap : Heap) (data : Option Block) (size : Nat) :
    reallocations (heap.realloc data size) =
      reallocations heap + if heap.answer size = true then 1 else 0 :=
  List.countP_cons

/-! Any run. -/

-- How often a buffer can have grown to get to a capacity.
def steps (capacity : Nat) : Nat := if capacity = 0 then 0 else 1 + capacity / chunkSize

structure Tight (earlier : Nat) (system : System .mutableEnsure) : Prop where
  valid : system.buffer.Valid
  spare : system.buffer.capacity < system.buffer.size + chunkSize
  rare : reallocations system.heap ≤ earlier + steps system.buffer.capacity

theorem asked_tight (buffer : Buffer) (value : Nat) (larger : buffer.capacity < value)
    (small : value ≤ 2 ^ 64 - chunkSize) :
    asked buffer value < value + chunkSize ∧
      steps buffer.capacity + 1 ≤ steps (asked buffer value) := by
  have positive : 0 < value := Nat.zero_lt_of_lt larger
  simp only [asked]
  by_cases first : buffer.capacity = 0
  · rw [if_pos first, first, steps, if_pos rfl, steps, if_neg (by omega)]
    simp only [chunkSize]
    omega
  · rw [if_neg first]
    have bounds := padded_bounds value positive small
    have multiple := Capacity.padded_eq value positive small
    refine ⟨bounds.2, ?_⟩
    rw [steps, if_neg first, steps, if_neg (by omega), multiple]
    simp only [chunkSize]
    omega

theorem step_tight (earlier : Nat) (system : System .mutableEnsure) (value : Value)
    (tight : Tight earlier system) : Tight earlier (step system value).1 := by
  have valid := push_valid system value tight.valid
  have small := requestable_of_inMemory system.buffer _ tight.valid (text_inMemory value)
  have pushed := push_pushed system value tight.valid
  have spare := tight.spare
  have rare := tight.rare
  change Tight earlier ⟨(BufferAppend.push system.buffer value system.heap).1,
    (BufferAppend.push system.buffer value system.heap).2⟩
  change (BufferAppend.push system.buffer value system.heap).1.Valid at valid
  generalize BufferAppend.push system.buffer value system.heap = result at valid pushed ⊢
  cases pushed with
  | fits after room size capacity =>
      refine ⟨valid, ?_, ?_⟩
      · change after.capacity < after.size + chunkSize
        omega
      · change reallocations system.heap ≤ earlier + steps after.capacity
        rwa [capacity]
  | grows after full granted size capacity =>
      obtain ⟨close, further⟩ := asked_tight system.buffer _ full small
      refine ⟨valid, ?_, ?_⟩
      · change after.capacity < after.size + chunkSize
        omega
      · change reallocations (system.heap.realloc _ _) ≤ earlier + steps after.capacity
        rw [reallocations_realloc, if_pos granted, capacity]
        omega
  | refused full refused =>
      refine ⟨valid, spare, ?_⟩
      change reallocations (system.heap.realloc _ _) ≤ earlier + steps system.buffer.capacity
      rw [reallocations_realloc, refused]
      exact rare

/-- Whatever is pushed and whatever `realloc` refuses: the buffer never has a whole chunk to spare,
and it has grown at most once for every chunk it has, and once more. -/
theorem growth_bounded (heap : Heap) (values : List Value) :
    (final step ⟨empty, heap⟩ values).buffer.capacity <
        (final step ⟨empty, heap⟩ values).buffer.size + chunkSize ∧
      reallocations (final step ⟨empty, heap⟩ values).heap ≤
        reallocations heap + steps (final step ⟨empty, heap⟩ values).buffer.capacity := by
  have start : Tight (reallocations heap) ⟨empty, heap⟩ :=
    ⟨empty_valid, (by decide : 0 < 0 + chunkSize), Nat.le_refl _⟩
  have always := always_of_along step (fun _ _ => True) (Tight (reallocations heap))
    (fun system value tight _ => step_tight _ system value tight) ⟨empty, heap⟩ values start
    (along_of_forall _ _ _ _ fun _ _ _ => trivial)
  have tight := always_final _ _ _ _ always
  exact ⟨tight.spare, tight.rare⟩

/-! Byte by byte. -/

-- The capacity, the blocks and the bytes moved behind so many single bytes.
def reached (size : Nat) : Nat :=
  if size ≤ 1 then size else chunkSize * ((size - 1) / chunkSize + 1)

def blocks (size : Nat) : Nat := if size ≤ 1 then size else 2 + (size - 1) / chunkSize

def moved (size : Nat) : Nat :=
  if size ≤ 1 then 0
  else 1 + chunkSize * (((size - 1) / chunkSize) * ((size - 1) / chunkSize + 1) / 2)

def Granting (heap : Heap) : Prop := ∀ call size, size < addressSpace → heap.grants call size = true

structure Bytewise (earlier : Nat) (system : System .mutableEnsure) : Prop where
  valid : system.buffer.Valid
  granting : Granting system.heap
  capacity : system.buffer.capacity = reached system.buffer.size
  made : reallocations system.heap = earlier + blocks system.buffer.size

theorem triangle_succ (chunks : Nat) :
    (chunks + 1) * (chunks + 1 + 1) / 2 = chunks * (chunks + 1) / 2 + (chunks + 1) := by
  have split : (chunks + 1) * (chunks + 1 + 1) = chunks * (chunks + 1) + 2 * (chunks + 1) := by ring
  rw [split, Nat.add_mul_div_left _ _ (by decide)]

theorem within_chunk (size : Nat) (room : size + 1 ≤ reached size) :
    reached (size + 1) = reached size ∧ blocks (size + 1) = blocks size ∧
      moved (size + 1) = moved size := by
  have several : ¬ size ≤ 1 := by
    intro few
    rw [reached, if_pos few] at room
    omega
  have same : (size + 1 - 1) / chunkSize = (size - 1) / chunkSize := by
    rw [reached, if_neg several] at room
    simp only [chunkSize] at room ⊢
    omega
  have more : ¬ size + 1 ≤ 1 := by omega
  simp only [reached, blocks, moved, if_neg several, if_neg more, same, and_self]

theorem next_chunk (size : Nat) (full : reached size < size + 1) :
    blocks (size + 1) = blocks size + 1 ∧ moved (size + 1) = moved size + size := by
  by_cases few : size ≤ 1
  · obtain rfl | rfl : size = 0 ∨ size = 1 := by omega
    · exact ⟨rfl, rfl⟩
    · exact ⟨rfl, rfl⟩
  · have more : ¬ size + 1 ≤ 1 := by omega
    rw [reached, if_neg few] at full
    simp only [blocks, moved, if_neg few, if_neg more]
    generalize chunks_eq : (size - 1) / chunkSize = chunks at full ⊢
    -- The buffer is full exactly at the end of a chunk.
    have whole : size = chunkSize * (chunks + 1) := by
      simp only [chunkSize] at chunks_eq full ⊢
      omega
    have next : (size + 1 - 1) / chunkSize = chunks + 1 := by
      rw [Nat.add_sub_cancel, whole]
      exact Nat.mul_div_cancel_left _ (by decide)
    rw [next, triangle_succ, Nat.mul_add, ← whole, Nat.add_assoc 1]
    exact ⟨rfl, rfl⟩

theorem asked_reached (buffer : Buffer) (size : Nat) (capacity : buffer.capacity = reached size)
    (full : reached size < size + 1) (small : size + 1 ≤ 2 ^ 64 - chunkSize) :
    asked buffer (size + 1) = reached (size + 1) := by
  rw [asked, capacity]
  by_cases first : size = 0
  · subst first
    rfl
  · have backed : reached size ≠ 0 := by
      rw [reached]
      split
      · exact first
      · simp only [chunkSize]
        omega
    rw [if_neg backed, Capacity.padded_eq _ (Nat.succ_pos size) small, reached, if_neg (by omega)]

theorem step_bytewise (earlier : Nat) (system : System .mutableEnsure) (byte : UInt8)
    (bytewise : Bytewise earlier system) (room : system.buffer.size + chunkSize < addressSpace) :
    Bytewise earlier (step system (.char byte)).1 ∧
      (step system (.char byte)).1.buffer.size = system.buffer.size + 1 ∧
      moved system.buffer.size + (step system (.char byte)).2 = moved (system.buffer.size + 1) := by
  have valid := push_valid system (.char byte) bytewise.valid
  have pushed := push_pushed system (.char byte) bytewise.valid
  have small : system.buffer.size + 1 ≤ 2 ^ 64 - chunkSize := by
    simp only [addressSpace, chunkSize] at room ⊢
    omega
  have capacity := bytewise.capacity
  have made := bytewise.made
  simp only [step] at valid ⊢
  change Pushed system.buffer system.heap 1 _ at pushed
  generalize BufferAppend.push system.buffer (.char byte) system.heap = result at valid pushed ⊢
  cases pushed with
  | fits after fit size same =>
      rw [capacity] at fit
      obtain ⟨reach, block, move⟩ := within_chunk _ fit
      refine ⟨⟨valid, bytewise.granting, ?_, ?_⟩, size, ?_⟩
      · change after.capacity = reached after.size
        rw [same, size, reach, capacity]
      · change reallocations system.heap = earlier + blocks after.size
        rw [size, block, made]
      · rw [if_pos same, move, Nat.add_zero]
  | grows after full granted size larger =>
      rw [capacity] at full
      obtain ⟨block, move⟩ := next_chunk _ full
      have reach := asked_reached system.buffer _ capacity full small
      refine ⟨⟨valid, bytewise.granting, ?_, ?_⟩, size, ?_⟩
      · change after.capacity = reached after.size
        rw [larger, size, reach]
      · change reallocations (system.heap.realloc _ _) = earlier + blocks after.size
        rw [reallocations_realloc, if_pos granted, size, block, made, Nat.add_assoc]
      · have changed : after.capacity ≠ system.buffer.capacity := by
          have fit : after.size ≤ after.capacity := valid.fits
          omega
        rw [if_neg changed, move]
  | refused full refused =>
      have close := (asked_tight system.buffer _ full small).1
      have granted := bytewise.granting system.heap.calls.length
        (asked system.buffer (system.buffer.size + 1)) (by omega)
      rw [Heap.answer, granted] at refused
      cases refused

theorem run_bytewise (earlier : Nat) (system : System .mutableEnsure) (bytes : List UInt8)
    (bytewise : Bytewise earlier system)
    (room : system.buffer.size + bytes.length + chunkSize ≤ addressSpace) :
    Bytewise earlier (final step system (bytes.map .char)) ∧
      (final step system (bytes.map .char)).buffer.size = system.buffer.size + bytes.length ∧
      moved system.buffer.size + total (· + ·) 0 id (outputs step system (bytes.map .char)) =
        moved (system.buffer.size + bytes.length) := by
  induction bytes generalizing system with
  | nil => exact ⟨bytewise, rfl, rfl⟩
  | cons byte rest ih =>
      rw [List.length_cons] at room
      obtain ⟨after, size, cost⟩ := step_bytewise earlier system byte bytewise (by omega)
      obtain ⟨last, length, costs⟩ := ih _ after (by rw [size]; omega)
      rw [size] at length costs
      have sum : system.buffer.size + (byte :: rest).length =
          system.buffer.size + 1 + rest.length := by
        rw [List.length_cons]
        omega
      rw [sum]
      refine ⟨last, length, ?_⟩
      rw [← costs, ← cost, Nat.add_assoc]
      rfl

/-- Growth by whole chunks is quadratic: a buffer that is filled byte by byte is reallocated once
for each chunk and once more at its beginning, and all it holds is moved each time. -/
theorem bytewise_quadratic (heap : Heap) (bytes : List UInt8) (granting : Granting heap)
    (room : bytes.length + chunkSize ≤ addressSpace) :
    (final step ⟨empty, heap⟩ (bytes.map .char)).buffer.capacity = reached bytes.length ∧
      reallocations (final step ⟨empty, heap⟩ (bytes.map .char)).heap =
        reallocations heap + blocks bytes.length ∧
      total (· + ·) 0 id (outputs step ⟨empty, heap⟩ (bytes.map .char)) = moved bytes.length := by
  have start : Bytewise (reallocations heap) ⟨empty, heap⟩ := ⟨empty_valid, granting, rfl, rfl⟩
  obtain ⟨last, size, costs⟩ := run_bytewise (reallocations heap) ⟨empty, heap⟩ bytes start
    (by change 0 + bytes.length + chunkSize ≤ addressSpace; omega)
  have length : (final step ⟨empty, heap⟩ (bytes.map .char)).buffer.size = bytes.length := by
    rw [size]
    exact Nat.zero_add _
  refine ⟨by rw [last.capacity, length], by rw [last.made, length], ?_⟩
  change 0 + total (· + ·) 0 id _ = moved (0 + bytes.length) at costs
  rwa [Nat.zero_add, Nat.zero_add] at costs

theorem bytewise_quadratic_generous :
    Granting Heap.generous ∧
      (final step ⟨empty, Heap.generous⟩ ([1, 2].map .char)).buffer.capacity = reached 2 ∧
      reallocations (final step ⟨empty, Heap.generous⟩ ([1, 2].map .char)).heap =
        reallocations Heap.generous + blocks 2 ∧
      total (· + ·) 0 id (outputs step ⟨empty, Heap.generous⟩ ([1, 2].map .char)) = moved 2 := by
  have granting : Granting Heap.generous := fun _ _ small => decide_eq_true small
  exact ⟨granting, bytewise_quadratic Heap.generous [1, 2] granting (by decide)⟩

end Xio.Growth
