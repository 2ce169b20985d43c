import Xio.BufferInvariant

/-!
What the builders of `include/xio/Buffer.h` do to the content, for both storage
policies. Every `push_back` is a guard and a copy, so a value arrives whole or not at
all; which of the two depends on the room, and for a managed buffer on `realloc`.
-/

namespace Xio.BufferAppend

open Storage MachineWord Environment Runs MutableBuffer

/-- The argument of one `push_back`. The overloads for a `BufferRef`, a `std::string`, a
pointer with a size and a literal all push the same bytes. -/
inductive Value where
  | char (value : UInt8)
  | int (value : BufferInvariant.Integer)
  | bytes (value : Object)

def Value.text : Value → List UInt8
  | .char value => [value]
  | .int value =>
      if value.1 < 0 then 45 :: decimal value.1.natAbs else decimal value.1.natAbs
  | .bytes value => value.1

def push {ensure : Ensure} (buffer : MutableBuffer ensure) (value : Value) (heap : Heap) :
    MutableBuffer ensure × Heap :=
  match value with
  | .char value => buffer.pushBackChar value heap
  | .int value => buffer.pushBackInt value.1 heap
  | .bytes value => buffer.pushBack value.1 heap

abbrev Capacity := { value : Nat // 0 < value ∧ value < addressSpace }

-- Only a `Buffer` can be assigned to and has `c_str()`.
inductive Op : Ensure → Type where
  | push {ensure : Ensure} (value : Value) : Op ensure
  | clear {ensure : Ensure} : Op ensure
  | reserve {ensure : Ensure} (value : Capacity) : Op ensure
  | assign (value : Object) : Op .mutableEnsure
  | cStr : Op .mutableEnsure

structure System (ensure : Ensure) where
  buffer : MutableBuffer ensure
  heap : Heap

def perform : {ensure : Ensure} → System ensure → Op ensure → MutableBuffer ensure × Heap
  | _, ⟨buffer, heap⟩, .push value => BufferAppend.push buffer value heap
  | _, ⟨buffer, heap⟩, .clear => (buffer.clear, heap)
  | _, ⟨buffer, heap⟩, .reserve value =>
      ((buffer.reserve value.1 heap).buffer, (buffer.reserve value.1 heap).heap)
  | _, ⟨buffer, heap⟩, .assign value => Buffer.assign buffer value.1 heap
  | _, ⟨buffer, heap⟩, .cStr => Buffer.cStr buffer heap

variable {ensure : Ensure}

/-! What the operations should mean: a list of bytes, and which appends have an effect. -/

-- The size a managed buffer asks `realloc` for when `value` bytes do not fit.
def asked (buffer : MutableBuffer ensure) (value : Nat) : Nat :=
  if buffer.capacity = 0 then value else Buffer.padded value

/-- An append has an effect if its bytes fit, or if the policy is to grow and `realloc`
grants what it is asked for. -/
def Effective (buffer : MutableBuffer ensure) (text : List UInt8) (heap : Heap) : Prop :=
  buffer.size + text.length ≤ buffer.capacity ∨
    ensure = .mutableEnsure ∧ heap.answer (asked buffer (buffer.size + text.length)) = true

instance (buffer : MutableBuffer ensure) (text : List UInt8) (heap : Heap) :
    Decidable (Effective buffer text heap) :=
  inferInstanceAs (Decidable (_ ∨ _))

def effect : {ensure : Ensure} → System ensure → Op ensure → Bool
  | _, ⟨buffer, heap⟩, .push value => decide (Effective buffer value.text heap)
  | _, ⟨buffer, heap⟩, .assign value => decide (Effective buffer.clear value.1 heap)
  | _, _, .clear | _, _, .reserve _ | _, _, .cStr => true

def step : Machine (System ensure) (Op ensure) Bool := fun system op =>
  (⟨(perform system op).1, (perform system op).2⟩, effect system op)

def replay : {ensure : Ensure} → List UInt8 → Op ensure × Bool → List UInt8
  | _, content, (.push value, effective) => if effective then content ++ value.text else content
  | _, _, (.clear, _) => []
  | _, content, (.reserve _, _) => content
  | _, _, (.assign value, effective) => if effective then value.1 else []
  | _, content, (.cStr, _) => content

/-! One call. -/

theorem push_eq (buffer : MutableBuffer ensure) (value : Value) (heap : Heap) :
    push buffer value heap = buffer.pushBack value.text heap := by
  cases value with
  | char value => rfl
  | int value => rfl
  | bytes value => rfl

theorem text_inMemory (value : Value) : value.text.length < addressSpace := by
  cases value with
  | char value => exact Nat.one_lt_two_pow (by decide)
  | int value =>
      have digits := BufferInvariant.decimal_length_le value.1.natAbs value.2
      have room : 21 < addressSpace := by decide
      simp only [Value.text]
      split
      · rw [List.length_cons]
        omega
      · omega
  | bytes value => exact value.2

theorem reallocate_ok (buffer : Buffer) (value : Nat) (heap : Heap) :
    (Buffer.reallocate buffer value heap).ok = true ↔ value = 0 ∨ heap.answer value = true := by
  simp only [Buffer.reallocate]
  split
  · rename_i granted
    exact iff_of_true rfl (Or.inr granted)
  · rename_i denied
    split
    · rename_i zero
      exact iff_of_true rfl (Or.inl zero)
    · rename_i nonzero
      exact iff_of_false Bool.false_ne_true (not_or.mpr ⟨nonzero, denied⟩)

theorem reallocate_ok_iff (buffer : Buffer) (value : Nat) (heap : Heap) (positive : 0 < value) :
    (Buffer.reallocate buffer value heap).ok = true ↔ heap.answer value = true := by
  rw [reallocate_ok, or_iff_right (Nat.ne_of_gt positive)]

theorem reserve_ok_iff (buffer : Buffer) (value : Nat) (heap : Heap) :
    (buffer.reserve value heap).ok = true ↔
      value ≤ buffer.capacity ∨ asked buffer value = 0 ∨
        heap.answer (asked buffer value) = true := by
  by_cases fits : value ≤ buffer.capacity
  · refine iff_of_true ?_ (Or.inl fits)
    simp only [reserve, Buffer.setCapacity]
    split
    · -- only a request for nothing gets here, and nothing can be refused
      rename_i asks
      have zero : value = 0 := asks.resolve_left (Nat.not_lt.mpr fits)
      subst value
      split
      · rfl
      · rename_i spare
        rw [if_neg (Nat.not_lt.mpr fits), if_neg (by omega)]
    · rfl
  · have grows : buffer.capacity < value ∨ value = 0 := by omega
    have kept : ¬ (value = 0 ∧ buffer.capacity ≠ 0) := by omega
    have larger : buffer.capacity < value := by omega
    simp only [reserve, if_pos grows, Buffer.setCapacity, if_neg kept, if_pos larger,
      fits, false_or]
    exact reallocate_ok buffer (asked buffer value) heap

theorem asked_pos (buffer : Buffer) (value : Nat) (positive : 0 < value)
    (small : value ≤ 2 ^ 64 - Buffer.chunkSize) : 0 < asked buffer value := by
  have cover := (Buffer.padded_bounds value positive small).1
  simp only [asked]
  split <;> omega

theorem guard_iff_effective (buffer : MutableBuffer ensure) (text : List UInt8) (heap : Heap)
    (valid : buffer.Valid) (nonempty : text.length ≠ 0) (inMemory : text.length < addressSpace) :
    (buffer.reserve (add buffer.size text.length) heap).ok = true ↔
      Effective buffer text heap := by
  have fits := valid.fits
  have bounded := valid.bounded
  simp only [addressSpace] at bounded inMemory
  rw [add_exact (by omega)]
  cases ensure with
  | immutableEnsure => simp [reserve, Effective]
  | mutableEnsure =>
      have something := asked_pos buffer (buffer.size + text.length) (by omega)
        (by simp only [Buffer.chunkSize]; omega)
      rw [reserve_ok_iff]
      simp [Effective, Nat.ne_of_gt something]

theorem fixed_appends (buffer : FixedBuffer) (text : List UInt8) (heap : Heap)
    (valid : buffer.Valid) (fits : buffer.size + text.length ≤ buffer.capacity) :
    (append ⟨true, buffer, heap⟩ text).1.Valid ∧
      (append ⟨true, buffer, heap⟩ text).1.content = buffer.content ++ text := by
  have bounded := valid.bounded
  have sum : add buffer.size text.length = buffer.size + text.length :=
    add_exact (by simp only [addressSpace] at bounded; omega)
  simp only [append, ↓reduceIte, sum]
  refine ⟨⟨fits, bounded⟩, ?_⟩
  exact load_store_behind buffer.bytes buffer.size text

theorem fixed_pushBack (buffer : FixedBuffer) (text : List UInt8) (heap : Heap)
    (valid : buffer.Valid) (nonempty : text.length ≠ 0) (inMemory : text.length < addressSpace) :
    (buffer.pushBack text heap).1.Valid ∧
      (buffer.pushBack text heap).1.content =
        if Effective buffer text heap then buffer.content ++ text else buffer.content := by
  have guarded := guard_iff_effective buffer text heap valid nonempty inMemory
  simp only [pushBack, if_neg nonempty]
  by_cases effective : Effective buffer text heap
  · have fits : buffer.size + text.length ≤ buffer.capacity := by
      rcases effective with fits | ⟨grows, _⟩
      · exact fits
      · cases grows
    have same : buffer.reserve (add buffer.size text.length) heap = ⟨true, buffer, heap⟩ := by
      simp only [reserve] at guarded ⊢
      rw [guarded.mpr effective]
    rw [if_pos effective, same]
    exact fixed_appends buffer text heap valid fits
  · have failed : ¬ (buffer.reserve (add buffer.size text.length) heap).ok = true :=
      fun ok => effective (guarded.mp ok)
    rw [if_neg effective, append, if_neg failed]
    exact ⟨valid, rfl⟩

theorem growing_pushBack (buffer : Buffer) (text : List UInt8) (heap : Heap)
    (valid : buffer.Valid) (nonempty : text.length ≠ 0) (inMemory : text.length < addressSpace) :
    (buffer.pushBack text heap).1.Valid ∧
      (buffer.pushBack text heap).1.content =
        if Effective buffer text heap then buffer.content ++ text else buffer.content := by
  have guarded := guard_iff_effective buffer text heap valid nonempty inMemory
  have appends := Buffer.pushBack_appends buffer text heap valid inMemory
  refine ⟨appends.valid, ?_⟩
  have requestable := Buffer.requestable_of_inMemory buffer _ valid inMemory
  have grown := Buffer.reserve_more buffer text.length heap valid requestable
  by_cases effective : Effective buffer text heap
  · rw [if_pos effective]
    apply Buffer.content_of_appends appends
    have bounded := grown.valid.bounded
    have room := grown.room (guarded.mpr effective)
    simp only [pushBack, if_neg nonempty, append, if_pos (guarded.mpr effective)]
    rw [grown.kept.size_eq, add_exact (by simp only [addressSpace] at bounded; omega)]
  · have failed : ¬ (buffer.reserve (add buffer.size text.length) heap).ok = true :=
      fun ok => effective (guarded.mp ok)
    rw [if_neg effective, pushBack, if_neg nonempty, append, if_neg failed]
    exact Buffer.content_of_kept grown.kept

theorem pushBack_content (buffer : MutableBuffer ensure) (text : List UInt8) (heap : Heap)
    (valid : buffer.Valid) (inMemory : text.length < addressSpace) :
    (buffer.pushBack text heap).1.Valid ∧
      (buffer.pushBack text heap).1.content =
        if Effective buffer text heap then buffer.content ++ text else buffer.content := by
  by_cases nothing : text.length = 0
  · have empty_text : text = [] := List.length_eq_zero_iff.mp nothing
    subst text
    simp only [List.append_nil, ite_self]
    exact ⟨valid, rfl⟩
  cases ensure with
  | immutableEnsure => exact fixed_pushBack buffer text heap valid nothing inMemory
  | mutableEnsure => exact growing_pushBack buffer text heap valid nothing inMemory

theorem reserve_content (buffer : MutableBuffer ensure) (value : Capacity) (heap : Heap)
    (valid : buffer.Valid) :
    (buffer.reserve value.1 heap).buffer.Valid ∧
      (buffer.reserve value.1 heap).buffer.content = buffer.content := by
  obtain ⟨value, positive, small⟩ := value
  cases ensure with
  | immutableEnsure => exact ⟨valid, rfl⟩
  | mutableEnsure =>
      simp only [addressSpace] at small
      have grown := Buffer.reserve_grows buffer value heap valid (by omega)
        (by simp only [Buffer.chunkSize]; omega)
      exact ⟨grown.valid, Buffer.content_of_kept grown.kept⟩

theorem cStr_content (buffer : Buffer) (heap : Heap) (valid : buffer.Valid) :
    (Buffer.cStr buffer heap).1.content = buffer.content := by
  have grown := Buffer.reserve_more buffer 1 heap valid
    (Buffer.requestable_of_inMemory buffer 1 valid (by decide))
  simp only [Buffer.cStr]
  split
  · -- the terminator goes behind the content
    rw [← Buffer.content_of_kept grown.kept]
    exact load_store_before _ _ _ _ _ (Nat.le_of_eq (Nat.zero_add _))
  · exact Buffer.content_of_kept grown.kept

theorem step_content (system : System ensure) (op : Op ensure) (valid : system.buffer.Valid) :
    (step system op).1.buffer.Valid ∧
      (step system op).1.buffer.content =
        replay system.buffer.content (op, (step system op).2) := by
  cases op with
  | push value =>
      have pushed := pushBack_content system.buffer value.text system.heap valid
        (text_inMemory value)
      simp only [step, perform, effect, replay, push_eq, decide_eq_true_eq]
      exact pushed
  | clear => exact ⟨⟨Nat.zero_le _, valid.bounded⟩, rfl⟩
  | reserve value => exact reserve_content system.buffer value system.heap valid
  | assign value =>
      have cleared : system.buffer.clear.Valid := ⟨Nat.zero_le _, valid.bounded⟩
      have pushed := pushBack_content system.buffer.clear value.1 system.heap cleared value.2
      simp only [step, perform, effect, replay, decide_eq_true_eq]
      exact pushed
  | cStr =>
      exact ⟨BufferInvariant.cStr_valid system.buffer system.heap valid,
        cStr_content system.buffer system.heap valid⟩

/-- For both policies the content after any run is the byte list obtained by appending
each value whole or not at all, the latter exactly when it does not fit and cannot be
made to fit. -/
theorem content_replays (buffer : MutableBuffer ensure) (heap : Heap) (valid : buffer.Valid)
    (ops : List (Op ensure)) :
    (final step ⟨buffer, heap⟩ ops).buffer.content =
        (ops.zip (outputs step ⟨buffer, heap⟩ ops)).foldl replay buffer.content ∧
      Always step (fun system => system.buffer.Valid) ⟨buffer, heap⟩ ops := by
  have free : Along step (fun _ _ => True) ⟨buffer, heap⟩ ops :=
    along_of_forall step _ _ ops fun _ _ _ => trivial
  have kept : ∀ (system : System ensure) (op : Op ensure), system.buffer.Valid → True →
      (step system op).1.buffer.Valid :=
    fun system op valid _ => (step_content system op valid).1
  constructor
  · exact replayed step (fun _ _ => True) (fun system => system.buffer.Valid)
      (fun system => system.buffer.content) replay kept
      (fun system op valid _ => (step_content system op valid).2) _ ops valid free
  · exact always_of_along step (fun _ _ => True) _ kept _ ops valid free

-- The second value does not fit behind the first and leaves no trace; the third one does fit.
theorem content_replays_two_bytes :
    (⟨none, fun _ => 0, 0, 2⟩ : FixedBuffer).Valid ∧
      (final step ⟨(⟨none, fun _ => 0, 0, 2⟩ : FixedBuffer), Heap.generous⟩
        [.push (.char 97), .push (.bytes ⟨[98, 99], by decide⟩),
          .push (.char 100)]).buffer.content = [97, 100] := by
  have valid : (⟨none, fun _ => 0, 0, 2⟩ : FixedBuffer).Valid := ⟨by decide, by decide⟩
  exact ⟨valid, (content_replays _ Heap.generous valid _).1.trans (by decide)⟩

end Xio.BufferAppend
