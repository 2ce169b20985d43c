import Xio.BufferAppend

/-!
`BufferSlice` of `include/xio/Buffer.h`: a window named by an offset into the owning
buffer, so that it can follow the storage when `realloc` moves it. A slice is read
through the buffer of the moment; assertions and exceptions are `none`.
-/

namespace Xio

open Storage MachineWord Environment

def npos : Nat := 2 ^ 64 - 1

structure BufferSlice where
  offset : Nat
  size : Nat
  deriving DecidableEq

namespace BufferRef

/-- `std::string(pointer, count)`; no string is longer than an object can be. -/
def string (view : BufferRef) (offset count : Nat) : Option (List UInt8) :=
  if count < addressSpace then some (load view.bytes (view.start + offset) count) else none

-- `substr(offset)`
def substr (view : BufferRef) (offset : Nat) : Option (List UInt8) :=
  if offset ≤ view.size then
    if sub view.size offset ≠ 0 then view.string offset (sub view.size offset) else some []
  else none

-- `substr(offset, count)` knows no `npos`: the sum is all that it asserts.
def substrCount (view : BufferRef) (offset count : Nat) : Option (List UInt8) :=
  if add offset count ≤ view.size then
    if count ≠ 0 then view.string offset count else some []
  else none

def str (view : BufferRef) : Option (List UInt8) := view.substr 0

theorem string_eq (view : BufferRef) (offset count : Nat) (small : count < addressSpace) :
    (if count ≠ 0 then view.string offset count else some []) =
      some (load view.bytes (view.start + offset) count) := by
  by_cases nothing : count = 0
  · subst count
    simp
  · simp only [ne_eq, nothing, not_false_eq_true, ↓reduceIte, string, small]

theorem substr_eq (view : BufferRef) (offset : Nat) (within : offset ≤ view.size)
    (small : view.size < addressSpace) :
    view.substr offset = some (load view.bytes (view.start + offset) (view.size - offset)) := by
  rw [substr, if_pos within, sub_exact within]
  exact string_eq view offset _ (by omega)

theorem substrCount_eq (view : BufferRef) (offset count : Nat) (within : offset + count ≤ view.size)
    (small : view.size < addressSpace) :
    view.substrCount offset count = some (load view.bytes (view.start + offset) count) := by
  have exact_sum : add offset count = offset + count :=
    add_exact (by simp only [addressSpace] at small; omega)
  rw [substrCount, exact_sum, if_pos within]
  exact string_eq view offset count (by omega)

end BufferRef

namespace Buffer

def slice (buffer : Buffer) (offset count : Nat) : Option BufferSlice :=
  if offset ≤ buffer.size ∧ (count = npos ∨ add offset count ≤ buffer.size) then
    some (if count ≠ npos then ⟨offset, count⟩ else ⟨offset, sub buffer.size offset⟩)
  else none

-- What `substr` is asked to find where the slice is taken.
def selected (buffer : Buffer) (offset count : Nat) : Option (List UInt8) :=
  if count = npos then (buffer.ref 0).substr offset else (buffer.ref 0).substrCount offset count

end Buffer

/-- What a slice sees of its buffer: `BufferOffset` adds the offset to the pointer of
the moment. -/
def BufferSlice.view (window : BufferSlice) (buffer : Buffer) : BufferRef :=
  ⟨buffer.bytes, window.offset, window.size⟩

namespace Slices

open Runs BufferAppend

inductive Growth where
  | push (value : Value)
  | reserve (value : Capacity)
  | cStr

def Growth.op : Growth → Op .mutableEnsure
  | .push value => .push value
  | .reserve value => .reserve value
  | .cStr => .cStr

structure Inside (window : BufferSlice) (buffer : Buffer) : Prop where
  valid : buffer.Valid
  within : window.offset + window.size ≤ buffer.size

theorem str_eq (window : BufferSlice) (buffer : Buffer) (inside : Inside window buffer) :
    (window.view buffer).str = some (load buffer.bytes window.offset window.size) := by
  have small := Nat.lt_of_le_of_lt inside.valid.fits inside.valid.bounded
  have within := inside.within
  exact (window.view buffer).substr_eq 0 (Nat.zero_le _) (by simp only [BufferSlice.view]; omega)

-- A window of the content is a part of the byte list, wherever the block lies.
theorem load_window (window : BufferSlice) (buffer : Buffer)
    (within : window.offset + window.size ≤ buffer.size) :
    load buffer.bytes window.offset window.size =
      (buffer.content.drop window.offset).take window.size := by
  rw [MutableBuffer.content, load_drop, load_take, Nat.zero_add,
    Nat.min_eq_left (Nat.le_sub_of_add_le' within)]

theorem growth_content (growth : Growth) (system : System .mutableEnsure)
    (valid : system.buffer.Valid) :
    ∃ more, (step system growth.op).1.buffer.content = system.buffer.content ++ more := by
  rw [(step_content system growth.op valid).2]
  cases growth with
  | push value =>
      simp only [Growth.op, replay]
      split
      · exact ⟨value.text, rfl⟩
      · exact ⟨[], (List.append_nil _).symm⟩
  | reserve value => exact ⟨[], (List.append_nil _).symm⟩
  | cStr => exact ⟨[], (List.append_nil _).symm⟩

theorem growth_keeps (window : BufferSlice) (growth : Growth) (system : System .mutableEnsure)
    (inside : Inside window system.buffer) :
    Inside window (step system growth.op).1.buffer ∧
      (window.view (step system growth.op).1.buffer).str = (window.view system.buffer).str := by
  have within := inside.within
  obtain ⟨more, grown⟩ := growth_content growth system inside.valid
  have longer : system.buffer.size ≤ (step system growth.op).1.buffer.size := by
    have lengths := congrArg List.length grown
    simp only [MutableBuffer.content, List.length_append, load_length] at lengths
    omega
  have after : Inside window (step system growth.op).1.buffer :=
    ⟨(step_content system growth.op inside.valid).1, Nat.le_trans within longer⟩
  refine ⟨after, ?_⟩
  have held : window.offset + window.size ≤ system.buffer.content.length := by
    rw [MutableBuffer.content, load_length]
    exact within
  rw [str_eq window _ after, str_eq window _ inside, load_window window _ after.within,
    load_window window _ within, grown, List.drop_append_of_le_length (by omega),
    List.take_append_of_le_length (by rw [List.length_drop]; omega)]

theorem slice_inside (buffer : Buffer) (offset count : Nat) (valid : buffer.Valid)
    (asserted : offset ≤ buffer.size ∧ (count = npos ∨ offset + count ≤ buffer.size)) :
    ∃ window, buffer.slice offset count = some window ∧ window.offset = offset ∧
      Inside window buffer ∧ (window.view buffer).str = buffer.selected offset count := by
  obtain ⟨start, extent⟩ := asserted
  have small := Nat.lt_of_le_of_lt valid.fits valid.bounded
  have whole : (buffer.ref 0).size = buffer.size := sub_exact (Nat.zero_le _)
  by_cases rest : count = npos
  · have taken : buffer.slice offset count = some ⟨offset, buffer.size - offset⟩ := by
      simp [Buffer.slice, start, rest, sub_exact]
    have inside : Inside ⟨offset, buffer.size - offset⟩ buffer :=
      ⟨valid, Nat.le_of_eq (Nat.add_sub_of_le start)⟩
    refine ⟨_, taken, rfl, inside, ?_⟩
    rw [str_eq _ _ inside, Buffer.selected, if_pos rest,
      BufferRef.substr_eq _ _ (by rw [whole]; exact start) (by rw [whole]; exact small), whole]
    simp [MutableBuffer.ref]
  · have within : offset + count ≤ buffer.size := extent.resolve_left rest
    have exact_sum : add offset count = offset + count :=
      add_exact (by simp only [addressSpace] at small; omega)
    have taken : buffer.slice offset count = some ⟨offset, count⟩ := by
      simp [Buffer.slice, start, rest, exact_sum, within]
    have inside : Inside ⟨offset, count⟩ buffer := ⟨valid, within⟩
    refine ⟨_, taken, rfl, inside, ?_⟩
    rw [str_eq _ _ inside, Buffer.selected, if_neg rest,
      BufferRef.substrCount_eq _ _ _ (by rw [whole]; exact within) (by rw [whole]; exact small)]
    simp [MutableBuffer.ref]

/-- A slice taken within its asserted bounds shows, after any growing operations and
whatever `realloc` does to the block, the bytes that `substr` showed when it was taken:
`substr(offset, count)`, or `substr(offset)` where `count` is `npos`. -/
theorem slice_survives_growth (buffer : SoundBuffer) (heap : Heap) (offset count : Nat)
    (asserted : offset ≤ buffer.1.size ∧ (count = npos ∨ offset + count ≤ buffer.1.size))
    (growths : List Growth) :
    ∃ window text, Buffer.slice buffer.1 offset count = some window ∧ window.offset = offset ∧
      Buffer.selected buffer.1 offset count = some text ∧
      Always step (fun system => (window.view system.buffer).str = some text ∧
          window.offset + window.size ≤ system.buffer.size)
        ⟨buffer.1, heap⟩ (growths.map Growth.op) := by
  obtain ⟨window, taken, at_offset, inside, shown⟩ :=
    slice_inside buffer.1 offset count buffer.2 asserted
  have text := str_eq window buffer.1 inside
  refine ⟨window, _, taken, at_offset, shown.symm.trans text, ?_⟩
  have kept : Always step (fun system => Inside window system.buffer ∧
      (window.view system.buffer).str = (window.view buffer.1).str)
      ⟨buffer.1, heap⟩ (growths.map Growth.op) := by
    apply always_of_along step (fun _ op => ∃ growth : Growth, op = growth.op)
    · rintro system op ⟨inside, same⟩ ⟨growth, rfl⟩
      have next := growth_keeps window growth system inside
      exact ⟨next.1, next.2.trans same⟩
    · exact ⟨inside, rfl⟩
    · exact along_of_forall step _ _ _ (by
        intro op member _
        obtain ⟨growth, _, rfl⟩ := List.mem_map.mp member
        exact ⟨growth, rfl⟩)
  exact always_mono step _ _ (fun _ held => ⟨held.2.trans text, held.1.within⟩) _ _ kept

def abc : SoundBuffer := ⟨⟨some 0, store (fun _ => 0) 0 [97, 98, 99], 3, 3⟩, by decide, by decide⟩

theorem slice_survives_growth_moved :
    (1 ≤ abc.1.size ∧ (2 = npos ∨ 1 + 2 ≤ abc.1.size)) ∧
      ∃ window, Buffer.slice abc.1 1 2 = some window ∧
        (window.view (final step ⟨abc.1, Heap.generous⟩
          [.push (.char 100), .cStr]).buffer).str = some [98, 99] := by
  have asserted : 1 ≤ abc.1.size ∧ (2 = npos ∨ 1 + 2 ≤ abc.1.size) := by decide
  obtain ⟨window, text, taken, _, shown, always⟩ :=
    slice_survives_growth abc Heap.generous 1 2 asserted [.push (.char 100), .cStr]
  have found : Buffer.selected abc.1 1 2 = some [98, 99] := by decide
  have bytes : text = [98, 99] := Option.some.inj (shown.symm.trans found)
  subst text
  exact ⟨asserted, window, taken, (always_final step _ _ _ always).1⟩

/-- `slice(1, npos)` of three bytes shows two of them, but `substr(1, npos)` throws: its
assertion sees a sum that has wrapped, and no string has `npos` bytes. -/
theorem substr_refuses_npos :
    ∃ window, Buffer.slice abc.1 1 npos = some window ∧
      (window.view abc.1).str = some [98, 99] ∧
      (abc.1.ref 0).substrCount 1 npos = none :=
  ⟨⟨1, 2⟩, by decide, by decide, by decide⟩

end Slices

end Xio
