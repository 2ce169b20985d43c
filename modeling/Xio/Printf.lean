import Xio.Capacity

/-!
`MutableBuffer::printf` with arguments, step by step. The trace of a call keeps what the
final buffer does not show: how often `snprintf` ran, what each `reserve` of the loop
answered, and every store together with the capacity of the block it went to. Forgetting
these leaves the loop of `Xio.Buffer`.
-/

namespace Xio.Printf

open Storage MachineWord Environment MutableBuffer

variable {ensure : Ensure}

structure Stored where
  start : Nat
  length : Nat
  capacity : Nat
  deriving DecidableEq

def Stored.Inside (stored : Stored) : Prop := stored.start + stored.length ≤ stored.capacity

inductive Exit where
  | success
  | allocFailure
  deriving DecidableEq

structure Trace (ensure : Ensure) where
  exit : Option Exit
  formats : Nat
  reserved : List Bool
  stores : List Stored
  buffer : MutableBuffer ensure
  heap : Heap

-- What `printed` stores: nothing without room, else a part of the text and the terminator.
def formatStores (buffer : MutableBuffer ensure) (text : Option (List UInt8)) : List Stored :=
  let room := sub buffer.capacity buffer.size
  if room = 0 then []
  else [⟨buffer.size, ((text.getD []).take (room - 1) ++ [0]).length, buffer.capacity⟩]

def traceLoop (text : Option (List UInt8)) : Nat → MutableBuffer ensure → Heap → Trace ensure
  | 0, buffer, heap => ⟨none, 0, [], [], buffer, heap⟩
  | rounds + 1, buffer, heap =>
      let written := buffer.snprintf text
      let length := formatted text
      let stores := formatStores buffer text
      if -1 ≤ length ∧ length < signed (sub buffer.capacity buffer.size) then
        ⟨some .success, 1, [], stores,
          (written.resize (if length < 0 then sub written.size 1
            else add written.size length.toNat)).2, heap⟩
      else
        let grown := written.reserve
          (add written.capacity (retryLength length written.capacity)) heap
        if grown.ok then
          let rest := traceLoop text rounds grown.buffer grown.heap
          { rest with
            formats := rest.formats + 1
            reserved := true :: rest.reserved
            stores := stores ++ rest.stores }
        else
          let last := sub grown.buffer.capacity 1
          ⟨some .allocFailure, 1, [false], stores ++ [⟨last, 1, grown.buffer.capacity⟩],
            { grown.buffer with bytes := store grown.buffer.bytes last [0] }, grown.heap⟩

-- The answer to the first `reserve` is ignored; it is traced like the others.
def trace (buffer : MutableBuffer ensure) (format : List UInt8) (text : Option (List UInt8))
    (rounds : Nat) (heap : Heap) : Trace ensure :=
  let first := buffer.reserve (add (add buffer.size format.length) 1) heap
  let rest := traceLoop text rounds first.buffer first.heap
  { rest with reserved := first.ok :: rest.reserved }

theorem traceLoop_erases (text : Option (List UInt8)) (rounds : Nat) (buffer : MutableBuffer ensure)
    (heap : Heap) :
    ((traceLoop text rounds buffer heap).buffer, (traceLoop text rounds buffer heap).heap) =
      printfLoop text rounds buffer heap := by
  induction rounds generalizing buffer heap with
  | zero => rfl
  | succ rounds ih =>
      simp only [traceLoop, printfLoop]
      split
      · rfl
      split
      · exact ih _ _
      · rfl

theorem trace_erases (buffer : MutableBuffer ensure) (format : List UInt8)
    (text : Option (List UInt8)) (rounds : Nat) (heap : Heap) :
    ((trace buffer format text rounds heap).buffer, (trace buffer format text rounds heap).heap) =
      buffer.printf format text rounds heap :=
  traceLoop_erases text rounds _ _

/-! What the pieces of a round do. -/

structure Secures (before : MutableBuffer ensure) (value : Nat) (after : Reserved ensure) :
    Prop where
  valid : after.buffer.Valid
  kept : before.Kept after.buffer
  room : after.ok = true → value ≤ after.buffer.capacity
  atomic : after.ok = false → after.buffer = before

theorem reserve_secures (buffer : MutableBuffer ensure) (value : Nat) (heap : Heap)
    (valid : buffer.Valid) (positive : 0 < value) (small : value ≤ 2 ^ 64 - Buffer.chunkSize) :
    Secures buffer value (buffer.reserve value heap) := by
  have atomic := Capacity.reserve_refused buffer value heap
  cases ensure with
  | immutableEnsure =>
      exact ⟨valid, Buffer.kept_refl buffer, fun ok => of_decide_eq_true ok, atomic⟩
  | mutableEnsure =>
      have grown := Buffer.reserve_grows buffer value heap valid (by omega) small
      exact ⟨grown.valid, grown.kept, grown.room, atomic⟩

theorem first_secures (buffer : MutableBuffer ensure) (format : Object) (heap : Heap)
    (valid : buffer.Valid) :
    Secures buffer (buffer.size + format.1.length + 1)
      (buffer.reserve (add (add buffer.size format.1.length) 1) heap) := by
  have fits := valid.fits
  have bounded := valid.bounded
  have inMemory := format.2
  simp only [addressSpace] at bounded inMemory
  rw [@add_exact buffer.size format.1.length (by omega), add_exact (by omega)]
  exact reserve_secures buffer _ heap valid (by omega) (by simp only [Buffer.chunkSize]; omega)

theorem room_exact (buffer : MutableBuffer ensure) (valid : buffer.Valid) :
    sub buffer.capacity buffer.size = buffer.capacity - buffer.size ∧
      signed (sub buffer.capacity buffer.size) = (buffer.capacity - buffer.size : Nat) := by
  have bounded := valid.bounded
  simp only [addressSpace] at bounded
  rw [sub_exact valid.fits]
  exact ⟨rfl, signed_exact (by omega)⟩

-- `snprintf` writes behind the content only.
theorem snprintf_kept (buffer : MutableBuffer ensure) (text : Option (List UInt8)) :
    buffer.Kept (buffer.snprintf text) := by
  refine ⟨rfl, ?_⟩
  intro address inside
  simp only [snprintf, printed]
  split
  · rfl
  · exact store_outside _ _ _ _ (Or.inl inside)

theorem formatStores_inside (buffer : MutableBuffer ensure) (text : Option (List UInt8))
    (valid : buffer.Valid) : ∀ stored ∈ formatStores buffer text, stored.Inside := by
  have fits := valid.fits
  intro stored member
  simp only [formatStores, (room_exact buffer valid).1] at member
  split at member
  · cases member
  · rename_i some_room
    rw [List.mem_singleton.mp member]
    simp only [Stored.Inside, List.length_append, List.length_take, List.length_singleton]
    omega

theorem round_appends (text : List UInt8) (rounds : Nat) (buffer : MutableBuffer ensure)
    (heap : Heap) (valid : buffer.Valid) (standard : formatted (some text) = text.length)
    (room : buffer.size + text.length < buffer.capacity) :
    let traced := traceLoop (some text) (rounds + 1) buffer heap
    traced.exit = some .success ∧ traced.formats = 1 ∧ traced.reserved = [] ∧
      (∀ stored ∈ traced.stores, stored.Inside) ∧
      traced.buffer.content = buffer.content ++ text := by
  have bounded := valid.bounded
  simp only [addressSpace] at bounded
  obtain ⟨roomy, signed_room⟩ := room_exact buffer valid
  have fits : -1 ≤ formatted (some text) ∧
      formatted (some text) < signed (sub buffer.capacity buffer.size) := by
    rw [standard, signed_room]
    omega
  have whole : text.take (buffer.capacity - buffer.size - 1) = text :=
    List.take_of_length_le (by omega)
  simp only [traceLoop, if_pos fits]
  refine ⟨trivial, trivial, trivial, formatStores_inside buffer _ valid, ?_⟩
  have unsigned_length : ¬ ((text.length : Int) < 0) := by omega
  rw [standard, if_neg unsigned_length, Int.toNat_natCast]
  have sum : add (buffer.snprintf (some text)).size text.length = buffer.size + text.length :=
    add_exact (by show buffer.size + text.length < _; omega)
  rw [sum, resize, if_neg (by show ¬ buffer.capacity < _; omega)]
  simp only [content, snprintf, printed, roomy, Option.getD_some, whole]
  rw [if_neg (by omega), load_add, Nat.zero_add]
  congr 1
  · exact load_store_before _ _ _ _ _ (by omega)
  · -- the terminator stands behind the text
    exact load_store_append buffer.bytes buffer.size text [0]

theorem round_retries (text : List UInt8) (rounds : Nat) (buffer : MutableBuffer ensure)
    (heap : Heap) (valid : buffer.Valid) (standard : formatted (some text) = text.length)
    (full : buffer.capacity ≤ buffer.size + text.length) :
    let written := buffer.snprintf (some text)
    let grown := written.reserve (buffer.capacity + (text.length + 1)) heap
    Secures written (buffer.capacity + (text.length + 1)) grown ∧
      traceLoop (some text) (rounds + 1) buffer heap =
        if grown.ok then
          { traceLoop (some text) rounds grown.buffer grown.heap with
            formats := (traceLoop (some text) rounds grown.buffer grown.heap).formats + 1
            reserved := true :: (traceLoop (some text) rounds grown.buffer grown.heap).reserved
            stores := formatStores buffer (some text) ++
              (traceLoop (some text) rounds grown.buffer grown.heap).stores }
        else
          ⟨some .allocFailure, 1, [false],
            formatStores buffer (some text) ++ [⟨sub buffer.capacity 1, 1, buffer.capacity⟩],
            { written with bytes := store written.bytes (sub buffer.capacity 1) [0] },
            grown.heap⟩ := by
  intro written grown
  have bounded := valid.bounded
  have fits := valid.fits
  simp only [addressSpace] at bounded
  have int_length : text.length < 2 ^ 31 := by
    simp only [formatted] at standard
    split at standard <;> omega
  have secures : Secures written (buffer.capacity + (text.length + 1)) grown :=
    reserve_secures written _ heap ⟨fits, valid.bounded⟩ (by omega)
      (by simp only [Buffer.chunkSize]; omega)
  refine ⟨secures, ?_⟩
  have retried : ¬ (-1 ≤ formatted (some text) ∧
      formatted (some text) < signed (sub buffer.capacity buffer.size)) := by
    rw [standard, (room_exact buffer valid).2]
    omega
  have request : add (buffer.snprintf (some text)).capacity
      (retryLength (formatted (some text)) (buffer.snprintf (some text)).capacity) =
        buffer.capacity + (text.length + 1) := by
    rw [standard, retryLength, if_pos (by omega), Int.toNat_natCast]
    exact add_exact (by show buffer.capacity + (text.length + 1) < _; omega)
  simp only [traceLoop, if_neg retried, request]
  split
  · rfl
  · rename_i refused
    simp only [Bool.not_eq_true] at refused
    have same : grown.buffer = written := secures.atomic refused
    rw [show (buffer.snprintf (some text)).reserve (buffer.capacity + (text.length + 1)) heap
      = grown from rfl, same]
    rfl

theorem retry_appends (text : List UInt8) (rounds : Nat) (buffer : MutableBuffer ensure)
    (standard : formatted (some text) = text.length) (grown : Reserved ensure)
    (ok : grown.ok = true) (fits : buffer.size ≤ buffer.capacity)
    (secures : Secures (buffer.snprintf (some text)) (buffer.capacity + (text.length + 1)) grown) :
    let traced := traceLoop (some text) (rounds + 1) grown.buffer grown.heap
    traced.exit = some .success ∧ traced.formats = 1 ∧
      (∀ stored ∈ traced.stores, stored.Inside) ∧
      traced.buffer.content = buffer.content ++ text := by
  have sized := secures.kept.size_eq
  have written : (buffer.snprintf (some text)).size = buffer.size := rfl
  have capacity := secures.room ok
  obtain ⟨exited, once, _, inside, appended⟩ :=
    round_appends text rounds grown.buffer grown.heap secures.valid standard (by omega)
  refine ⟨exited, once, inside, ?_⟩
  rw [appended, Buffer.content_of_kept secures.kept,
    Buffer.content_of_kept (snprintf_kept buffer (some text))]

theorem loop_appends (text : List UInt8) (rounds : Nat) (buffer : MutableBuffer ensure)
    (heap : Heap) (valid : buffer.Valid) (standard : formatted (some text) = text.length)
    (enough : 2 ≤ rounds)
    (granted : ∀ ok ∈ (traceLoop (some text) rounds buffer heap).reserved, ok = true) :
    let traced := traceLoop (some text) rounds buffer heap
    traced.exit = some .success ∧ traced.formats ≤ 2 ∧
      (∀ stored ∈ traced.stores, stored.Inside) ∧
      traced.buffer.content = buffer.content ++ text := by
  obtain ⟨more, rfl⟩ : ∃ more, rounds = more + 1 + 1 := ⟨rounds - 2, by omega⟩
  have fits := valid.fits
  by_cases room : buffer.size + text.length < buffer.capacity
  · obtain ⟨exited, once, _, inside, appended⟩ :=
      round_appends text (more + 1) buffer heap valid standard room
    exact ⟨exited, by rw [once]; omega, inside, appended⟩
  · obtain ⟨secures, retried⟩ :=
      round_retries text (more + 1) buffer heap valid standard (by omega)
    rw [retried] at granted ⊢
    split at granted
    · rename_i ok
      obtain ⟨exited, once, inside, appended⟩ :=
        retry_appends text more buffer standard _ ok fits secures
      rw [if_pos ok]
      refine ⟨exited, by rw [once], ?_, appended⟩
      intro stored member
      rcases List.mem_append.mp member with here | later
      · exact formatStores_inside buffer _ valid stored here
      · exact inside stored later
    · exact absurd (granted false List.mem_cons_self) Bool.false_ne_true

/-- A `printf` whose reservations are all granted formats at most twice, appends exactly
the text, and stores within the block of the moment only. -/
theorem printf_appends_text (buffer : MutableBuffer ensure) (format : Object) (text : List UInt8)
    (rounds : Nat) (heap : Heap) (valid : buffer.Valid)
    (standard : formatted (some text) = text.length) (enough : 2 ≤ rounds)
    (granted : ∀ ok ∈ (trace buffer format.1 (some text) rounds heap).reserved, ok = true) :
    (trace buffer format.1 (some text) rounds heap).exit = some .success ∧
      (trace buffer format.1 (some text) rounds heap).formats ≤ 2 ∧
      (buffer.printf format.1 (some text) rounds heap).1.content = buffer.content ++ text ∧
      ∀ stored ∈ (trace buffer format.1 (some text) rounds heap).stores, stored.Inside := by
  have first := first_secures buffer format heap valid
  obtain ⟨exited, twice, inside, appended⟩ := loop_appends text rounds _ _ first.valid standard
    enough fun ok member => granted ok (List.mem_cons_of_mem _ member)
  refine ⟨exited, twice, ?_, inside⟩
  rw [← trace_erases, ← Buffer.content_of_kept first.kept]
  exact appended

-- The first guess is three bytes; five and a terminator take a second round.
theorem printf_appends_text_grown :
    ((empty : Buffer).printf [37, 115] (some [104, 101, 108, 108, 111]) 2 Heap.generous).1.content =
      [104, 101, 108, 108, 111] :=
  (printf_appends_text (empty : Buffer) ⟨[37, 115], by decide⟩ [104, 101, 108, 108, 111] 2
    Heap.generous Buffer.empty_valid rfl (by decide) (by decide)).2.2.1

/-! A `printf` that cannot append. -/

def Fails (text : Option (List UInt8)) (traced : Trace ensure) : Prop :=
  formatted text = -1 ∨ traced.exit = some .allocFailure

structure Untouched (buffer : MutableBuffer ensure) (traced : Trace ensure) : Prop where
  size_eq : traced.buffer.size = buffer.size
  content_eq : traced.buffer.content = buffer.content
  inside : ∀ stored ∈ traced.stores, stored.Inside

/-- The length -1 is taken for a success, and `resize` subtracts one: nothing happens only
where there is nothing. -/
theorem unformatted_untouched_iff (text : Option (List UInt8)) (rounds : Nat)
    (buffer : MutableBuffer ensure) (heap : Heap) (valid : buffer.Valid)
    (failed : formatted text = -1) :
    Untouched buffer (traceLoop text (rounds + 1) buffer heap) ↔ buffer.size = 0 := by
  have fits := valid.fits
  have bounded := valid.bounded
  simp only [addressSpace] at bounded
  have accepted : -1 ≤ formatted text ∧
      formatted text < signed (sub buffer.capacity buffer.size) := by
    rw [failed, (room_exact buffer valid).2]
    omega
  have inside := formatStores_inside buffer text valid
  have negative : formatted text < 0 := by omega
  simp only [traceLoop, if_pos accepted, if_pos negative]
  constructor
  · intro untouched
    by_contra stored
    have size_eq := untouched.size_eq
    have shorter : sub (buffer.snprintf text).size 1 = buffer.size - 1 := sub_exact (by
      show 1 ≤ buffer.size
      omega)
    simp only [shorter, resize] at size_eq
    rw [if_neg (by show ¬ buffer.capacity < _; omega)] at size_eq
    simp only at size_eq
    omega
  · intro nothing
    have wrapped : sub (buffer.snprintf text).size 1 = 2 ^ 64 - 1 := by
      show sub buffer.size 1 = _
      rw [nothing]
      rfl
    rw [wrapped, resize, if_pos (by show buffer.capacity < _; omega)]
    exact ⟨rfl, Buffer.content_of_kept (snprintf_kept buffer text), inside⟩

-- The terminator of the failure exit, stored in the last cell of the block.
theorem terminated_content_iff (buffer : MutableBuffer ensure)
    (fits : buffer.size ≤ buffer.capacity)
    (backed : 0 < buffer.capacity) :
    load (store buffer.bytes (buffer.capacity - 1) [0]) 0 buffer.size = buffer.content ↔
      buffer.size < buffer.capacity ∨ buffer.content.getLast? = some 0 := by
  by_cases room : buffer.size < buffer.capacity
  · simp only [room, true_or, iff_true, content]
    exact load_store_before _ _ _ _ _ (by omega)
  · obtain ⟨last, full⟩ : ∃ last, buffer.size = last + 1 := ⟨buffer.size - 1, by omega⟩
    have cell : buffer.capacity - 1 = last := by omega
    have before : load (store buffer.bytes last [0]) 0 last = load buffer.bytes 0 last :=
      load_store_before _ _ _ _ _ (by omega)
    have stored : store buffer.bytes last [0] last = 0 := by simp [store]
    rw [or_iff_right room]
    simp only [content, cell, full, load_add, before]
    simp [load, stored, eq_comm]

-- The failure exit after one formatting.
theorem terminated_untouched_iff (text : Option (List UInt8)) (buffer : MutableBuffer ensure)
    (heap : Heap) (valid : buffer.Valid) :
    let written := buffer.snprintf text
    Untouched buffer ⟨some .allocFailure, 1, [false],
        formatStores buffer text ++ [⟨sub buffer.capacity 1, 1, buffer.capacity⟩],
        { written with bytes := store written.bytes (sub buffer.capacity 1) [0] }, heap⟩ ↔
      0 < buffer.capacity ∧ (buffer.size < buffer.capacity ∨ buffer.content.getLast? = some 0) := by
  intro written
  have terminated := terminated_content_iff written valid.fits
  rw [Buffer.content_of_kept (snprintf_kept buffer text)] at terminated
  constructor
  · intro untouched
    have last := untouched.inside ⟨sub buffer.capacity 1, 1, buffer.capacity⟩
      (List.mem_append_right _ List.mem_cons_self)
    have backed : 0 < buffer.capacity := by
      simp only [Stored.Inside, sub] at last
      split at last <;> omega
    refine ⟨backed, (terminated backed).mp ?_⟩
    have content_eq := untouched.content_eq
    rw [sub_exact backed] at content_eq
    exact content_eq
  · rintro ⟨backed, harmless⟩
    rw [sub_exact backed]
    refine ⟨rfl, (terminated backed).mpr harmless, ?_⟩
    intro stored member
    rcases List.mem_append.mp member with formats | terminator
    · exact formatStores_inside buffer _ valid stored formats
    · rw [List.mem_singleton.mp terminator]
      simp only [Stored.Inside]
      omega

theorem refused_untouched_iff (text : List UInt8) (rounds : Nat) (buffer : MutableBuffer ensure)
    (heap : Heap) (valid : buffer.Valid) (standard : formatted (some text) = text.length)
    (failed : (traceLoop (some text) (rounds + 1 + 1) buffer heap).exit = some .allocFailure) :
    Untouched buffer (traceLoop (some text) (rounds + 1 + 1) buffer heap) ↔
      0 < buffer.capacity ∧ (buffer.size < buffer.capacity ∨ buffer.content.getLast? = some 0) := by
  have full : ¬ buffer.size + text.length < buffer.capacity := by
    intro room
    have exited := (round_appends text (rounds + 1) buffer heap valid standard room).1
    rw [exited] at failed
    cases failed
  obtain ⟨secures, retried⟩ :=
    round_retries text (rounds + 1) buffer heap valid standard (by omega)
  rw [retried] at failed ⊢
  split at failed
  · -- a granted reservation is large enough, so the second round would have succeeded
    rename_i ok
    have exited := (retry_appends text rounds buffer standard _ ok valid.fits secures).1
    simp only [exited] at failed
    cases failed
  · rename_i refused
    rw [if_neg refused]
    exact terminated_untouched_iff (some text) buffer _ valid

/-- When a failing `printf` does no harm: a formatting error needs an empty buffer; a lack
of room needs a block whose last byte is not content, or is a zero already. -/
def Harmless (buffer : MutableBuffer ensure) (format : List UInt8) (text : Option (List UInt8))
    (heap : Heap) : Prop :=
  if formatted text = -1 then buffer.size = 0
  else
    let capacity := (buffer.reserve (add (add buffer.size format.length) 1) heap).buffer.capacity
    0 < capacity ∧ (buffer.size < capacity ∨ buffer.content.getLast? = some 0)

instance (buffer : MutableBuffer ensure) (format : List UInt8) (text : Option (List UInt8))
    (heap : Heap) : Decidable (Harmless buffer format text heap) :=
  inferInstanceAs (Decidable (ite _ _ _))

-- The first `reserve` stores nothing and keeps the content.
theorem untouched_after_first (buffer : MutableBuffer ensure) (format : Object)
    (text : Option (List UInt8)) (rounds : Nat) (heap : Heap) (valid : buffer.Valid) :
    let first := buffer.reserve (add (add buffer.size format.1.length) 1) heap
    Untouched buffer (trace buffer format.1 text rounds heap) ↔
      Untouched first.buffer (traceLoop text rounds first.buffer first.heap) := by
  have kept := (first_secures buffer format heap valid).kept
  have same := Buffer.content_of_kept kept
  constructor
  · rintro ⟨size_eq, content_eq, inside⟩
    exact ⟨size_eq.trans kept.size_eq.symm, content_eq.trans same.symm, inside⟩
  · rintro ⟨size_eq, content_eq, inside⟩
    exact ⟨size_eq.trans kept.size_eq, content_eq.trans same, inside⟩

theorem formatted_standard (text : Option (List UInt8)) (counted : formatted text ≠ -1) :
    ∃ given, text = some given ∧ formatted (some given) = given.length := by
  cases text with
  | none => exact absurd rfl counted
  | some given =>
      refine ⟨given, rfl, ?_⟩
      by_cases short : given.length < 2 ^ 31
      · rw [formatted, if_pos short]
      · rw [formatted, if_neg short] at counted
        exact absurd rfl counted

theorem failed_printf_untouched_iff (buffer : MutableBuffer ensure) (format : Object)
    (text : Option (List UInt8)) (rounds : Nat) (heap : Heap) (valid : buffer.Valid)
    (enough : 2 ≤ rounds) (fails : Fails text (trace buffer format.1 text rounds heap)) :
    Untouched buffer (trace buffer format.1 text rounds heap) ↔
      Harmless buffer format.1 text heap := by
  obtain ⟨more, rfl⟩ : ∃ more, rounds = more + 1 + 1 := ⟨rounds - 2, by omega⟩
  have first := first_secures buffer format heap valid
  have sized := first.kept.size_eq
  refine (untouched_after_first buffer format text _ heap valid).trans ?_
  by_cases failed : formatted text = -1
  · have here := unformatted_untouched_iff text (more + 1) _
      (buffer.reserve (add (add buffer.size format.1.length) 1) heap).heap first.valid failed
    rw [sized] at here
    rw [Harmless, if_pos failed]
    exact here
  · obtain ⟨given, rfl, standard⟩ := formatted_standard text failed
    have here := refused_untouched_iff given more _ _ first.valid standard
      (fails.resolve_left failed)
    rw [sized, Buffer.content_of_kept first.kept] at here
    rw [Harmless, if_neg failed]
    exact here

-- Three bytes in a block of `capacity` that the buffer does not own.
def fixed (capacity : Nat) : FixedBuffer := ⟨none, store (fun _ => 0) 0 [97, 98, 99], 3, capacity⟩

theorem failed_printf_untouched_spare :
    Untouched (fixed 5) (trace (fixed 5) [37, 100] (some [49, 50, 51]) 2 Heap.exhausted) :=
  (failed_printf_untouched_iff (fixed 5) ⟨[37, 100], by decide⟩ (some [49, 50, 51]) 2 Heap.exhausted
    ⟨by decide, by decide⟩ (by decide) (Or.inr (by decide))).mpr (by decide)

/-- A formatting error takes a byte away, a full buffer loses its last byte to the
terminator, and without a block the terminator goes in front of it. -/
theorem failed_printf_harms :
    (trace (fixed 5) [37, 100] none 2 Heap.exhausted).buffer.content = [97, 98] ∧
      (trace (fixed 3) [37, 100] (some [49]) 2 Heap.exhausted).buffer.content = [97, 98, 0] ∧
      (trace (empty : Buffer) [37, 100] (some [49]) 2 Heap.exhausted).stores =
        [⟨2 ^ 64 - 1, 1, 0⟩] := by
  decide

end Xio.Printf
