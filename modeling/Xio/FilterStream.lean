import Xio.Buffer

/-!
`lib/FilterStream.cpp`. A filter is any subclass of `Filter` that keeps its documented
contract, to append to the output what it makes of the input. The parent is any stream
whose `read(Buffer&)` appends at most what it is asked for and reports it. The chain of
filters recycles two local buffers; their destructors only free and are left out, and so
are the operations that are stubs returning 0.
-/

namespace Xio

open Storage MachineWord Environment

structure Processed where
  result : Int
  output : Buffer
  heap : Heap

/-- A filter with its contract. The promise on the content is void once the allocator
has refused something. -/
structure Filter where
  transform : List UInt8 → List UInt8
  process : BufferRef → Buffer → Heap → Processed
  valid : ∀ input output heap, output.Valid → (process input output heap).output.Valid
  appends : ∀ input output heap, output.Valid → (process input output heap).heap.Unrefused →
    heap.Unrefused ∧
      (process input output heap).output.content = output.content ++ transform input.content

structure ParentRead (State : Type) where
  result : Int
  state : State
  buffer : Buffer
  heap : Heap

structure Parent (State : Type) where
  read : State → Buffer → Nat → Heap → ParentRead State
  valid : ∀ state buffer size heap, buffer.Valid → (read state buffer size heap).buffer.Valid
  appends : ∀ state buffer size heap, buffer.Valid →
    (read state buffer size heap).heap.Unrefused → heap.Unrefused ∧
      ∃ bytes, bytes.length ≤ size ∧ Reports (read state buffer size heap).result bytes ∧
        (read state buffer size heap).buffer.content = buffer.content ++ bytes

structure FilterStream (State : Type) where
  parent : State
  inputBuffer : Buffer
  inputPos : Nat
  outputBuffer : Buffer
  outputPos : Nat
  filters : List Filter

namespace FilterStream

-- The `do` loop: each round swaps the buffers and appends to the one it gets back.
def processLoop : List Filter → Buffer → Buffer → Heap → Buffer × Heap
  | [], result, _, heap => (result, heap)
  | filter :: rest, result, tmp, heap =>
      let (result, tmp) := result.swap tmp
      let processed := filter.process (tmp.ref 0) result heap
      processLoop rest processed.output tmp processed.heap

-- The chain's result is appended, or moved into an output that has no storage yet.
def deliver (result output : Buffer) (heap : Heap) : Processed :=
  if output.capacity ≠ 0 then
    let pushed := output.pushBack result.content heap
    ⟨signed result.size, pushed.1, pushed.2⟩
  else
    let moved := output.assignMove result heap
    ⟨signed result.size, moved.1, moved.2.2⟩

def process (filters : List Filter) (input : BufferRef) (output : Buffer) (heap : Heap) :
    Processed :=
  match filters with
  | [] => ⟨0, output, heap⟩
  | [filter] => filter.process input output heap
  | filter :: rest =>
      let first := filter.process input .empty heap
      let (result, heap) := processLoop rest first.output .empty first.heap
      deliver result output heap

variable {State : Type}

-- The constructor with a filter. The other one leaves both positions uninitialised.
def create (parent : State) (filter : Filter) : FilterStream State :=
  ⟨parent, .empty, 0, .empty, 0, [filter]⟩

structure Pull (State : Type) where
  result : Int
  stream : FilterStream State
  heap : Heap

section Reads
variable (source : Parent State)

def pull (stream : FilterStream State) (size : Nat) (heap : Heap) : Pull State :=
  if size ≤ sub stream.inputBuffer.size stream.inputPos then ⟨signed size, stream, heap⟩
  else
    let reserved := stream.inputBuffer.reserve (add stream.inputBuffer.size size) heap
    let read := source.read stream.parent reserved.buffer size reserved.heap
    -- the bytes just read are in the buffer's size and are added once more
    ⟨if read.result ≠ -1 then
        signed (add (sub read.buffer.size stream.inputPos) (unsigned read.result))
      else -1,
      { stream with parent := read.state, inputBuffer := read.buffer }, read.heap⟩

/-- The part both reads share: pull, then process all input from `inputPos_` on. -/
def refill (stream : FilterStream State) (size : Nat) (heap : Heap) : Pull State :=
  let pulled := pull source stream size heap
  let processed := process pulled.stream.filters
    (pulled.stream.inputBuffer.ref pulled.stream.inputPos) pulled.stream.outputBuffer pulled.heap
  ⟨pulled.result, { pulled.stream with outputBuffer := processed.output }, processed.heap⟩

-- The end of `read(Buffer&)`; the difference it returns is the wrong way round.
def handOver (filled : Pull State) (result : Buffer) (size : Nat) : Pull State × Buffer :=
  let available := sub filled.stream.outputBuffer.size filled.stream.outputPos
  let pushed := result.pushBack
    (load filled.stream.outputBuffer.bytes filled.stream.outputPos (min size available)) filled.heap
  (⟨signed (sub result.size pushed.1.size), filled.stream, pushed.2⟩, pushed.1)

def readBuffer (stream : FilterStream State) (result : Buffer) (size : Nat) (heap : Heap) :
    Pull State × Buffer :=
  handOver (refill source stream size heap) result size

-- Nothing is ever copied to `buf`.
def readChars (stream : FilterStream State) (size : Nat) (heap : Heap) : Pull State :=
  refill source stream size heap

end Reads

end FilterStream

namespace Filter

def compose (filters : List Filter) (input : List UInt8) : List UInt8 :=
  filters.foldl (fun bytes filter => filter.transform bytes) input

/-! Filters that push their output byte by byte exist for every transform. -/

def pushAll : List UInt8 → Buffer → Heap → Buffer × Heap
  | [], output, heap => (output, heap)
  | byte :: rest, output, heap =>
      let pushed := output.pushBackChar byte heap
      pushAll rest pushed.1 pushed.2

theorem pushAll_valid (bytes : List UInt8) (output : Buffer) (heap : Heap) (valid : output.Valid) :
    (pushAll bytes output heap).1.Valid := by
  induction bytes generalizing output heap with
  | nil => exact valid
  | cons byte rest ih => exact ih _ _ (Buffer.pushBackChar_appends output byte heap valid).valid

theorem pushAll_appends (bytes : List UInt8) (output : Buffer) (heap : Heap) (valid : output.Valid)
    (unrefused : (pushAll bytes output heap).2.Unrefused) :
    heap.Unrefused ∧ (pushAll bytes output heap).1.content = output.content ++ bytes := by
  induction bytes generalizing output heap with
  | nil => exact ⟨unrefused, (List.append_nil _).symm⟩
  | cons byte rest ih =>
      have pushed := Buffer.pushBackChar_appends output byte heap valid
      obtain ⟨granted, content⟩ := ih _ _ pushed.valid unrefused
      obtain ⟨before, whole⟩ := pushed.unrefused granted
      refine ⟨before, ?_⟩
      rw [pushAll, content, Buffer.content_of_appends pushed whole, List.append_assoc,
        List.singleton_append]

theorem pushAll_anchored (bytes : List UInt8) (output : Buffer) (heap : Heap) (valid : output.Valid)
    (anchored : output.Anchored) : (pushAll bytes output heap).1.Anchored := by
  induction bytes generalizing output heap with
  | nil => exact anchored
  | cons byte rest ih =>
      exact ih _ _ (Buffer.pushBackChar_appends output byte heap valid).valid
        (Buffer.pushBackChar_anchored output byte heap valid anchored)

def ofTransform (transform : List UInt8 → List UInt8) : Filter where
  transform := transform
  process input output heap :=
    let pushed := pushAll (transform input.content) output heap
    ⟨(transform input.content).length, pushed.1, pushed.2⟩
  valid _ output heap valid := pushAll_valid _ output heap valid
  appends _ output heap valid unrefused := pushAll_appends _ output heap valid unrefused

end Filter

def Parent.text : Parent (List UInt8) where
  read state buffer size heap :=
    let pushed := Filter.pushAll (state.take size) buffer heap
    ⟨(state.take size).length, state.drop size, pushed.1, pushed.2⟩
  valid _ buffer _ heap valid := Filter.pushAll_valid _ buffer heap valid
  appends state buffer size heap valid unrefused := by
    obtain ⟨granted, content⟩ := Filter.pushAll_appends _ buffer heap valid unrefused
    exact ⟨granted, state.take size, List.length_take_le _ _, Or.inl rfl, content⟩

namespace FilterStream

open Xio.Filter

/-- The bytes the loop ends with, given those in its two buffers: the recycled buffer
still holds the result before last. -/
def recycled : List Filter → List UInt8 → List UInt8 → List UInt8
  | [], result, _ => result
  | filter :: rest, result, tmp => recycled rest (tmp ++ filter.transform result) result

theorem processLoop_valid (filters : List Filter) (result tmp : Buffer) (heap : Heap)
    (valid : result.Valid) (tmp_valid : tmp.Valid) :
    (processLoop filters result tmp heap).1.Valid := by
  induction filters generalizing result tmp heap with
  | nil => exact valid
  | cons filter rest ih => exact ih _ _ _ (filter.valid _ tmp heap tmp_valid) valid

theorem processLoop_recycled (filters : List Filter) (result tmp : Buffer) (heap : Heap)
    (valid : result.Valid) (tmp_valid : tmp.Valid)
    (unrefused : (processLoop filters result tmp heap).2.Unrefused) :
    heap.Unrefused ∧
      (processLoop filters result tmp heap).1.content =
        recycled filters result.content tmp.content := by
  induction filters generalizing result tmp heap with
  | nil => exact ⟨unrefused, rfl⟩
  | cons filter rest ih =>
      have valid' := filter.valid (result.ref 0) tmp heap tmp_valid
      obtain ⟨granted, content⟩ := ih _ _ _ valid' valid unrefused
      obtain ⟨before, appended⟩ := filter.appends (result.ref 0) tmp heap tmp_valid granted
      rw [MutableBuffer.ref_content] at appended
      refine ⟨before, ?_⟩
      rw [recycled, ← appended]
      exact content

def made : List Filter → List UInt8 → List UInt8
  | [], _ => []
  | filter :: rest, input => recycled rest (filter.transform input) []

structure Appended (filters : List Filter) (output : Buffer) (bytes : List UInt8)
    (after : Processed) : Prop where
  content : after.output.content = output.content ++ bytes
  counted : 2 ≤ filters.length → after.result = bytes.length

theorem length_content (buffer : Buffer) : buffer.content.length = buffer.size := load_length _ _ _

theorem deliver_content (result output : Buffer) (heap : Heap) (result_valid : result.Valid)
    (valid : output.Valid) (unrefused : (deliver result output heap).heap.Unrefused) :
    heap.Unrefused ∧
      (deliver result output heap).output.content = output.content ++ result.content ∧
      (deliver result output heap).result = result.content.length := by
  have fits := valid.fits
  have bound := Nat.lt_of_le_of_lt result_valid.fits result_valid.bounded
  have counted : signed result.size = result.content.length := by
    rw [length_content]
    exact signed_exact (by simp only [addressSpace] at bound; omega)
  simp only [deliver] at unrefused ⊢
  by_cases stored : output.capacity ≠ 0
  · rw [if_pos stored] at unrefused ⊢
    have appends := Buffer.pushBack_appends output result.content heap valid
      (by rw [length_content]; exact bound)
    obtain ⟨granted, whole⟩ := appends.unrefused unrefused
    exact ⟨granted, Buffer.content_of_appends appends whole, counted⟩
  · rw [if_neg stored] at unrefused ⊢
    have nothing : output.size = 0 := by omega
    have released := Buffer.reserve_grows output 0 heap valid (fun _ => nothing) (Nat.zero_le _)
    refine ⟨(released.unrefused.mp unrefused).2, ?_, counted⟩
    simp only [MutableBuffer.content, nothing, load_zero, List.nil_append]
    rfl

theorem process_made (filters : List Filter) (input : BufferRef) (output : Buffer) (heap : Heap)
    (nonempty : filters ≠ []) (valid : output.Valid)
    (unrefused : (process filters input output heap).heap.Unrefused) :
    Appended filters output (made filters input.content) (process filters input output heap) := by
  cases filters with
  | nil => exact absurd rfl nonempty
  | cons first others =>
      cases others with
      | nil =>
          refine ⟨(first.appends input output heap valid unrefused).2, ?_⟩
          intro two
          simp at two
      | cons second rest =>
          have first_valid := first.valid input .empty heap Buffer.empty_valid
          have loop_valid := processLoop_valid (second :: rest) _ .empty
            (first.process input .empty heap).heap first_valid Buffer.empty_valid
          obtain ⟨granted, content, counted⟩ :=
            deliver_content _ output _ loop_valid valid unrefused
          obtain ⟨before, looped⟩ := processLoop_recycled (second :: rest) _ .empty _ first_valid
            Buffer.empty_valid granted
          have appended := (first.appends input .empty heap Buffer.empty_valid before).2
          have bytes : (processLoop (second :: rest) (first.process input .empty heap).output .empty
              (first.process input .empty heap).heap).1.content =
              made (first :: second :: rest) input.content := by
            rw [looped, appended]
            rfl
          exact ⟨bytes ▸ content, fun _ => bytes ▸ counted⟩

theorem compose_cons (filter : Filter) (rest : List Filter) (input : List UInt8) :
    compose (filter :: rest) input = compose rest (filter.transform input) := rfl

/-- The loop composes along the whole chain exactly when every buffer it recycles is
empty: the spare one it starts with, and later each result but the last two. -/
theorem recycled_composes_iff (filters : List Filter) (result tmp : List UInt8) :
    (∀ count ≤ filters.length,
      recycled (filters.take count) result tmp = compose (filters.take count) result) ↔
      (filters ≠ [] → tmp = []) ∧
        ∀ count, count + 2 ≤ filters.length → compose (filters.take count) result = [] := by
  -- induction on the chain: one round makes the result the next round's spare buffer
  induction filters generalizing result tmp with
  | nil => simp [recycled, compose]
  | cons filter rest ih =>
      specialize ih (filter.transform result) result
      constructor
      · intro composes
        have fresh : tmp = [] := by
          have one := composes 1 (by simp)
          rw [List.take_succ_cons, List.take_zero, compose_cons] at one
          exact List.append_left_eq_self.mp one
        obtain ⟨spare, early⟩ := ih.mp fun count within => by
          have longer := composes (count + 1) (Nat.succ_le_succ within)
          rw [List.take_succ_cons, recycled, fresh, List.nil_append] at longer
          exact longer
        refine ⟨fun _ => fresh, fun count within => ?_⟩
        cases count with
        | zero => exact spare (List.ne_nil_of_length_pos (Nat.le_of_succ_le_succ within))
        | succ count => exact early count (Nat.le_of_succ_le_succ within)
      · rintro ⟨fresh, early⟩ count within
        cases count with
        | zero => rfl
        | succ count =>
            have composes := ih.mpr ⟨fun more => early 0 (Nat.succ_le_succ
                (List.length_pos_of_ne_nil more)), fun count within =>
              early (count + 1) (Nat.succ_le_succ within)⟩ count (Nat.le_of_succ_le_succ within)
            rw [List.take_succ_cons, recycled, fresh (List.cons_ne_nil _ _), List.nil_append,
              composes, compose_cons]

theorem made_composes_iff (filters : List Filter) (input : List UInt8) :
    (∀ count, 0 < count → count ≤ filters.length →
      made (filters.take count) input = compose (filters.take count) input) ↔
      ∀ count, 0 < count → count + 2 ≤ filters.length →
        compose (filters.take count) input = [] := by
  cases filters with
  | nil =>
      exact iff_of_true (fun _ positive within => absurd within positive.not_ge)
        (fun _ _ within => absurd within (Nat.not_succ_le_zero _))
  | cons filter rest =>
      have loop := recycled_composes_iff rest (filter.transform input) []
      constructor
      · intro composes count positive within
        obtain ⟨count, rfl⟩ := Nat.exists_eq_add_one.mpr positive
        exact (loop.mp fun count within => composes (count + 1) (Nat.succ_pos _)
          (Nat.succ_le_succ within)).2 count (Nat.le_of_succ_le_succ within)
      · intro early count positive within
        obtain ⟨count, rfl⟩ := Nat.exists_eq_add_one.mpr positive
        exact loop.mpr ⟨fun _ => rfl, fun count within =>
          early (count + 1) (Nat.succ_pos _) (Nat.succ_le_succ within)⟩ count
          (Nat.le_of_succ_le_succ within)

/-- With every allocation granted, a chain composes, and so does each chain cut short after
one of its filters, exactly when all results but the last two are empty. Up to two filters
this asks for nothing. -/
theorem chain_composes_iff (filters : List Filter) (input : BufferRef) (output : Buffer)
    (heap : Heap) (valid : output.Valid)
    (granted : ∀ count ≤ filters.length,
      (process (filters.take count) input output heap).heap.Unrefused) :
    (∀ count, 0 < count → count ≤ filters.length →
      Appended (filters.take count) output (compose (filters.take count) input.content)
        (process (filters.take count) input output heap)) ↔
      ∀ count, 0 < count → count + 2 ≤ filters.length →
        compose (filters.take count) input.content = [] := by
  have appended : ∀ count, 0 < count → count ≤ filters.length →
      Appended (filters.take count) output (made (filters.take count) input.content)
        (process (filters.take count) input output heap) := by
    intro count positive within
    have nonempty : filters.take count ≠ [] := by
      rw [← List.length_pos_iff, List.length_take]
      omega
    exact process_made _ input output heap nonempty valid (granted count within)
  rw [← made_composes_iff]
  constructor
  · intro composes count positive within
    have same := (appended count positive within).content.symm.trans
      (composes count positive within).content
    exact List.append_cancel_left same
  · intro composes count positive within
    rw [← composes count positive within]
    exact appended count positive within

theorem chain_composes_iff_two :
    let upper : Filter := .ofTransform fun bytes => bytes.map (· - 32)
    let doubling : Filter := .ofTransform fun bytes => bytes ++ bytes
    let output : Buffer := ⟨none, fun _ => 33, 1, 1⟩
    (process [upper, doubling] ⟨fun _ => 97, 0, 1⟩ output .generous).output.content = [33, 65, 65] ∧
      (process [upper, doubling] ⟨fun _ => 97, 0, 1⟩ output .generous).result = 2 := by
  intro upper doubling output
  have appended := (chain_composes_iff [upper, doubling] ⟨fun _ => 97, 0, 1⟩ output .generous
    ⟨by decide, by decide⟩ (by decide)).mpr
    (fun count positive short => absurd short (by simp; omega)) 2 (by decide) (by decide)
  exact ⟨appended.content, appended.counted (by decide)⟩

def copying : Filter := .ofTransform id

/-- Three filters that copy turn one byte into two: the third appends to the first one's
result. -/
theorem third_filter_appends_to_first :
    let after := process [copying, copying, copying] ⟨fun _ => 97, 0, 1⟩ .empty .generous
    after.heap.Unrefused ∧ compose [copying, copying, copying] [97] = [97] ∧
      after.output.content = [97, 97] ∧ after.result = 2 := by
  decide

end FilterStream

end Xio
