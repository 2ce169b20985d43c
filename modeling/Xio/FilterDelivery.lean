import Xio.Runs
import Xio.FilterStream

/-!
Reading through a `FilterStream` with one byte-wise filter. `inputPos_` and `outputPos_`
are set by the constructor and by nothing else, so everything pulled is processed and
delivered again by every later call. A run is right up to the first byte the parent
hands over, or to the first read that frees the storage it was given: an empty
`BufferStream` does that to an empty buffer, and the next pull would go on using it.
-/

namespace Xio.FilterDelivery

open Storage MachineWord Environment Runs FilterStream

variable {State : Type}

structure System (State : Type) where
  stream : FilterStream State
  heap : Heap

def start (parent : State) (filter : Filter) (heap : Heap) : System State :=
  ⟨.create parent filter, heap⟩

inductive Op where
  | readBuffer (result : Buffer) (size : Nat)
  | readChars (size : Nat)

def Op.size : Op → Nat
  | .readBuffer _ size => size
  | .readChars size => size

/-- What a call took from the parent, ran through the filter, and put into its sink. -/
structure Event where
  result : Int
  pulled : List UInt8
  processed : List UInt8
  delivered : List UInt8
  deriving DecidableEq

section Runs
variable (source : Parent State)

def observe (before : FilterStream State) (after : Pull State) (delivered : List UInt8) :
    System State × Event :=
  (⟨after.stream, after.heap⟩,
    ⟨after.result, after.stream.inputBuffer.content.drop before.inputBuffer.size,
      (after.stream.inputBuffer.ref after.stream.inputPos).content, delivered⟩)

def step : Machine (System State) Op Event
  | ⟨stream, heap⟩, .readBuffer result size =>
      let (after, filled) := stream.readBuffer source result size heap
      observe stream after (filled.content.drop result.size)
  | ⟨stream, heap⟩, .readChars size => observe stream (stream.readChars source size heap) []

def handed (system : System State) (size : Nat) : List UInt8 :=
  (system.stream.pull source size system.heap).stream.inputBuffer.content.drop
    system.stream.inputBuffer.size

/-- Nothing is asked for, or the parent's read leaves the input buffer as long as it was
and does not part it from its storage. -/
def Dry (system : System State) (op : Op) : Prop :=
  let reserved := system.stream.inputBuffer.reserve
    (add system.stream.inputBuffer.size op.size) system.heap
  let read := source.read system.stream.parent reserved.buffer op.size reserved.heap
  op.size = 0 ∨ read.buffer.size = reserved.buffer.size ∧ read.buffer.Anchored

structure Rooted (stream : FilterStream State) : Prop where
  input : stream.inputBuffer.Anchored
  output : stream.outputBuffer.Anchored

/-- A call returns how much it delivered, at most what was asked for, or fails and
delivers nothing. It leaves both buffers fit for the next call. -/
structure Honest (system : System State) (op : Op) : Prop where
  reports : Reports (step source system op).2.result (step source system op).2.delivered
  limit : (step source system op).2.delivered.length ≤ op.size
  rooted : Rooted (step source system op).1.stream

/-- Requests are below 2^62, a buffer to read into is one the library can have built and
has not given its storage back, and the allocator has refused nothing so far. -/
def Granted (system : System State) (op : Op) : Prop :=
  op.size < addressSpace ∧ (step source system op).1.heap.Unrefused ∧
    match op with
    | .readBuffer result _ => result.Valid ∧ result.Anchored
    | .readChars _ => True

structure Holds (filter : Filter) (input output : List UInt8) (stream : FilterStream State) :
    Prop where
  input_valid : stream.inputBuffer.Valid
  input_eq : stream.inputBuffer.content = input
  input_pos : stream.inputPos = 0
  output_valid : stream.outputBuffer.Valid
  output_eq : stream.outputBuffer.content = output
  output_pos : stream.outputPos = 0
  filters_eq : stream.filters = [filter]

theorem create_holds (parent : State) (filter : Filter) :
    Holds filter [] [] (FilterStream.create parent filter) :=
  ⟨Buffer.empty_valid, rfl, rfl, Buffer.empty_valid, rfl, rfl, rfl⟩

/-- What a pull returns: every byte it got counts twice. -/
structure Pulls (filter : Filter) (bytes : List UInt8) (size : Nat) (after : Pull State) :
    Prop where
  holds : Holds filter bytes [] after.stream
  limit : bytes.length ≤ size
  doubled : after.result = 2 * bytes.length ∨ after.result = -1 ∧ bytes = []

theorem input_empty (filter : Filter) (stream : FilterStream State) (output : List UInt8)
    (fresh : Holds filter [] output stream) : stream.inputBuffer.size = 0 := by
  rw [← length_content, fresh.input_eq]
  rfl

theorem dry_iff_handed (filter : Filter) (system : System State) (op : Op)
    (fresh : Holds filter [] [] system.stream) (anchored : system.stream.inputBuffer.Anchored)
    (small : op.size < addressSpace) :
    Dry source system op ↔ handed source system op.size = [] ∧
      (system.stream.pull source op.size system.heap).stream.inputBuffer.Anchored := by
  have nothing := input_empty filter system.stream [] fresh
  have grown := Buffer.reserve_more system.stream.inputBuffer op.size system.heap fresh.input_valid
    (Buffer.requestable_of_inMemory _ op.size fresh.input_valid small)
  have kept := grown.kept.size_eq
  by_cases served : op.size ≤ sub system.stream.inputBuffer.size system.stream.inputPos
  · have idle : (system.stream.pull source op.size system.heap).stream.inputBuffer =
        system.stream.inputBuffer := by
      simp only [pull, if_pos served]
    rw [nothing, fresh.input_pos, sub_self] at served
    rw [handed, idle, fresh.input_eq, List.drop_nil]
    exact iff_of_true (Or.inl (Nat.le_zero.mp served)) ⟨rfl, anchored⟩
  · have asked : op.size ≠ 0 := fun zero => served (by rw [zero]; exact Nat.zero_le _)
    simp only [Dry, handed, pull, if_neg served, asked, false_or]
    rw [List.drop_eq_nil_iff, length_content, kept, nothing, Nat.le_zero]

theorem doubled_result (rv : Int) (bytes : List UInt8) (reports : Reports rv bytes)
    (inMemory : bytes.length < addressSpace) :
    (if rv ≠ -1 then signed (add bytes.length (unsigned rv)) else -1) = 2 * bytes.length ∨
      (if rv ≠ -1 then signed (add bytes.length (unsigned rv)) else -1) = -1 ∧ bytes = [] := by
  simp only [addressSpace] at inMemory
  rcases reports with counted | ⟨failed, nothing⟩
  · refine Or.inl ?_
    rw [counted, if_pos (by omega), unsigned_exact (by omega), add_exact (by omega),
      signed_exact (by omega)]
    omega
  · exact Or.inr ⟨by simp [failed], nothing⟩

theorem pull_pulls (filter : Filter) (system : System State) (size : Nat)
    (fresh : Holds filter [] [] system.stream) (small : size < addressSpace)
    (unrefused : (system.stream.pull source size system.heap).heap.Unrefused) :
    Pulls filter (handed source system size) size (system.stream.pull source size system.heap) := by
  have nothing := input_empty filter system.stream [] fresh
  have position := fresh.input_pos
  simp only [handed, nothing, List.drop_zero]
  by_cases served : size ≤ sub system.stream.inputBuffer.size system.stream.inputPos
  · simp only [pull, if_pos served, fresh.input_eq]
    rw [nothing, position, sub_self] at served
    have zero : size = 0 := Nat.le_zero.mp served
    exact ⟨fresh, Nat.zero_le _, Or.inl (by simp [zero, signed])⟩
  · have grown := Buffer.reserve_more system.stream.inputBuffer size system.heap fresh.input_valid
      (Buffer.requestable_of_inMemory _ size fresh.input_valid small)
    simp only [pull, if_neg served] at unrefused ⊢
    have valid := source.valid system.stream.parent _ size
      (system.stream.inputBuffer.reserve (add system.stream.inputBuffer.size size) system.heap).heap
      grown.valid
    obtain ⟨_, bytes, limit, reports, content⟩ :=
      source.appends system.stream.parent _ size _ grown.valid unrefused
    rw [Buffer.content_of_kept grown.kept, fresh.input_eq, List.nil_append] at content
    have counted := congrArg List.length content
    rw [length_content] at counted
    rw [content, counted, position, sub_exact (Nat.zero_le _), Nat.sub_zero]
    exact ⟨⟨valid, content, rfl, fresh.output_valid, fresh.output_eq, fresh.output_pos,
      fresh.filters_eq⟩, limit, doubled_result _ bytes reports (Nat.lt_of_le_of_lt limit small)⟩

theorem pull_frame (stream : FilterStream State) (size : Nat) (heap : Heap) :
    (stream.pull source size heap).stream.filters = stream.filters ∧
      (stream.pull source size heap).stream.outputBuffer = stream.outputBuffer := by
  simp only [pull]
  split
  · exact ⟨rfl, rfl⟩
  · exact ⟨rfl, rfl⟩

theorem refill_holds (filter : Filter) (system : System State) (size : Nat)
    (fresh : Holds filter [] [] system.stream) (small : size < addressSpace)
    (unrefused : (system.stream.refill source size system.heap).heap.Unrefused) :
    Pulls filter (handed source system size) size (system.stream.pull source size system.heap) ∧
      Holds filter (handed source system size) (filter.transform (handed source system size))
        (system.stream.refill source size system.heap).stream := by
  obtain ⟨filters, output⟩ := pull_frame source system.stream size system.heap
  have single : ∀ input after heap,
      process (system.stream.pull source size system.heap).stream.filters
      input after heap = filter.process input after heap := by
    intro input after heap
    rw [filters, fresh.filters_eq]
    rfl
  have valid : (system.stream.pull source size system.heap).stream.outputBuffer.Valid := by
    rw [output]
    exact fresh.output_valid
  simp only [refill, single] at unrefused ⊢
  obtain ⟨granted, appended⟩ := filter.appends _ _ _ valid unrefused
  have pulls := pull_pulls source filter system size fresh small granted
  have held := pulls.holds
  rw [held.output_eq, List.nil_append, held.input_pos, MutableBuffer.ref_content, held.input_eq]
    at appended
  refine ⟨pulls, held.input_valid, held.input_eq, held.input_pos, filter.valid _ _ _ valid, ?_,
    held.output_pos, held.filters_eq⟩
  rw [held.input_pos]
  exact appended

theorem step_input (system : System State) (op : Op) :
    (step source system op).1.stream.inputBuffer =
      (system.stream.pull source op.size system.heap).stream.inputBuffer := by
  cases op with
  | readBuffer result size => rfl
  | readChars size => rfl

theorem step_output_anchored (filter : Filter) (system : System State) (op : Op)
    (keeps : ∀ input output heap, output.Valid → output.Anchored →
      (filter.process input output heap).output.Anchored)
    (fresh : Holds filter [] [] system.stream) (anchored : system.stream.outputBuffer.Anchored) :
    (step source system op).1.stream.outputBuffer.Anchored := by
  obtain ⟨filters, output⟩ := pull_frame source system.stream op.size system.heap
  have refilled :
      (system.stream.refill source op.size system.heap).stream.outputBuffer.Anchored := by
    simp only [refill]
    rw [filters, fresh.filters_eq, output]
    exact keeps _ _ _ fresh.output_valid anchored
  cases op with
  | readBuffer result size => exact refilled
  | readChars size => exact refilled

/-! One call on a stream that has pulled nothing yet. -/

theorem observe_event (filter : Filter) (before : FilterStream State) (after : Pull State)
    (input output delivered : List UInt8) (fresh : Holds filter [] [] before)
    (held : Holds filter input output after.stream) :
    (observe before after delivered).2 = ⟨after.result, input, input, delivered⟩ := by
  have nothing := input_empty filter before [] fresh
  simp only [observe, nothing, List.drop_zero, held.input_pos, MutableBuffer.ref_content,
    held.input_eq]

section Calls
variable (filter : Filter) (f : UInt8 → UInt8)
variable (bytewise : ∀ input, filter.transform input = input.map f)
include bytewise

theorem readChars_event (system : System State) (size : Nat)
    (fresh : Holds filter [] [] system.stream) (granted : Granted source system (.readChars size)) :
    Holds filter (handed source system size) ((handed source system size).map f)
        (step source system (.readChars size)).1.stream ∧
      ∃ result : Int, (result = 2 * (handed source system size).length ∨
          result = -1 ∧ handed source system size = []) ∧
        (step source system (.readChars size)).2 =
          ⟨result, handed source system size, handed source system size, []⟩ := by
  obtain ⟨small, unrefused, _⟩ := granted
  obtain ⟨pulls, held⟩ := refill_holds source filter system size fresh small unrefused
  rw [bytewise] at held
  exact ⟨held, _, pulls.doubled, observe_event filter _ _ _ _ _ fresh held⟩

omit bytewise in
theorem handOver_appends (filled : Pull State) (result : Buffer) (size : Nat) (valid : result.Valid)
    (small : size < addressSpace)
    (unrefused : (handOver filled result size).1.heap.Unrefused) :
    filled.heap.Unrefused ∧ ∀ input, Holds filter input (input.map f) filled.stream →
      input.length ≤ size →
      (handOver filled result size).1.result = -(input.length : Int) ∧
        (handOver filled result size).2.content.drop result.size = input.map f := by
  have appends := Buffer.pushBack_appends result (load filled.stream.outputBuffer.bytes
    filled.stream.outputPos
    (min size (sub filled.stream.outputBuffer.size filled.stream.outputPos)))
    filled.heap valid (by rw [load_length]; omega)
  obtain ⟨before, whole⟩ := appends.unrefused unrefused
  refine ⟨before, ?_⟩
  intro input held limit
  have sized := congrArg List.length held.output_eq
  rw [length_content, List.length_map] at sized
  have sent : load filled.stream.outputBuffer.bytes filled.stream.outputPos
      (min size (sub filled.stream.outputBuffer.size filled.stream.outputPos)) = input.map f := by
    rw [held.output_pos, sized, sub_exact (Nat.zero_le _), Nat.sub_zero, Nat.min_eq_right limit,
      ← held.output_eq, ← sized]
    rfl
  have content := Buffer.content_of_appends appends whole
  rw [sent] at content whole
  rw [List.length_map] at whole
  constructor
  · simp only [handOver, sent]
    rw [whole]
    by_cases nothing : input.length = 0
    · simp [nothing, signed]
    · exact signed_sub_add _ _ (Nat.pos_of_ne_zero nothing)
        (by simp only [addressSpace] at small; omega)
  · simp only [handOver, sent]
    rw [content, ← length_content result, List.drop_left]

theorem readBuffer_event (system : System State) (result : Buffer) (size : Nat)
    (fresh : Holds filter [] [] system.stream)
    (granted : Granted source system (.readBuffer result size)) :
    Holds filter (handed source system size) ((handed source system size).map f)
        (step source system (.readBuffer result size)).1.stream ∧
      (step source system (.readBuffer result size)).2 =
        ⟨-((handed source system size).length : Int), handed source system size,
          handed source system size, (handed source system size).map f⟩ := by
  obtain ⟨small, unrefused, valid, _⟩ := granted
  obtain ⟨before, handsOver⟩ := handOver_appends filter f _ result size valid small unrefused
  obtain ⟨pulls, held⟩ := refill_holds source filter system size fresh small before
  rw [bytewise] at held
  obtain ⟨negated, delivered⟩ := handsOver _ held pulls.limit
  refine ⟨held, ?_⟩
  have event := observe_event filter system.stream
    (handOver (system.stream.refill source size system.heap) result size).1 _ _
    ((handOver (system.stream.refill source size system.heap) result size).2.content.drop
      result.size) fresh held
  rw [negated, delivered] at event
  simp only [step, readBuffer, delivered]
  exact event

theorem step_silent (system : System State) (op : Op) (fresh : Holds filter [] [] system.stream)
    (granted : Granted source system op) (silent : handed source system op.size = []) :
    Holds filter [] [] (step source system op).1.stream ∧
      ∃ result : Int, (result = 0 ∨ result = -1) ∧
        (step source system op).2 = ⟨result, [], [], []⟩ := by
  cases op with
  | readBuffer buffer size =>
      have silent : handed source system size = [] := silent
      obtain ⟨held, event⟩ :=
        readBuffer_event source filter f bytewise system buffer size fresh granted
      rw [silent] at held event
      exact ⟨held, 0, Or.inl rfl, event⟩
  | readChars size =>
      have silent : handed source system size = [] := silent
      obtain ⟨held, result, doubled, event⟩ :=
        readChars_event source filter f bytewise system size fresh granted
      rw [silent] at held doubled event
      exact ⟨held, result, doubled.imp id And.left, event⟩

-- A byte from the parent is counted twice or with the wrong sign.
theorem silent_of_reports (system : System State) (op : Op)
    (fresh : Holds filter [] [] system.stream) (granted : Granted source system op)
    (reports : Reports (step source system op).2.result (step source system op).2.delivered) :
    handed source system op.size = [] := by
  by_contra wet
  have some_bytes : (handed source system op.size).length ≠ 0 := fun zero =>
    wet (List.length_eq_zero_iff.mp zero)
  cases op with
  | readBuffer buffer size =>
      obtain ⟨_, event⟩ :=
        readBuffer_event source filter f bytewise system buffer size fresh granted
      rw [event] at reports
      simp only [Op.size] at some_bytes
      rcases reports with counted | ⟨_, nothing⟩
      · simp only [List.length_map] at counted
        omega
      · exact wet (List.map_eq_nil_iff.mp nothing)
  | readChars size =>
      obtain ⟨_, result, doubled, event⟩ :=
        readChars_event source filter f bytewise system size fresh granted
      rw [event] at reports
      simp only [Op.size] at some_bytes
      rcases doubled with twice | ⟨_, nothing⟩
      · rcases reports with counted | ⟨failed, _⟩
        · simp only [List.length_nil] at counted
          omega
        · simp only at failed
          omega
      · exact wet nothing

section Delivery
variable (keeps : ∀ input output heap, output.Valid → output.Anchored →
  (filter.process input output heap).output.Anchored)
include keeps

structure Idle (filter : Filter) (stream : FilterStream State) : Prop where
  fresh : Holds filter [] [] stream
  rooted : Rooted stream

omit bytewise keeps in
theorem create_idle (parent : State) : Idle filter (FilterStream.create parent filter) :=
  ⟨create_holds parent filter, Buffer.empty_anchored, Buffer.empty_anchored⟩

theorem step_dry (system : System State) (op : Op) (idle : Idle filter system.stream)
    (granted : Granted source system op) (dry : Dry source system op) :
    Idle filter (step source system op).1.stream ∧
      ∃ result : Int, (result = 0 ∨ result = -1) ∧
        (step source system op).2 = ⟨result, [], [], []⟩ := by
  obtain ⟨silent, anchored⟩ :=
    (dry_iff_handed source filter system op idle.fresh idle.rooted.input granted.1).mp dry
  obtain ⟨held, event⟩ :=
    step_silent source filter f bytewise system op idle.fresh granted silent
  refine ⟨⟨held, ?_, ?_⟩, event⟩
  · rw [step_input]
    exact anchored
  · exact step_output_anchored source filter system op keeps idle.fresh idle.rooted.output

theorem honest_iff_dry (system : System State) (op : Op) (idle : Idle filter system.stream)
    (granted : Granted source system op) : Honest source system op ↔ Dry source system op := by
  constructor
  · intro honest
    rw [dry_iff_handed source filter system op idle.fresh idle.rooted.input granted.1, ← step_input]
    exact ⟨silent_of_reports source filter f bytewise system op idle.fresh granted honest.reports,
      honest.rooted.input⟩
  · intro dry
    obtain ⟨after, result, ended, event⟩ :=
      step_dry source filter f bytewise keeps system op idle granted dry
    refine ⟨?_, ?_, after.rooted⟩
    · rw [event]
      rcases ended with zero | failed
      · exact Or.inl zero
      · exact Or.inr ⟨failed, rfl⟩
    · rw [event]
      exact Nat.zero_le _

-- Over a dry run every tally of the events is empty.
theorem dry_totals (parent : State) (heap : Heap) (ops : List Op)
    (granted : Along (step source) (Granted source) (start parent filter heap) ops)
    (dry : Along (step source) (Dry source) (start parent filter heap) ops)
    (tally : Event → List UInt8) (silent : ∀ result, tally ⟨result, [], [], []⟩ = []) :
    total (· ++ ·) [] tally (outputs (step source) (start parent filter heap) ops) = [] := by
  apply total_unit
  apply along_of_along (step source)
    (fun system op => Granted source system op ∧ Dry source system op)
    (fun system => Idle filter system.stream) _ _ _ _ ops (create_idle filter parent)
    (along_and (step source) (Granted source) (Dry source) _ ops granted dry)
  · intro system op idle quiet
    exact (step_dry source filter f bytewise keeps system op idle quiet.1 quiet.2).1
  · intro system op idle quiet
    obtain ⟨_, result, _, event⟩ :=
      step_dry source filter f bytewise keeps system op idle quiet.1 quiet.2
    rw [event]
    exact silent result

/-- Delivery through a byte-wise filter is right exactly on the runs in which the parent
never hands over a byte and never frees the storage it is given. -/
theorem delivers_iff_dry (parent : State) (heap : Heap) (ops : List Op)
    (granted : Along (step source) (Granted source) (start parent filter heap) ops) :
    (Along (step source) (Honest source) (start parent filter heap) ops ∧
      total (· ++ ·) [] Event.delivered (outputs (step source) (start parent filter heap) ops) <+:
        total (· ++ ·) [] (fun event => event.pulled.map f)
          (outputs (step source) (start parent filter heap) ops) ∧
      total (· ++ ·) [] Event.processed (outputs (step source) (start parent filter heap) ops) <+:
        total (· ++ ·) [] Event.pulled
          (outputs (step source) (start parent filter heap) ops)) ↔
      Along (step source) (Dry source) (start parent filter heap) ops := by
  have exact_run := along_iff_along (step source) (Dry source)
    (fun system => Idle filter system.stream) (Granted source) (Honest source)
    (fun system op idle inside dry =>
      (step_dry source filter f bytewise keeps system op idle inside dry).1)
    (fun system op idle inside =>
      honest_iff_dry source filter f bytewise keeps system op idle inside)
    (start parent filter heap) ops (create_idle filter parent) granted
  constructor
  · intro delivers
    exact exact_run.mp delivers.1
  · intro dry
    have silent := dry_totals source filter f bytewise keeps parent heap ops granted dry
    refine ⟨exact_run.mpr dry, ?_, ?_⟩
    · rw [silent Event.delivered fun _ => rfl]
      exact List.nil_prefix
    · rw [silent Event.processed fun _ => rfl]
      exact List.nil_prefix

end Delivery

end Calls

end Runs

-- A parent with nothing left is read honestly; one with two bytes is not.
theorem delivers_iff_dry_exhausted :
    let upper : Filter := .ofTransform fun bytes => bytes.map (· - 32)
    Along (step .text) (Honest .text) (start [] upper .generous)
        [.readBuffer .empty 5, .readChars 3] ∧
      ¬ (Along (step .text) (Honest .text) (start [97, 98] upper .generous) [.readChars 2] ∧
        total (· ++ ·) [] Event.delivered
            (outputs (step .text) (start [97, 98] upper .generous) [.readChars 2]) <+:
          total (· ++ ·) [] (fun event => event.pulled.map (· - 32))
            (outputs (step .text) (start [97, 98] upper .generous) [.readChars 2]) ∧
        total (· ++ ·) [] Event.processed
            (outputs (step .text) (start [97, 98] upper .generous) [.readChars 2]) <+:
          total (· ++ ·) [] Event.pulled
            (outputs (step .text) (start [97, 98] upper .generous) [.readChars 2])) := by
  intro upper
  have keeps : ∀ input output heap, output.Valid → output.Anchored →
      (upper.process input output heap).output.Anchored :=
    fun _ output heap valid anchored => Filter.pushAll_anchored _ output heap valid anchored
  have exhausted : Along (step .text) (Granted .text) (start [] upper .generous)
      [.readBuffer .empty 5, .readChars 3] :=
    ⟨⟨by decide, by decide, Buffer.empty_valid, Buffer.empty_anchored⟩,
      ⟨by decide, by decide, trivial⟩, trivial⟩
  have dry : Along (step .text) (Dry .text) (start [] upper .generous)
      [.readBuffer .empty 5, .readChars 3] :=
    ⟨Or.inr ⟨by decide, by decide⟩, Or.inr ⟨by decide, by decide⟩, trivial⟩
  have waiting : Along (step .text) (Granted .text) (start [97, 98] upper .generous)
      [.readChars 2] :=
    ⟨⟨by decide, by decide, trivial⟩, trivial⟩
  refine ⟨((delivers_iff_dry .text upper (· - 32) (fun _ => rfl) keeps [] .generous _
    exhausted).mpr dry).1, ?_⟩
  intro delivers
  have silent := (delivers_iff_dry .text upper (· - 32) (fun _ => rfl) keeps [97, 98] .generous _
    waiting).mp delivers
  rcases silent.1 with idle | ⟨unchanged, _⟩
  · exact absurd idle (by decide)
  · exact absurd unchanged (by decide)

/-- Three bytes read twice: each call returns -3, the second processes and delivers the
same bytes again, and a read into memory reports what it never copied. -/
theorem read_again_redelivers :
    let upper : Filter := .ofTransform fun bytes => bytes.map (· - 32)
    let observed := outputs (step .text) (start [97, 98, 99] upper .generous)
      [.readBuffer .empty 3, .readBuffer .empty 3, .readChars 3]
    observed = [⟨-3, [97, 98, 99], [97, 98, 99], [65, 66, 67]⟩,
        ⟨-3, [], [97, 98, 99], [65, 66, 67]⟩, ⟨3, [], [97, 98, 99], []⟩] ∧
      ¬ total (· ++ ·) [] Event.delivered observed <+:
        total (· ++ ·) [] (fun event => event.pulled.map (· - 32)) observed := by
  decide

end Xio.FilterDelivery
