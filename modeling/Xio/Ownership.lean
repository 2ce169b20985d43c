import Mathlib.Logic.Equiv.Basic
import Xio.BufferAppend
import Xio.BufferStream

/-!
Who owns which block. The allocator's log says which blocks are live: `free` retires
its argument, a granted `realloc` retires its argument and yields a block named after
the call, a refused one changes nothing. A `realloc` for no bytes that answers NULL has
freed its argument, as the source says itself. A log is proper if each call was made with
a null pointer or a live block.
-/

namespace Xio.Ownership

open Storage MachineWord Environment Runs MutableBuffer

/-! The ledger. -/

def argument : Call → Option Block
  | .free block => block
  | .realloc block _ _ => block

def live : List Call → List Block
  | [] => []
  | .free block :: earlier => (live earlier).filter fun other => block ≠ some other
  | .realloc block size granted :: earlier =>
      if granted then earlier.length :: (live earlier).filter fun other => block ≠ some other
      else if size = 0 then (live earlier).filter fun other => block ≠ some other
      else live earlier

/-- The blocks that an allocator has handed out for requests of no bytes. -/
def hollow : List Call → List Block
  | [] => []
  | .free _ :: earlier => hollow earlier
  | .realloc _ size granted :: earlier =>
      if granted ∧ size = 0 then earlier.length :: hollow earlier else hollow earlier

def NullOrLive (calls : List Call) (held : Option Block) : Prop :=
  ∀ block ∈ held, block ∈ live calls

def Proper : List Call → Prop
  | [] => True
  | call :: earlier => NullOrLive earlier (argument call) ∧ Proper earlier

instance (calls : List Call) (held : Option Block) : Decidable (NullOrLive calls held) :=
  inferInstanceAs (Decidable (∀ block ∈ held, block ∈ live calls))

instance instDecidableProper : (calls : List Call) → Decidable (Proper calls)
  | [] => inferInstanceAs (Decidable True)
  | call :: earlier =>
      have := instDecidableProper earlier
      inferInstanceAs (Decidable (NullOrLive earlier (argument call) ∧ Proper earlier))

theorem mem_live_free (held : Option Block) (earlier : List Call) (block : Block) :
    block ∈ live (.free held :: earlier) ↔ block ∈ live earlier ∧ held ≠ some block := by
  simp [live]

theorem mem_live_granted (held : Option Block) (size : Nat) (earlier : List Call) (block : Block) :
    block ∈ live (.realloc held size true :: earlier) ↔
      block = earlier.length ∨ block ∈ live earlier ∧ held ≠ some block := by
  simp [live]

theorem mem_live_refused (held : Option Block) (size : Nat) (earlier : List Call) (block : Block)
    (nonzero : size ≠ 0) :
    block ∈ live (.realloc held size false :: earlier) ↔ block ∈ live earlier := by
  simp [live, nonzero]

theorem mem_live_emptied (held : Option Block) (earlier : List Call) (block : Block) :
    block ∈ live (.realloc held 0 false :: earlier) ↔ block ∈ live earlier ∧ held ≠ some block := by
  simp [live]

theorem mem_hollow_realloc (held : Option Block) (size : Nat) (granted : Bool)
    (earlier : List Call) (block : Block) :
    block ∈ hollow (.realloc held size granted :: earlier) ↔
      (block = earlier.length ∧ granted = true ∧ size = 0) ∨ block ∈ hollow earlier := by
  simp only [hollow]
  split <;> simp_all

theorem hollow_lt (calls : List Call) (block : Block) (emptied : block ∈ hollow calls) :
    block < calls.length := by
  induction calls with
  | nil => cases emptied
  | cons call earlier ih =>
      rw [List.length_cons]
      cases call with
      | free held => exact Nat.lt_succ_of_lt (ih emptied)
      | realloc held size granted =>
          rcases (mem_hollow_realloc held size granted earlier block).mp emptied with
            ⟨rfl, _⟩ | before
          · exact Nat.lt_succ_self _
          · exact Nat.lt_succ_of_lt (ih before)

-- A new call settles nothing about the blocks named before it.
theorem hollow_realloc_iff (held : Option Block) (size : Nat) (granted : Bool)
    (earlier : List Call) (block : Block) (named : block < earlier.length) :
    block ∈ hollow (.realloc held size granted :: earlier) ↔ block ∈ hollow earlier := by
  rw [mem_hollow_realloc]
  constructor
  · rintro (⟨rfl, _⟩ | before)
    · exact absurd named (Nat.lt_irrefl _)
    · exact before
  · exact Or.inr

/-! One buffer. -/

/-- A buffer with storage points to a block that was handed out for some bytes. The block
that any buffer points to is live exactly if there is storage behind it or there never
was any. -/
structure Backed (calls : List Call) (buffer : Buffer) : Prop where
  stored : buffer.capacity ≠ 0 → ∃ block, buffer.data = some block ∧ block ∉ hollow calls
  live_iff : ∀ block, buffer.data = some block →
    (block ∈ live calls ↔ buffer.capacity ≠ 0 ∨ block ∈ hollow calls)

/-- What an operation may do to the blocks: its calls are proper if the earlier ones were,
the block of the buffer is the one it held, none or a new one, and no block is retired but
the one it held. -/
structure Exchange (held : Option Block) (after : Buffer) (old new : List Call) : Prop where
  longer : old.length ≤ new.length
  proper : Proper old → Proper new
  backed : Backed new after
  data : after.data = held ∨ after.data = none ∨
    ∃ block, after.data = some block ∧ old.length ≤ block ∧ block < new.length
  others : ∀ block < old.length, held ≠ some block → (block ∈ live new ↔ block ∈ live old)
  hollow_iff : ∀ block < old.length, (block ∈ hollow new ↔ block ∈ hollow old)

theorem Backed.held {calls : List Call} {buffer : Buffer} (backed : Backed calls buffer)
    (stored : buffer.capacity ≠ 0) : NullOrLive calls buffer.data :=
  fun block found => (backed.live_iff block found).mpr (Or.inl stored)

/-- A request for no room, of a buffer whose `data_` is null or has storage behind it, or of
one that points to what an allocator has answered to a request of no bytes. -/
def Clean (calls : List Call) (buffer : Buffer) (value : Nat) : Prop :=
  value = 0 ∨ buffer.Anchored ∨ ∃ block ∈ hollow calls, buffer.data = some block

theorem Backed.clean_iff {calls : List Call} {buffer : Buffer} (backed : Backed calls buffer)
    (value : Nat) : Clean calls buffer value ↔ value = 0 ∨ NullOrLive calls buffer.data := by
  apply or_congr_right
  constructor
  · rintro ((null | stored) | ⟨_, emptied, held⟩) block found
    · rw [null] at found
      cases found
    · exact backed.held stored block found
    · cases held.symm.trans found
      exact (backed.live_iff _ held).mpr (Or.inr emptied)
  · intro alive
    cases found : buffer.data with
    | none => exact Or.inl (Or.inl found)
    | some block =>
        rcases (backed.live_iff block found).mp (alive block found) with stored | emptied
        · exact Or.inl (Or.inr stored)
        · exact Or.inr ⟨block, emptied, rfl⟩

theorem Backed.carried {old new : List Call} {buffer : Buffer} (backed : Backed old buffer)
    (live_same : ∀ block, buffer.data = some block → (block ∈ live new ↔ block ∈ live old))
    (hollow_same : ∀ block, buffer.data = some block → (block ∈ hollow new ↔ block ∈ hollow old)) :
    Backed new buffer := by
  constructor
  · intro stored
    obtain ⟨block, found, filled⟩ := backed.stored stored
    exact ⟨block, found, fun emptied => filled ((hollow_same block found).mp emptied)⟩
  · intro block found
    rw [live_same block found, hollow_same block found]
    exact backed.live_iff block found

-- The block is gone and `data_` still points to it: it was not handed out for nothing.
theorem Backed.emptied {old new : List Call} {buffer : Buffer} (backed : Backed old buffer)
    (stored : buffer.capacity ≠ 0) (retired : ∀ block, buffer.data = some block → block ∉ live new)
    (hollow_same : ∀ block, block ∈ hollow new ↔ block ∈ hollow old) :
    Backed new { buffer with capacity := 0 } := by
  refine ⟨fun nonzero => absurd rfl nonzero, ?_⟩
  intro block found
  obtain ⟨filled, held, full⟩ := backed.stored stored
  cases held.symm.trans found
  constructor
  · exact fun alive => absurd alive (retired block found)
  · rintro (nonzero | emptied)
    · exact absurd rfl nonzero
    · exact absurd ((hollow_same block).mp emptied) full

-- Bytes and size play no part.
theorem Backed.of_storage {calls : List Call} {buffer later : Buffer} (backed : Backed calls buffer)
    (data : later.data = buffer.data) (capacity : later.capacity = buffer.capacity) :
    Backed calls later := by
  constructor
  · rw [data, capacity]
    exact backed.stored
  · rw [data, capacity]
    exact backed.live_iff

theorem Exchange.origin {held : Option Block} {after : Buffer} {old new : List Call}
    (exchange : Exchange held after old new) (block : Block) (found : after.data = some block) :
    held = some block ∨ (old.length ≤ block ∧ block < new.length) := by
  rcases exchange.data with same | nothing | ⟨fresh, found', above, below⟩
  · exact Or.inl (same ▸ found)
  · rw [nothing] at found
    cases found
  · cases found'.symm.trans found
    exact Or.inr ⟨above, below⟩

theorem exchange_idle (buffer : Buffer) (calls : List Call) (backed : Backed calls buffer) :
    Exchange buffer.data buffer calls calls :=
  ⟨Nat.le_refl _, id, backed, Or.inl rfl, fun _ _ _ => Iff.rfl, fun _ _ => Iff.rfl⟩

theorem exchange_of_storage {held : Option Block} {after later : Buffer} {old new : List Call}
    (exchange : Exchange held after old new) (data : later.data = after.data)
    (capacity : later.capacity = after.capacity) : Exchange held later old new :=
  ⟨exchange.longer, exchange.proper, exchange.backed.of_storage data capacity,
    data ▸ exchange.data, exchange.others, exchange.hollow_iff⟩

-- A new buffer starts from a null pointer, which every request may pass on.
theorem empty_clean (calls : List Call) (value : Nat) : Clean calls (empty : Buffer) value :=
  Or.inr (Or.inl Buffer.empty_anchored)

theorem empty_backed (calls : List Call) : Backed calls (empty : Buffer) := by
  refine ⟨fun nonzero => absurd rfl nonzero, ?_⟩
  intro block found
  cases found

-- The object that held the block may be gone by the time the new one exists, or the new one too.
theorem exchange_new {after : Buffer} {old new : List Call} (held : Option Block)
    (exchange : Exchange none after old new) : Exchange held after old new := by
  refine ⟨exchange.longer, exchange.proper, exchange.backed, ?_, ?_, exchange.hollow_iff⟩
  · rcases exchange.data with nothing | nothing | fresh
    · exact Or.inr (Or.inl nothing)
    · exact Or.inr (Or.inl nothing)
    · exact Or.inr (Or.inr fresh)
  · intro block named _
    exact exchange.others block named (by simp)

theorem exchange_dropped {held : Option Block} {after : Buffer} {old new : List Call}
    (exchange : Exchange held after old new) : Exchange held empty old new :=
  ⟨exchange.longer, exchange.proper, empty_backed new, Or.inr (Or.inl rfl), exchange.others,
    exchange.hollow_iff⟩

theorem exchange_trans {held : Option Block} {mid after : Buffer} {old between new : List Call}
    (first : Exchange held mid old between) (second : Exchange mid.data after between new) :
    Exchange held after old new := by
  refine ⟨Nat.le_trans first.longer second.longer, second.proper ∘ first.proper, second.backed,
    ?_, ?_, ?_⟩
  · rcases second.data with same | nothing | ⟨block, found, fresh, named⟩
    · rw [same]
      rcases first.data with kept | nothing | ⟨block, found, fresh, named⟩
      · exact Or.inl kept
      · exact Or.inr (Or.inl nothing)
      · exact Or.inr (Or.inr ⟨block, found, fresh, Nat.lt_of_lt_of_le named second.longer⟩)
    · exact Or.inr (Or.inl nothing)
    · exact Or.inr (Or.inr ⟨block, found, Nat.le_trans first.longer fresh, named⟩)
  · intro block named other
    have apart : mid.data ≠ some block := by
      intro held_now
      rcases first.origin block held_now with before | ⟨fresh, _⟩
      · exact other before
      · exact absurd named (Nat.not_lt.mpr fresh)
    rw [second.others block (Nat.lt_of_lt_of_le named first.longer) apart]
    exact first.others block named other
  · intro block named
    rw [second.hollow_iff block (Nat.lt_of_lt_of_le named first.longer)]
    exact first.hollow_iff block named

theorem granted_exchange (buffer after : Buffer) (value : Nat) (calls : List Call)
    (held : NullOrLive calls buffer.data) (data : after.data = some calls.length)
    (capacity : after.capacity = value) :
    Exchange buffer.data after calls (.realloc buffer.data value true :: calls) := by
  refine ⟨Nat.le_succ _, fun proper => ⟨held, proper⟩, ⟨?_, ?_⟩,
    Or.inr (Or.inr ⟨_, data, Nat.le_refl _, Nat.lt_succ_self _⟩), ?_,
    fun block named => hollow_realloc_iff _ _ _ _ block named⟩
  · intro nonzero
    refine ⟨_, data, ?_⟩
    rw [mem_hollow_realloc]
    rintro (⟨_, _, zero⟩ | before)
    · exact nonzero (capacity.trans zero)
    · exact absurd (hollow_lt _ _ before) (Nat.lt_irrefl _)
  · intro block found
    obtain rfl := Option.some.inj (data.symm.trans found)
    rw [mem_live_granted, mem_hollow_realloc, capacity]
    by_cases zero : value = 0
    · exact iff_of_true (Or.inl rfl) (Or.inr (Or.inl ⟨rfl, rfl, zero⟩))
    · exact iff_of_true (Or.inl rfl) (Or.inl zero)
  · intro block named other
    rw [mem_live_granted]
    constructor
    · rintro (fresh | alive)
      · exact absurd named (Nat.not_lt.mpr (Nat.le_of_eq fresh.symm))
      · exact alive.1
    · exact fun alive => Or.inr ⟨alive, other⟩

theorem mem_hollow_refused (held : Option Block) (value : Nat) (calls : List Call) (block : Block) :
    block ∈ hollow (.realloc held value false :: calls) ↔ block ∈ hollow calls := by
  rw [mem_hollow_realloc]
  simp

theorem emptied_exchange (buffer : Buffer) (calls : List Call) (backed : Backed calls buffer)
    (held : NullOrLive calls buffer.data) (stored : buffer.capacity ≠ 0) :
    Exchange buffer.data { buffer with capacity := 0 } calls
      (.realloc buffer.data 0 false :: calls) := by
  refine ⟨Nat.le_succ _, fun proper => ⟨held, proper⟩, ?_, Or.inl rfl, ?_,
    fun block _ => mem_hollow_refused _ _ _ block⟩
  · apply backed.emptied stored _ (mem_hollow_refused _ _ _)
    intro block found
    rw [mem_live_emptied]
    exact fun alive => alive.2 found
  · intro block _ other
    rw [mem_live_emptied]
    exact and_iff_left other

theorem refused_exchange (buffer : Buffer) (value : Nat) (calls : List Call)
    (backed : Backed calls buffer) (held : NullOrLive calls buffer.data) (nonzero : value ≠ 0) :
    Exchange buffer.data buffer calls (.realloc buffer.data value false :: calls) := by
  have live_same := fun block => mem_live_refused buffer.data value calls block nonzero
  have hollow_same := mem_hollow_refused buffer.data value calls
  exact ⟨Nat.le_succ _, fun proper => ⟨held, proper⟩,
    backed.carried (fun block _ => live_same block) (fun block _ => hollow_same block),
    Or.inl rfl, fun block _ _ => live_same block, fun block _ => hollow_same block⟩

/-- A buffer without storage never asks for a block of no bytes, so a refusal of nothing
means that its storage is gone. -/
theorem reallocate_exchange (buffer : Buffer) (value : Nat) (heap : Heap)
    (backed : Backed heap.calls buffer) (held : NullOrLive heap.calls buffer.data)
    (stored : value = 0 → buffer.capacity ≠ 0) :
    Exchange buffer.data (Buffer.reallocate buffer value heap).buffer heap.calls
      (Buffer.reallocate buffer value heap).heap.calls := by
  have logged : (heap.realloc buffer.data value).calls =
      .realloc buffer.data value (heap.answer value) :: heap.calls := rfl
  simp only [Buffer.reallocate]
  split
  · next granted =>
    rw [logged, granted]
    exact granted_exchange buffer _ value heap.calls held rfl rfl
  next denied =>
  split
  · next zero =>
    rw [logged, Bool.eq_false_iff.mpr denied]
    subst value
    exact emptied_exchange buffer heap.calls backed held (stored rfl)
  · next nonzero =>
    rw [logged, Bool.eq_false_iff.mpr denied]
    exact refused_exchange buffer value heap.calls backed held nonzero

theorem setCapacity_exchange (buffer : Buffer) (value : Nat) (heap : Heap)
    (backed : Backed heap.calls buffer) (clean : Clean heap.calls buffer value) :
    Exchange buffer.data (Buffer.setCapacity buffer value heap).buffer heap.calls
      (Buffer.setCapacity buffer value heap).heap.calls := by
  simp only [Buffer.setCapacity]
  split
  · rename_i released
    refine ⟨Nat.le_succ _, fun proper => ⟨backed.held released.2, proper⟩, ?_, Or.inl rfl, ?_,
      fun _ _ => Iff.rfl⟩
    · refine backed.emptied released.2 ?_ fun _ => Iff.rfl
      intro block found alive
      exact ((mem_live_free _ _ _).mp alive).2 found
    · intro block _ other
      rw [Heap.free, mem_live_free]
      exact and_iff_left other
  split
  · rename_i larger
    have held := ((backed.clean_iff value).mp clean).resolve_left (by omega)
    apply reallocate_exchange buffer _ heap backed held
    intro zero
    split at zero
    · omega
    · assumption
  split
  · rename_i smaller
    exact reallocate_exchange
      { buffer with size := if value < buffer.size then value else buffer.size } value heap
      (backed.of_storage rfl rfl) (backed.held (by omega)) fun _ => by
        show buffer.capacity ≠ 0
        omega
  · exact exchange_idle buffer heap.calls backed

theorem reserve_exchange (buffer : Buffer) (value : Nat) (heap : Heap)
    (backed : Backed heap.calls buffer) (clean : Clean heap.calls buffer value) :
    Exchange buffer.data (buffer.reserve value heap).buffer heap.calls
      (buffer.reserve value heap).heap.calls := by
  simp only [MutableBuffer.reserve]
  split
  · exact setCapacity_exchange buffer value heap backed clean
  · exact exchange_idle buffer heap.calls backed

theorem reallocate_calls (buffer : Buffer) (value : Nat) (heap : Heap) :
    (Buffer.reallocate buffer value heap).heap.calls =
      .realloc buffer.data value (heap.answer value) :: heap.calls := by
  simp only [Buffer.reallocate]
  split
  · rfl
  · split <;> rfl

/-- A buffer that has given its block back still points to it, and the next request for
room hands that pointer to `realloc`. -/
theorem setCapacity_needs (buffer : Buffer) (value : Nat) (heap : Heap)
    (backed : Backed heap.calls buffer)
    (proper : Proper (Buffer.setCapacity buffer value heap).heap.calls) :
    Clean heap.calls buffer value := by
  by_cases stored : buffer.capacity ≠ 0
  · exact Or.inr (Or.inl (Or.inr stored))
  by_cases zero : value = 0
  · exact Or.inl zero
  have larger : buffer.capacity < value := by omega
  rw [Buffer.setCapacity, if_neg (fun both => zero both.1), if_pos larger, reallocate_calls]
    at proper
  exact (backed.clean_iff value).mpr (Or.inr proper.1)

theorem reserve_needs (buffer : Buffer) (value : Nat) (heap : Heap)
    (backed : Backed heap.calls buffer)
    (proper : Proper (buffer.reserve value heap).heap.calls) : Clean heap.calls buffer value := by
  simp only [MutableBuffer.reserve] at proper
  split at proper
  · exact setCapacity_needs buffer value heap backed proper
  · exact Or.inr (Or.inl (Or.inr (by omega)))

theorem reserve_calls (buffer : Buffer) (value : Nat) (heap : Heap) :
    (buffer.reserve value heap).heap.calls = heap.calls ∨
      ∃ call, (buffer.reserve value heap).heap.calls = call :: heap.calls := by
  simp only [MutableBuffer.reserve, Buffer.setCapacity]
  split
  · split
    · exact Or.inr ⟨_, rfl⟩
    split
    · exact Or.inr ⟨_, reallocate_calls _ _ _⟩
    split
    · exact Or.inr ⟨_, reallocate_calls _ _ _⟩
    · exact Or.inl rfl
  · exact Or.inl rfl

theorem reserve_proper (buffer : Buffer) (value : Nat) (heap : Heap)
    (proper : Proper (buffer.reserve value heap).heap.calls) : Proper heap.calls := by
  rcases reserve_calls buffer value heap with same | ⟨call, more⟩
  · exact same ▸ proper
  · rw [more] at proper
    exact proper.2

@[simp] theorem append_heap (reserved : Reserved .mutableEnsure) (text : List UInt8) :
    (append reserved text).2 = reserved.heap := by
  simp only [append]
  split <;> rfl

theorem append_exchange {held : Option Block} {old : List Call} (reserved : Reserved .mutableEnsure)
    (text : List UInt8) (exchange : Exchange held reserved.buffer old reserved.heap.calls) :
    Exchange held (append reserved text).1 old (append reserved text).2.calls := by
  rw [append_heap]
  simp only [append]
  split
  · exact exchange_of_storage exchange rfl rfl
  · exact exchange

theorem pushBack_exchange (buffer : Buffer) (text : List UInt8) (heap : Heap)
    (backed : Backed heap.calls buffer)
    (clean : text.length ≠ 0 → Clean heap.calls buffer (add buffer.size text.length)) :
    Exchange buffer.data (buffer.pushBack text heap).1 heap.calls
      (buffer.pushBack text heap).2.calls := by
  simp only [pushBack]
  split
  · exact exchange_idle buffer heap.calls backed
  · rename_i nonempty
    exact append_exchange _ text (reserve_exchange buffer _ heap backed (clean nonempty))

theorem pushBackRange_exchange (buffer : Buffer) (value : BufferRef) (offset length : Nat)
    (heap : Heap) (written : Buffer × Heap) (backed : Backed heap.calls buffer)
    (clean : value.size ≤ add offset length ∧ length ≠ 0 →
      Clean heap.calls buffer (add buffer.size length))
    (passed : buffer.pushBackRange value offset length heap = some written) :
    Exchange buffer.data written.1 heap.calls written.2.calls := by
  simp only [pushBackRange] at passed
  split at passed
  · rename_i asserted
    cases passed
    split
    · exact exchange_idle buffer heap.calls backed
    · rename_i nonempty
      exact append_exchange _ _ (reserve_exchange buffer _ heap backed (clean ⟨asserted, nonempty⟩))
  · cases passed

theorem pushBack_needs (buffer : Buffer) (text : List UInt8) (heap : Heap)
    (backed : Backed heap.calls buffer) (nonempty : text.length ≠ 0)
    (proper : Proper (buffer.pushBack text heap).2.calls) :
    Clean heap.calls buffer (add buffer.size text.length) := by
  rw [pushBack, if_neg nonempty, append_heap] at proper
  exact reserve_needs buffer _ heap backed proper

theorem pushBack_proper (buffer : Buffer) (text : List UInt8) (heap : Heap)
    (proper : Proper (buffer.pushBack text heap).2.calls) : Proper heap.calls := by
  simp only [pushBack] at proper
  split at proper
  · exact proper
  · rw [append_heap] at proper
    exact reserve_proper buffer _ heap proper

theorem pushBack_empty_exchange (text : List UInt8) (heap : Heap) :
    Exchange none ((empty : Buffer).pushBack text heap).1 heap.calls
      ((empty : Buffer).pushBack text heap).2.calls :=
  pushBack_exchange empty text heap (empty_backed _) fun _ => empty_clean _ _

theorem construct_exchange (pool : BufferInvariant.Pool) (constructor : BufferInvariant.Constructor)
    (made : Buffer × Heap) (built : BufferInvariant.construct pool constructor = some made) :
    Exchange none made.1 pool.heap.calls made.2.calls := by
  cases constructor with
  | default =>
      cases built
      exact exchange_idle empty pool.heap.calls (empty_backed _)
  | capacity value =>
      cases built
      exact reserve_exchange empty value pool.heap (empty_backed _) (empty_clean _ _)
  | chars value =>
      cases built
      exact pushBack_empty_exchange value.1 pool.heap
  | string value =>
      cases built
      have copied := pushBack_empty_exchange (value.1 ++ [0]) pool.heap
      have cut := Buffer.resize_storage ((empty : Buffer).pushBack (value.1 ++ [0]) pool.heap).1
        value.1.length
      exact exchange_of_storage copied cut.1 cut.2
  | copy source =>
      cases built
      exact pushBack_empty_exchange _ pool.heap
  | range value offset count =>
      simp only [BufferInvariant.construct, Buffer.ofRange] at built
      split at built
      · cases built
        exact pushBack_empty_exchange _ pool.heap
      · cases built

/-! All buffers of a program. A slot is a `BufferStream` together with its read offset; a
plain `Buffer` has no use for the offset. -/

structure System where
  pool : BufferInvariant.Pool
  offsets : Nat → Nat
  kernel : Kernel

def System.buffers (system : System) : Nat → Buffer := system.pool.buffers

def System.stream (system : System) (i : Nat) : BufferStream :=
  ⟨system.buffers i, system.offsets i⟩

def System.calls (system : System) : List Call := system.pool.heap.calls

-- Formatted output makes requests of its own in a loop and is left out.
def unformatted : BufferInvariant.Op → Bool
  | .printf _ _ _ _ => false
  | _ => true

inductive Op where
  | buffer (op : BufferInvariant.Op) (plain : unformatted op = true)
  | destroy (i : Nat)
  | createStream (i capacity : Nat)
  | writeFd (i size : Nat)
  | writePipe (i : Nat) (source : Pipe) (size : Nat)
  | readBuffer (i target size : Nat)

def System.put (system : System) (i : Nat) (stream : BufferStream) (world : World) : System :=
  ⟨system.pool.put i (stream.data, world.heap),
    Function.update system.offsets i stream.readOffset, world.kernel⟩

def perform (system : System) : Op → System
  | .buffer op _ => { system with pool := BufferInvariant.perform system.pool op }
  | .destroy i =>
      -- `~Buffer` is `reserve(0)`; the slot is then free for another object
      let released := (system.buffers i).reserve 0 system.pool.heap
      { system with pool := system.pool.put i (empty, released.heap) }
  | .createStream i capacity =>
      let made := BufferStream.create capacity system.pool.heap
      system.put i made.1 ⟨made.2, system.kernel⟩
  | .writeFd i size =>
      let written := (system.stream i).writeFd size ⟨system.pool.heap, system.kernel⟩
      system.put i written.stream written.world
  | .writePipe i source size =>
      let written := ((system.stream i).writePipe source size ⟨system.pool.heap, system.kernel⟩).1
      system.put i written.stream written.world
  | .readBuffer i target size =>
      let read := (system.stream i).readBuffer (system.buffers target) size system.pool.heap
      let shifted := system.put i read.1.stream ⟨system.pool.heap, system.kernel⟩
      { shifted with pool := shifted.pool.put target read.2 }

def step : Machine System Op Unit := fun system op => (perform system op, ())

def initial (heap : Heap) (kernel : Kernel) : System :=
  ⟨BufferInvariant.initial { heap with calls := [] }, fun _ => 0, kernel⟩

structure Request where
  buffer : Buffer
  value : Nat
  calls : List Call

def requests (system : System) : Op → List Request
  | .buffer (.pushBack i value) _ =>
      if value.1.length = 0 then []
      else [⟨system.buffers i, add (system.buffers i).size value.1.length, system.calls⟩]
  | .buffer (.pushBackChar i _) _ | .buffer (.cStr i) _ =>
      [⟨system.buffers i, add (system.buffers i).size 1, system.calls⟩]
  | .buffer (.pushBackInt i value) _ =>
      [⟨system.buffers i,
        add (system.buffers i).size (BufferAppend.Value.int value).text.length, system.calls⟩]
  | .buffer (.pushBackRange i value offset length) _ =>
      if value.size ≤ add offset length ∧ length ≠ 0 then
        [⟨system.buffers i, add (system.buffers i).size length, system.calls⟩]
      else []
  | .buffer (.reserve i value) _ | .buffer (.setCapacity i value) _ =>
      [⟨system.buffers i, value, system.calls⟩]
  | .buffer (.assign i value) _ =>
      if value.1.length = 0 then []
      else [⟨(system.buffers i).clear, add 0 value.1.length, system.calls⟩]
  | .buffer _ _ | .destroy _ | .createStream _ _ => []
  | .writeFd i size | .writePipe i _ size =>
      [⟨system.buffers i, add (system.buffers i).size size, system.calls⟩]
  | .readBuffer i target size =>
      -- `read(Buffer&)` asks for the same room twice, itself and through `push_back`
      let count := min size (system.stream i).size
      let asked := add (system.buffers target).size count
      let reserved := (system.buffers target).reserve asked system.pool.heap
      ⟨system.buffers target, asked, system.calls⟩ ::
        if count = 0 then []
        else [⟨reserved.buffer, add reserved.buffer.size count, reserved.heap.calls⟩]

/-- No buffer is asked for room while it still points to storage that it has given back. -/
def Reclaimed (system : System) (op : Op) : Prop :=
  ∀ asked ∈ requests system op, Clean asked.calls asked.buffer asked.value

/-- Every buffer is backed, and no two of them point to one block. -/
structure Owned (buffers : Nat → Buffer) (calls : List Call) : Prop where
  proper : Proper calls
  backed : ∀ i, Backed calls (buffers i)
  named : ∀ i block, (buffers i).data = some block → block < calls.length
  apart : ∀ i j block, (buffers i).data = some block → (buffers j).data = some block → i = j

theorem put_owned (pool : BufferInvariant.Pool) (i : Nat) (written : Buffer × Heap)
    (owned : Owned pool.buffers pool.heap.calls)
    (exchange : Exchange (pool.buffers i).data written.1 pool.heap.calls written.2.calls) :
    Owned (pool.put i written).buffers (pool.put i written).heap.calls := by
  have here : (pool.put i written).buffers i = written.1 := Function.update_self ..
  have there : ∀ j, j ≠ i → (pool.put i written).buffers j = pool.buffers j :=
    fun j other => Function.update_of_ne other ..
  -- a block of the changed buffer that another buffer holds would have to be an old one
  have unshared : ∀ j block, j ≠ i → written.1.data = some block →
      (pool.buffers j).data ≠ some block := by
    intro j block other mine theirs
    rcases exchange.origin block mine with before | ⟨above, _⟩
    · exact other (owned.apart j i block theirs before)
    · exact absurd (owned.named j block theirs) (Nat.not_lt.mpr above)
  refine ⟨exchange.proper owned.proper, ?_, ?_, ?_⟩
  · intro j
    by_cases mine : j = i
    · rw [mine, here]
      exact exchange.backed
    · rw [there j mine]
      apply (owned.backed j).carried
      · intro block found
        apply exchange.others block (owned.named j block found)
        exact fun same => mine (owned.apart j i block found same)
      · exact fun block found => exchange.hollow_iff block (owned.named j block found)
  · intro j block found
    by_cases mine : j = i
    · rw [mine, here] at found
      rcases exchange.origin block found with before | ⟨_, below⟩
      · exact Nat.lt_of_lt_of_le (owned.named i block before) exchange.longer
      · exact below
    · rw [there j mine] at found
      exact Nat.lt_of_lt_of_le (owned.named j block found) exchange.longer
  · intro j k block first second
    by_cases mine : j = i
    · by_cases also : k = i
      · rw [mine, also]
      · rw [mine, here] at first
        rw [there k also] at second
        exact absurd second (unshared k block also first)
    · rw [there j mine] at first
      by_cases also : k = i
      · rw [also, here] at second
        exact absurd first (unshared j block mine second)
      · rw [there k also] at second
        exact owned.apart j k block first second

theorem owned_renamed (before after : Nat → Buffer) (calls : List Call) (source : Nat → Nat)
    (injective : Function.Injective source) (owned : Owned before calls)
    (moved : ∀ i, ((after i).data = none ∧ (after i).capacity = 0) ∨
      ((after i).data = (before (source i)).data ∧
        (after i).capacity = (before (source i)).capacity)) : Owned after calls := by
  have traced : ∀ i block, (after i).data = some block →
      (before (source i)).data = some block := by
    intro i block found
    rcases moved i with ⟨nothing, _⟩ | ⟨same, _⟩
    · rw [nothing] at found
      cases found
    · exact same ▸ found
  refine ⟨owned.proper, ?_, ?_, ?_⟩
  · intro i
    rcases moved i with ⟨nothing, empty_room⟩ | ⟨same, room⟩
    · exact (empty_backed calls).of_storage nothing empty_room
    · exact (owned.backed (source i)).of_storage same room
  · exact fun i block found => owned.named (source i) block (traced i block found)
  · intro i j block first second
    exact injective (owned.apart _ _ block (traced i block first) (traced j block second))

theorem update_owned (pool : BufferInvariant.Pool) (i : Nat) (buffer : Buffer)
    (owned : Owned pool.buffers pool.heap.calls)
    (data : buffer.data = (pool.buffers i).data)
    (capacity : buffer.capacity = (pool.buffers i).capacity) :
    Owned (pool.put i (buffer, pool.heap)).buffers pool.heap.calls :=
  put_owned pool i (buffer, pool.heap) owned
    (exchange_of_storage (exchange_idle _ _ (owned.backed i)) data capacity)

theorem swap_owned (pool : BufferInvariant.Pool) (i j : Nat)
    (owned : Owned pool.buffers pool.heap.calls) :
    Owned (BufferInvariant.perform pool (.swap i j)).buffers pool.heap.calls := by
  apply owned_renamed pool.buffers _ _ (Equiv.swap i j) (Equiv.injective _) owned
  intro k
  right
  by_cases second : k = j
  · subst k
    simp [BufferInvariant.perform, BufferInvariant.Pool.put, MutableBuffer.swap]
  by_cases first : k = i
  · subst k
    simp [BufferInvariant.perform, BufferInvariant.Pool.put, MutableBuffer.swap, second]
  · rw [Equiv.swap_apply_of_ne_of_ne first second]
    simp [BufferInvariant.perform, BufferInvariant.Pool.put, first, second]

theorem assignMove_owned (pool : BufferInvariant.Pool) (i j : Nat)
    (owned : Owned pool.buffers pool.heap.calls) :
    Owned (BufferInvariant.perform pool (.assignMove i j)).buffers
      (BufferInvariant.perform pool (.assignMove i j)).heap.calls := by
  have released := put_owned pool i
    (((pool.buffers i).reserve 0 pool.heap).buffer, ((pool.buffers i).reserve 0 pool.heap).heap)
    owned (reserve_exchange _ 0 pool.heap (owned.backed i) (Or.inl rfl))
  by_cases same : i = j
  · simp only [BufferInvariant.perform, if_pos same]
    apply owned_renamed _ _ _ id Function.injective_id released
    intro k
    by_cases here : k = i
    · left
      simp [here, BufferInvariant.Pool.put, Buffer.assignMoveSelf]
    · right
      simp [here, BufferInvariant.Pool.put]
  · simp only [BufferInvariant.perform, if_neg same]
    apply owned_renamed _ _ _ (Equiv.swap i j) (Equiv.injective _) released
    intro k
    by_cases emptied : k = j
    · left
      simp [emptied, BufferInvariant.Pool.put, Buffer.assignMove]
    right
    by_cases taken : k = i
    · have other : j ≠ i := fun back => same back.symm
      simp [taken, same, other, BufferInvariant.Pool.put, Buffer.assignMove]
    · rw [Equiv.swap_apply_of_ne_of_ne taken emptied]
      simp [taken, emptied, BufferInvariant.Pool.put]

theorem buffer_owned (system : System) (op : BufferInvariant.Op) (plain : unformatted op = true)
    (owned : Owned system.buffers system.calls) (reclaimed : Reclaimed system (.buffer op plain)) :
    Owned (perform system (.buffer op plain)).buffers
      (perform system (.buffer op plain)).calls := by
  cases op with
  | construct i constructor =>
      simp only [perform, System.buffers, System.calls, BufferInvariant.perform]
      split
      · rename_i made built
        exact put_owned system.pool i made owned
          (exchange_new _ (construct_exchange system.pool constructor made built))
      · exact owned
  | pushBack i value =>
      apply put_owned system.pool i _ owned
      apply pushBack_exchange _ value.1 _ (owned.backed i)
      intro nonempty
      apply reclaimed ⟨system.buffers i, _, system.calls⟩
      rw [requests, if_neg nonempty]
      exact List.mem_singleton_self _
  | pushBackChar i value =>
      exact put_owned system.pool i _ owned
        (append_exchange _ [value] (reserve_exchange _ _ _ (owned.backed i)
          (reclaimed _ (List.mem_singleton_self _))))
  | pushBackInt i value =>
      apply put_owned system.pool i _ owned
      apply pushBack_exchange _ _ _ (owned.backed i)
      intro _
      exact reclaimed _ (List.mem_singleton_self _)
  | pushBackRange i value offset length =>
      simp only [perform, System.buffers, System.calls, BufferInvariant.perform]
      split
      · rename_i written passed
        apply put_owned system.pool i written owned
        apply pushBackRange_exchange _ value offset length _ written (owned.backed i) _ passed
        intro writes
        apply reclaimed ⟨system.buffers i, _, system.calls⟩
        rw [requests, if_pos writes]
        exact List.mem_singleton_self _
      · exact owned
  | reserve i value =>
      exact put_owned system.pool i _ owned
        (reserve_exchange _ value _ (owned.backed i)
          (reclaimed _ (List.mem_singleton_self _)))
  | setCapacity i value =>
      exact put_owned system.pool i _ owned
        (setCapacity_exchange _ value _ (owned.backed i)
          (reclaimed _ (List.mem_singleton_self _)))
  | resize i value =>
      have kept := Buffer.resize_storage (system.buffers i) value
      exact update_owned system.pool i _ owned kept.1 kept.2
  | clear i => exact update_owned system.pool i _ owned rfl rfl
  | swap i j => exact swap_owned system.pool i j owned
  | assign i value =>
      apply put_owned system.pool i _ owned
      have cleared : Backed system.calls (system.buffers i).clear :=
        (owned.backed i).of_storage rfl rfl
      apply pushBack_exchange (system.buffers i).clear value.1 _ cleared
      intro nonempty
      apply reclaimed ⟨(system.buffers i).clear, _, system.calls⟩
      rw [requests, if_neg nonempty]
      exact List.mem_singleton_self _
  | assignMove i j => exact assignMove_owned system.pool i j owned
  | cStr i =>
      apply put_owned system.pool i _ owned
      have grown := reserve_exchange (system.buffers i) (add (system.buffers i).size 1)
        system.pool.heap (owned.backed i)
        (reclaimed _ (List.mem_singleton_self _))
      simp only [Buffer.cStr]
      split
      · exact exchange_of_storage grown rfl rfl
      · exact grown
  | printf i format text rounds => cases plain

theorem writeFd_exchange (stream : BufferStream) (size : Nat) (world : World)
    (backed : Backed world.heap.calls stream.data)
    (clean : Clean world.heap.calls stream.data (add stream.data.size size)) :
    Exchange stream.data.data (stream.writeFd size world).stream.data world.heap.calls
      (stream.writeFd size world).world.heap.calls := by
  have grown := reserve_exchange stream.data _ world.heap backed clean
  simp only [BufferStream.writeFd]
  split
  · exact grown
  · exact exchange_of_storage grown (BufferStream.received_storage _ _).1
      (BufferStream.received_storage _ _).2

theorem writePipe_exchange (stream : BufferStream) (source : Pipe) (size : Nat) (world : World)
    (backed : Backed world.heap.calls stream.data)
    (clean : Clean world.heap.calls stream.data (add stream.data.size size)) :
    Exchange stream.data.data (stream.writePipe source size world).1.stream.data world.heap.calls
      (stream.writePipe source size world).1.world.heap.calls := by
  have grown := reserve_exchange stream.data _ world.heap backed clean
  exact exchange_of_storage grown (BufferStream.received_storage _ _).1
    (BufferStream.received_storage _ _).2

theorem readBuffer_exchange (stream : BufferStream) (result : Buffer) (size : Nat) (heap : Heap)
    (first : Exchange result.data
      (result.reserve (add result.size (min size stream.size)) heap).buffer heap.calls
      (result.reserve (add result.size (min size stream.size)) heap).heap.calls)
    (clean : min size stream.size ≠ 0 →
      Clean (result.reserve (add result.size (min size stream.size)) heap).heap.calls
        (result.reserve (add result.size (min size stream.size)) heap).buffer
        (add (result.reserve (add result.size (min size stream.size)) heap).buffer.size
          (min size stream.size))) :
    Exchange result.data (stream.readBuffer result size heap).2.1 heap.calls
      (stream.readBuffer result size heap).2.2.calls := by
  apply exchange_trans first
  apply pushBack_exchange _ _ _ first.backed
  rw [load_length]
  exact clean

theorem perform_owned (system : System) (op : Op) (owned : Owned system.buffers system.calls)
    (reclaimed : Reclaimed system op) :
    Owned (perform system op).buffers (perform system op).calls := by
  cases op with
  | buffer op plain => exact buffer_owned system op plain owned reclaimed
  | destroy i =>
      exact put_owned system.pool i _ owned
        (exchange_dropped (reserve_exchange _ 0 _ (owned.backed i) (Or.inl rfl)))
  | createStream i capacity =>
      exact put_owned system.pool i _ owned (exchange_new _
        (reserve_exchange empty capacity system.pool.heap (empty_backed _) (empty_clean _ _)))
  | writeFd i size =>
      exact put_owned system.pool i _ owned
        (writeFd_exchange (system.stream i) size _ (owned.backed i)
          (reclaimed _ (List.mem_singleton_self _)))
  | writePipe i source size =>
      exact put_owned system.pool i _ owned
        (writePipe_exchange (system.stream i) source size _ (owned.backed i)
          (reclaimed _ (List.mem_singleton_self _)))
  | readBuffer i target size =>
      have shifted := (system.stream i).shift_storage (min size (system.stream i).size)
      have moved := update_owned system.pool i
        ((system.stream i).shift (min size (system.stream i).size)).data owned shifted.1 shifted.2
      have first := reserve_exchange (system.buffers target) _ system.pool.heap
        (owned.backed target) (reclaimed _ List.mem_cons_self)
      have read := readBuffer_exchange (system.stream i) (system.buffers target) size
        system.pool.heap first fun some_bytes => by
          apply reclaimed ⟨_, _, _⟩
          simp only [requests, if_neg some_bytes]
          exact List.mem_cons_of_mem _ (List.mem_singleton_self _)
      apply put_owned _ target _ moved
      -- the shifted stream keeps its block, so the target's pointer is still the same
      have untouched : ((system.pool.put i (((system.stream i).shift
          (min size (system.stream i).size)).data, system.pool.heap)).buffers target).data =
          (system.buffers target).data := by
        by_cases same : target = i
        · subst target
          simp only [BufferInvariant.Pool.put, Function.update_self]
          exact shifted.1
        · simp [BufferInvariant.Pool.put, same, System.buffers]
      exact untouched ▸ read

theorem buffer_needs (system : System) (op : BufferInvariant.Op) (plain : unformatted op = true)
    (owned : Owned system.buffers system.calls)
    (proper : Proper (perform system (.buffer op plain)).calls) :
    Reclaimed system (.buffer op plain) := by
  intro asked member
  cases op with
  | construct _ _ | resize _ _ | clear _ | swap _ _ | assignMove _ _ => cases member
  | pushBack i value =>
      simp only [requests] at member
      split at member
      · cases member
      · rename_i nonempty
        cases List.mem_singleton.mp member
        exact pushBack_needs _ value.1 _ (owned.backed i) nonempty proper
  | pushBackChar i value =>
      cases List.mem_singleton.mp member
      have reserved : Proper ((system.buffers i).pushBackChar value system.pool.heap).2.calls :=
        proper
      rw [pushBackChar, append_heap] at reserved
      exact reserve_needs _ _ _ (owned.backed i) reserved
  | pushBackInt i value =>
      cases List.mem_singleton.mp member
      have nonempty : (BufferAppend.Value.int value).text.length ≠ 0 := by
        simp only [BufferAppend.Value.text]
        split
        · simp
        · exact fun nothing =>
            decimal_ne_nil _ (List.length_eq_zero_iff.mp nothing)
      exact pushBack_needs _ _ _ (owned.backed i) nonempty proper
  | pushBackRange i value offset length =>
      simp only [requests] at member
      split at member
      · rename_i writes
        cases List.mem_singleton.mp member
        have reserved :
            (perform system (.buffer (.pushBackRange i value offset length) plain)).calls =
            ((system.buffers i).reserve (add (system.buffers i).size length)
              system.pool.heap).heap.calls := by
          simp [perform, System.calls, System.buffers, BufferInvariant.perform,
            pushBackRange, writes, BufferInvariant.Pool.put]
        rw [reserved] at proper
        exact reserve_needs _ _ _ (owned.backed i) proper
      · cases member
  | reserve i value =>
      cases List.mem_singleton.mp member
      exact reserve_needs _ value _ (owned.backed i) proper
  | setCapacity i value =>
      cases List.mem_singleton.mp member
      exact setCapacity_needs _ value _ (owned.backed i) proper
  | assign i value =>
      simp only [requests] at member
      split at member
      · cases member
      · rename_i nonempty
        cases List.mem_singleton.mp member
        exact pushBack_needs (system.buffers i).clear value.1 _
          ((owned.backed i).of_storage rfl rfl)
          nonempty proper
  | cStr i =>
      cases List.mem_singleton.mp member
      exact reserve_needs _ _ _ (owned.backed i) proper
  | printf _ _ _ _ => cases plain

theorem perform_needs (system : System) (op : Op) (owned : Owned system.buffers system.calls)
    (proper : Proper (perform system op).calls) : Reclaimed system op := by
  cases op with
  | buffer op plain => exact buffer_needs system op plain owned proper
  | destroy _ | createStream _ _ =>
      intro asked member
      cases member
  | writeFd i size =>
      intro asked member
      cases List.mem_singleton.mp member
      have reserved : (perform system (.writeFd i size)).calls =
          ((system.buffers i).reserve (add (system.buffers i).size size)
            system.pool.heap).heap.calls := by
        simp only [perform, System.calls, System.put, BufferInvariant.Pool.put,
          BufferStream.writeFd]
        split <;> rfl
      rw [reserved] at proper
      exact reserve_needs _ _ _ (owned.backed i) proper
  | writePipe i source size =>
      intro asked member
      cases List.mem_singleton.mp member
      exact reserve_needs _ _ _ (owned.backed i) proper
  | readBuffer i target size =>
      intro asked member
      have room := reserve_needs _ _ _ (owned.backed target) (pushBack_proper _ _ _ proper)
      rcases List.mem_cons.mp member with rfl | second
      · exact room
      · have first := reserve_exchange (system.buffers target) _ system.pool.heap
          (owned.backed target) room
        split at second
        · cases second
        · rename_i some_bytes
          cases List.mem_singleton.mp second
          have pushed := pushBack_needs _
            (load (system.stream i).data.bytes (system.stream i).readOffset
              (min size (system.stream i).size)) _ first.backed
            (by rw [load_length]; exact some_bytes) proper
          rwa [load_length] at pushed

theorem initial_owned (heap : Heap) (kernel : Kernel) :
    Owned (initial heap kernel).buffers (initial heap kernel).calls := by
  refine ⟨trivial, fun _ => empty_backed _, ?_, ?_⟩
  · intro i block found
    cases found
  · intro i j block found _
    cases found

/-- In exactly those runs in which no buffer is asked for room after it has given its block
back, every pointer passed to `free` or `realloc` is null or live, whatever the allocator
and the kernel answer. -/
theorem storage_proper_iff (heap : Heap) (kernel : Kernel) (ops : List Op) :
    Always step (fun system => Proper system.calls) (initial heap kernel) ops ↔
      Along step Reclaimed (initial heap kernel) ops :=
  always_iff_along step Reclaimed (fun system => Owned system.buffers system.calls) _
    (fun _ owned => owned.proper)
    (fun system op owned reclaimed => perform_owned system op owned reclaimed)
    (fun system op owned proper => perform_needs system op owned proper)
    _ ops (initial_owned heap kernel)

/-- `Buffer b(4); b.reserve(0); b.push_back('a')`: the block freed by the second call is
passed to `realloc` by the third. -/
theorem reserve_zero_dangles :
    ¬ Always step (fun system => Proper system.calls) (initial Heap.generous Kernel.willing)
      [.buffer (.construct 0 (.capacity 4)) rfl, .buffer (.reserve 0 0) rfl,
        .buffer (.pushBackChar 0 97) rfl] := by
  intro always
  have last := always_final step _ _ _ always
  revert last
  decide

end Xio.Ownership
