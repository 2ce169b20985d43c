import Mathlib.Data.List.DropRight
import Xio.ListenFds
import Xio.Ranges

/-!
The two scans of `include/xio/Buffer.h` that run backwards: `rfind` of a literal and the
right end of `trim`. What they read is recorded, as positions counted from the start of
the view; at its end and beyond they read whatever the memory holds there.
-/

namespace Xio.BufferRef

open MachineWord ListenFds

structure Scanned (Result : Type) where
  reads : List Nat
  result : Result

-- `at(position)`
def byteAt (view : BufferRef) (position : Nat) : UInt8 := view.bytes (view.start + position)

-- The inner loop of `rfind`: the characters before the last one, from the front.
def compareFront (view : BufferRef) (i : Nat) : Nat → List UInt8 → Scanned Bool
  | _, [] => ⟨[], true⟩
  | n, value :: rest =>
      if view.byteAt (i + n) ≠ value then ⟨[i + n], false⟩
      else
        let later := view.compareFront i (n + 1) rest
        ⟨(i + n) :: later.reads, later.result⟩

-- The outer loop runs from `end()` down to `begin() + (N - 1)`, which is `count` steps
-- away. `value[N - 1]` is the terminator of the literal.
def rfindLoop (view : BufferRef) (value : List UInt8) : Nat → Scanned Nat
  | 0 => ⟨[], npos⟩
  | count + 1 =>
      let i := value.length + (count + 1)
      if view.byteAt i = 0 then
        let front := view.compareFront i 0 value.dropLast
        if front.result then ⟨i :: front.reads, i⟩
        else
          let rest := view.rfindLoop value count
          ⟨i :: (front.reads ++ rest.reads), rest.result⟩
      else
        let rest := view.rfindLoop value count
        ⟨i :: rest.reads, rest.result⟩

/-- `rfind(PodType (&)[N])` of a literal with `N - 1` characters. -/
def rfindLiteral (view : BufferRef) (value : List UInt8) : Scanned Nat :=
  if view.size = 0 then ⟨[], npos⟩
  else if view.size < value.length then ⟨[], npos⟩
  else view.rfindLoop value (view.size - value.length)

-- `count` positions are left to the end of the view.
def trimLeft (view : BufferRef) : Nat → Nat → Scanned Nat
  | 0, left => ⟨[], left⟩
  | count + 1, left =>
      if isSpace (view.byteAt left) then
        let rest := view.trimLeft count (left + 1)
        ⟨left :: rest.reads, rest.result⟩
      else ⟨[left], left⟩

def trimRight (view : BufferRef) : Nat → Scanned Nat
  | 0 => ⟨[], 0⟩
  | right + 1 =>
      if isSpace (view.byteAt (right + 1)) then
        let rest := view.trimRight right
        ⟨(right + 1) :: rest.reads, rest.result⟩
      else ⟨[right + 1], right + 1⟩

def trim (view : BufferRef) : Scanned (Option BufferRef) :=
  let left := view.trimLeft view.size 0
  let right := view.trimRight (sub view.size 1)
  ⟨left.reads ++ right.reads,
    view.refCount left.result (sub (add 1 right.result) left.result)⟩

end Xio.BufferRef

namespace Xio.Scans

open Storage MachineWord Environment Occurrences BufferRef ListenFds Ranges

/-! The last occurrence. -/

/-- The answer `rfind` should give, and from where it should take it. -/
structure Mirrors (view : BufferRef) (value : List UInt8) (scan : Scanned Nat) : Prop where
  found : ∃ found, IsLast view.content value found ∧ scan.result = found.getD npos
  inside : ∀ position ∈ scan.reads, position < view.size

theorem rfind_idle (view : BufferRef) (value : List UInt8) (short : view.size ≤ value.length) :
    view.rfindLiteral value = ⟨[], npos⟩ := by
  rw [rfindLiteral, Nat.sub_eq_zero_of_le short, rfindLoop, ite_self, ite_self]

-- The first byte looked at is the one behind the view.
theorem rfind_reads_behind (view : BufferRef) (value : List UInt8)
    (longer : value.length < view.size) : view.size ∈ (view.rfindLiteral value).reads := by
  obtain ⟨count, steps⟩ := Nat.exists_eq_add_of_lt longer
  have left : view.size - value.length = count + 1 := by omega
  have last : view.size = value.length + (count + 1) := steps
  rw [rfindLiteral, if_neg (by omega), if_neg (by omega), left, last]
  simp only [rfindLoop]
  split
  · split <;> exact List.mem_cons_self
  · exact List.mem_cons_self

theorem idle_mirrors_iff (view : BufferRef) (value : List UInt8) (nonempty : value ≠ [])
    (word : view.size < 2 ^ 64) :
    Mirrors view value ⟨[], npos⟩ ↔ ∀ i, ¬ Occurs view.content value i := by
  have length : view.content.length = view.size := load_length _ _ _
  constructor
  · rintro ⟨⟨found, last, answer⟩, _⟩
    cases found with
    | none => exact last
    | some i =>
        have ends := last.1.end_le nonempty
        have positive := List.length_pos_iff.mpr nonempty
        simp only [Option.getD_some, npos] at answer
        omega
  · intro absent
    exact ⟨⟨none, absent, rfl⟩, fun _ member => absurd member List.not_mem_nil⟩

theorem absent_iff (text value : List UInt8) (nonempty : value ≠ [])
    (short : text.length ≤ value.length) :
    (∀ i, ¬ Occurs text value i) ↔ text ≠ value := by
  constructor
  · rintro absent rfl
    exact absent 0 (List.prefix_refl text)
  · intro different i occurs
    have ends := occurs.end_le nonempty
    have first : i = 0 := by omega
    subst first
    exact different (List.IsPrefix.eq_of_length occurs (by rw [List.drop_zero]; omega)).symm

/-- A search that reads anything reads behind the view, and one that reads nothing finds
nothing: it is right only where there is nothing to find. -/
theorem rfind_mirrors_iff (view : BufferRef) (value : List UInt8) (nonempty : value ≠ [])
    (word : view.size < 2 ^ 64) :
    Mirrors view value (view.rfindLiteral value) ↔
      view.size < value.length ∨ view.size = value.length ∧ view.content ≠ value := by
  have length : view.content.length = view.size := load_length _ _ _
  by_cases short : view.size ≤ value.length
  · rw [rfind_idle view value short, idle_mirrors_iff view value nonempty word,
      absent_iff view.content value nonempty (length ▸ short)]
    constructor
    · intro different
      rcases Nat.eq_or_lt_of_le short with same | shorter
      · exact Or.inr ⟨same, different⟩
      · exact Or.inl shorter
    · rintro (shorter | ⟨_, different⟩)
      · rintro rfl
        omega
      · exact different
  · refine iff_of_false ?_ (by omega)
    intro mirrors
    exact Nat.lt_irrefl _
      (mirrors.inside _ (rfind_reads_behind view value (Nat.lt_of_not_le short)))

/-- A literal of two or more characters without a NUL is never found: the byte compared
with its terminator is the byte compared with its first character. -/
theorem rfind_blind (view : BufferRef) (value : List UInt8) (several : 2 ≤ value.length)
    (free : 0 ∉ value) : (view.rfindLiteral value).result = npos := by
  obtain ⟨first, rest, front⟩ : ∃ first rest, value.dropLast = first :: rest := by
    apply List.exists_cons_of_ne_nil
    intro nothing
    have short := congrArg List.length nothing
    rw [List.length_dropLast, List.length_nil] at short
    omega
  have visible : first ≠ 0 := by
    rintro rfl
    exact free (List.dropLast_subset value (by rw [front]; exact List.mem_cons_self))
  have misses : ∀ count, (view.rfindLoop value count).result = npos := by
    intro count
    induction count with
    | zero => rfl
    | succ count ih =>
        simp only [rfindLoop]
        split
        · rename_i terminator
          have differs : view.byteAt (value.length + (count + 1) + 0) ≠ first := by
            rw [Nat.add_zero, terminator]
            exact visible.symm
          rw [front, compareFront, if_pos differs]
          exact ih
        · exact ih
  simp only [rfindLiteral]
  split
  · rfl
  split
  · rfl
  · exact misses _

def text (bytes : List UInt8) (size : Nat) : BufferRef := ⟨store (fun _ => 0) 0 bytes, 0, size⟩

theorem rfind_mirrors_short :
    Mirrors (text [97] 1) [97, 98] ((text [97] 1).rfindLiteral [97, 98]) :=
  (rfind_mirrors_iff (text [97] 1) [97, 98] (by decide) (by decide)).mpr (Or.inl (by decide))

/-- `ab` is not found in `abab`, nor in itself, and the byte behind the view is read. -/
theorem rfind_misses_all :
    ¬ Mirrors (text [97, 98, 97, 98] 4) [97, 98]
        ((text [97, 98, 97, 98] 4).rfindLiteral [97, 98]) ∧
      (text [97, 98, 97, 98] 4).rfindLiteral [97, 98] = ⟨[4, 4, 3], npos⟩ ∧
      ¬ Mirrors (text [97, 98] 2) [97, 98] ((text [97, 98] 2).rfindLiteral [97, 98]) := by
  refine ⟨fun mirrors => ?_, rfl, fun mirrors => ?_⟩
  · exact absurd (mirrors.inside 4 (by decide)) (by decide)
  · rw [rfind_idle _ _ (by decide), idle_mirrors_iff _ _ (by decide) (by decide)] at mirrors
    exact mirrors 0 (List.prefix_refl _)

/-! White space at both ends. -/

def stripped (text : List UInt8) : List UInt8 := (text.dropWhile isSpace).rdropWhile isSpace

-- The white space around a middle that neither begins nor ends with it.
theorem stripped_middle (before middle behind : List UInt8)
    (blank_before : ∀ byte ∈ before, isSpace byte = true)
    (blank_behind : ∀ byte ∈ behind, isSpace byte = true)
    (first : ∀ byte ∈ middle.head?, isSpace byte = false)
    (last : ∀ byte ∈ middle.getLast?, isSpace byte = false) (nonempty : middle ≠ []) :
    stripped (before ++ middle ++ behind) = middle := by
  have front : (middle ++ behind).dropWhile isSpace = middle ++ behind := by
    obtain ⟨byte, rest, rfl⟩ := List.exists_cons_of_ne_nil nonempty
    exact List.dropWhile_cons_of_neg (by rw [first byte rfl]; decide)
  have back : behind.reverse.dropWhile isSpace = [] :=
    List.dropWhile_eq_nil_iff.mpr fun byte member => blank_behind byte (List.mem_reverse.mp member)
  have kept : middle.rdropWhile isSpace = middle := by
    apply List.rdropWhile_eq_self_iff.mpr
    intro some_middle
    rw [last _ (List.getLast?_eq_getLast_of_ne_nil some_middle)]
    decide
  rw [stripped, List.append_assoc, List.dropWhile_append_of_pos blank_before, front,
    List.rdropWhile, List.reverse_append, List.dropWhile_append, back]
  exact kept

theorem stripped_blank (text : List UInt8) (blank : ∀ byte ∈ text, isSpace byte = true) :
    stripped text = [] := by
  rw [stripped, List.dropWhile_eq_nil_iff.mpr blank, List.rdropWhile_nil]

theorem stripped_stripped (text : List UInt8) : stripped (stripped text) = stripped text := by
  have settled : (stripped text).dropWhile isSpace = stripped text := by
    obtain ⟨more, whole⟩ := List.rdropWhile_prefix isSpace (text.dropWhile isSpace)
    change stripped text ++ more = _ at whole
    cases front : stripped text with
    | nil => rfl
    | cons byte rest =>
        have visible := List.head?_dropWhile_not isSpace text
        rw [← whole, front, List.cons_append, List.head?_cons] at visible
        exact List.dropWhile_cons_of_neg (by simp only [visible]; decide)
  rw [stripped, settled]
  exact List.rdropWhile_idempotent isSpace _

/-- What `trim` should return, and from where it should take it. -/
structure Trims (view : BufferRef) (scan : Scanned (Option BufferRef)) : Prop where
  inside : ∀ position ∈ scan.reads, position < view.size
  result : ∃ window, scan.result = some window ∧ window.content = stripped view.content ∧
    Within window view

def Settles (view : BufferRef) : Prop :=
  Trims view view.trim ∧ ∃ once, view.trim.result = some once ∧ Trims once once.trim ∧
    ∃ twice, once.trim.result = some twice ∧ twice.content = once.content

def Marked (view : BufferRef) : Prop := ∃ i < view.size, isSpace (view.byteAt i) = false

/-! The scans. -/

structure StopsLeft (view : BufferRef) (start stop : Nat) (scan : Scanned Nat) : Prop where
  lower : start ≤ scan.result
  upper : scan.result ≤ stop
  blank : ∀ i, start ≤ i → i < scan.result → isSpace (view.byteAt i) = true
  stops : scan.result < stop → isSpace (view.byteAt scan.result) = false
  inside : ∀ position ∈ scan.reads, position < stop

theorem trimLeft_stops (view : BufferRef) (count left : Nat) :
    StopsLeft view left (left + count) (view.trimLeft count left) := by
  induction count generalizing left with
  | zero => exact ⟨Nat.le_refl _, Nat.le_refl _, fun i first last =>
      absurd last (Nat.not_lt.mpr first),
      fun short => absurd short (Nat.lt_irrefl _), fun _ member => absurd member List.not_mem_nil⟩
  | succ count ih =>
      simp only [trimLeft]
      split
      · rename_i blank
        obtain ⟨lower, upper, blanks, stops, inside⟩ := ih (left + 1)
        have same : left + 1 + count = left + (count + 1) := by omega
        rw [same] at upper stops inside
        refine ⟨Nat.le_of_succ_le lower, upper, ?_, stops, ?_⟩
        · intro i first last
          rcases Nat.eq_or_lt_of_le first with here | later
          · rw [← here]
            exact blank
          · exact blanks i later last
        · exact List.forall_mem_cons.mpr ⟨by omega, inside⟩
      · rename_i visible
        exact ⟨Nat.le_refl _, Nat.le_add_right _ _,
          fun i first last => absurd last (Nat.not_lt.mpr first),
          fun _ => (Bool.not_eq_true _).mp visible, List.forall_mem_singleton.mpr (by omega)⟩

structure StopsRight (view : BufferRef) (right : Nat) (scan : Scanned Nat) : Prop where
  upper : scan.result ≤ right
  blank : ∀ i, scan.result < i → i ≤ right → isSpace (view.byteAt i) = true
  stops : 0 < scan.result → isSpace (view.byteAt scan.result) = false
  inside : ∀ position ∈ scan.reads, position ≤ right

theorem trimRight_stops (view : BufferRef) (right : Nat) :
    StopsRight view right (view.trimRight right) := by
  induction right with
  | zero => exact ⟨Nat.le_refl 0, fun i first last => absurd last (Nat.not_le.mpr first),
      fun some_right => absurd some_right (Nat.lt_irrefl 0),
      fun _ member => absurd member List.not_mem_nil⟩
  | succ right ih =>
      simp only [trimRight]
      split
      · rename_i blank
        obtain ⟨upper, blanks, stops, inside⟩ := ih
        refine ⟨Nat.le_succ_of_le upper, ?_, stops, ?_⟩
        · intro i first last
          rcases Nat.eq_or_lt_of_le last with here | earlier
          · rw [here]
            exact blank
          · exact blanks i first (Nat.le_of_lt_succ earlier)
        · exact List.forall_mem_cons.mpr
            ⟨Nat.le_refl _, fun position member => Nat.le_succ_of_le (inside position member)⟩
      · rename_i visible
        exact ⟨Nat.le_refl _, fun i first last => absurd last (Nat.not_le.mpr first),
          fun _ => (Bool.not_eq_true _).mp visible, List.forall_mem_singleton.mpr (Nat.le_refl _)⟩

/-! The whole of `trim`. -/

theorem byteAt_mem (view : BufferRef) (byte : UInt8) :
    byte ∈ view.content ↔ ∃ i < view.size, view.byteAt i = byte := by
  simp only [BufferRef.content, load, List.mem_map, List.mem_range]
  rfl

theorem blank_of_unmarked (view : BufferRef) (unmarked : ¬ Marked view) (i : Nat)
    (inside : i < view.size) : isSpace (view.byteAt i) = true := by
  by_contra visible
  exact unmarked ⟨i, inside, (Bool.not_eq_true _).mp visible⟩

theorem stripped_unmarked (view : BufferRef) (unmarked : ¬ Marked view) :
    stripped view.content = [] := by
  apply stripped_blank
  intro byte member
  obtain ⟨i, inside, rfl⟩ := (byteAt_mem view byte).mp member
  exact blank_of_unmarked view unmarked i inside

theorem size_of_stripped (view window : BufferRef) (unmarked : ¬ Marked view)
    (content : window.content = stripped view.content) : window.size = 0 := by
  have length := congrArg List.length content
  rw [stripped_unmarked view unmarked, List.length_nil, BufferRef.content, load_length] at length
  exact length

-- The empty view: the right scan starts at `npos`.
theorem trim_empty (view : BufferRef) (nothing : view.size = 0) : ¬ Trims view view.trim := by
  intro trims
  have start : sub view.size 1 = (2 ^ 64 - 2) + 1 := by
    rw [nothing]
    rfl
  have read : 2 ^ 64 - 2 + 1 ∈ view.trim.reads := by
    simp only [trim, start]
    apply List.mem_append_right
    rw [trimRight]
    split <;> exact List.mem_cons_self
  have inside := trims.inside _ read
  omega

theorem trim_reads_inside (view : BufferRef) (something : view.size ≠ 0) :
    ∀ position ∈ view.trim.reads, position < view.size := by
  have left := (trimLeft_stops view view.size 0).inside
  have right := (trimRight_stops view (sub view.size 1)).inside
  rw [Nat.zero_add] at left
  rw [sub_exact (by omega)] at right
  intro position member
  simp only [trim] at member
  rcases List.mem_append.mp member with first | second
  · exact left position first
  · rw [sub_exact (by omega)] at second
    have bound := right position second
    omega

-- From the first to the last byte that is not white space.
theorem stripped_between (view : BufferRef) (left right : Nat) (ordered : left ≤ right)
    (inside : right < view.size)
    (blank_before : ∀ i, i < left → isSpace (view.byteAt i) = true)
    (blank_behind : ∀ i, right < i → i < view.size → isSpace (view.byteAt i) = true)
    (first : isSpace (view.byteAt left) = false) (last : isSpace (view.byteAt right) = false) :
    load view.bytes (view.start + left) (1 + right - left) = stripped view.content := by
  have parts : view.content = load view.bytes view.start left ++
      load view.bytes (view.start + left) (1 + right - left) ++
      load view.bytes (view.start + (1 + right)) (view.size - (1 + right)) := by
    have size : view.size = left + (1 + right - left) + (view.size - (1 + right)) := by omega
    rw [BufferRef.content, size, load_add, load_add]
    congr 2 <;> omega
  have nonempty : load view.bytes (view.start + left) (1 + right - left) ≠ [] := by
    intro nothing
    have length := congrArg List.length nothing
    rw [load_length, List.length_nil] at length
    omega
  rw [parts, stripped_middle _ _ _ ?_ ?_ ?_ ?_ nonempty]
  · intro byte member
    obtain ⟨i, small, rfl⟩ := List.mem_map.mp member
    exact blank_before i (List.mem_range.mp small)
  · intro byte member
    obtain ⟨i, small, rfl⟩ := List.mem_map.mp member
    have bound := List.mem_range.mp small
    rw [Nat.add_assoc]
    exact blank_behind _ (by omega) (by omega)
  · intro byte head
    rw [List.head?_eq_getElem?, load_getElem?, if_pos (by omega)] at head
    cases head
    exact first
  · intro byte tail
    rw [List.getLast?_eq_getElem?, load_length, load_getElem?, if_pos (by omega)] at tail
    cases tail
    have same : view.start + left + (1 + right - left - 1) = view.start + right := by omega
    rw [same]
    exact last

theorem trim_marked (view : BufferRef) (word : view.size < 2 ^ 64) (marked : Marked view) :
    ∃ left right, left ≤ right ∧ right < view.size ∧ isSpace (view.byteAt left) = false ∧
      view.trim.result = some ⟨view.bytes, view.start + left, 1 + right - left⟩ ∧
      load view.bytes (view.start + left) (1 + right - left) = stripped view.content := by
  obtain ⟨i, inside, visible⟩ := marked
  have start : sub view.size 1 = view.size - 1 := sub_exact (by omega)
  obtain ⟨_, _, blank_left, stops_left, _⟩ := trimLeft_stops view view.size 0
  obtain ⟨upper, blank_right, stops_right, _⟩ := trimRight_stops view (view.size - 1)
  rw [Nat.zero_add] at stops_left
  simp only [trim, start]
  generalize (view.trimLeft view.size 0).result = left at blank_left stops_left ⊢
  generalize (view.trimRight (view.size - 1)).result = right at upper blank_right stops_right ⊢
  -- neither scan passes the byte that is not white space
  have before : left ≤ i := by
    by_contra passed
    rw [blank_left i (Nat.zero_le i) (by omega)] at visible
    cases visible
  have behind : i ≤ right := by
    by_contra passed
    rw [blank_right i (by omega) (by omega)] at visible
    cases visible
  have first := stops_left (by omega)
  have last : isSpace (view.byteAt right) = false := by
    by_cases zero : right = 0
    · have same : left = right := by omega
      rw [← same]
      exact first
    · exact stops_right (by omega)
  have count : sub (add 1 right) left = 1 + right - left := by
    rw [add_exact (by omega), sub_exact (by omega)]
  refine ⟨left, right, by omega, by omega, first, ?_, ?_⟩
  · rw [count]
    exact refCount_inside view left _ word (by omega)
  · exact stripped_between view left right (by omega) (by omega)
      (fun j small => blank_left j (Nat.zero_le j) small)
      (fun j large small => blank_right j large (by omega)) first last

-- Nothing but white space: the scans run past each other to the opposite ends.
theorem trim_unmarked (view : BufferRef) (something : view.size ≠ 0) (unmarked : ¬ Marked view) :
    view.trim.result = view.refCount view.size (sub 1 view.size) := by
  have blank := blank_of_unmarked view unmarked
  have start : sub view.size 1 = view.size - 1 := sub_exact (by omega)
  obtain ⟨_, upper_left, _, stops_left, _⟩ := trimLeft_stops view view.size 0
  obtain ⟨upper, _, stops_right, _⟩ := trimRight_stops view (view.size - 1)
  rw [Nat.zero_add] at upper_left stops_left
  have left : (view.trimLeft view.size 0).result = view.size := by
    by_contra short
    have visible := stops_left (by omega)
    rw [blank _ (by omega)] at visible
    cases visible
  have right : (view.trimRight (view.size - 1)).result = 0 := by
    by_contra short
    have visible := stops_right (by omega)
    rw [blank _ (by omega)] at visible
    cases visible
  have one : add 1 0 = 1 := rfl
  simp only [trim, start, left, right, one]

theorem trims_of_marked (view : BufferRef) (word : view.size < 2 ^ 64) (marked : Marked view) :
    Trims view view.trim := by
  obtain ⟨left, right, ordered, inside, _, result, content⟩ := trim_marked view word marked
  exact ⟨trim_reads_inside view (by omega), _, result, content, rfl, Nat.le_add_right _ _,
    by simp only; omega⟩

theorem trim_few (view : BufferRef) (word : view.size < 2 ^ 64) (unmarked : ¬ Marked view)
    (few : view.size = 1 ∨ view.size = 2) :
    view.trim.result = some ⟨view.bytes, view.start + view.size, 0⟩ := by
  rw [trim_unmarked view (by omega) unmarked]
  rcases few with one | two
  · rw [one]
    exact refCount_inside view 1 0 word (by omega)
  · have count : sub 1 view.size = npos := by
      rw [two]
      rfl
    rw [count, refCount_npos view view.size (Nat.le_refl _), Nat.sub_self]

theorem trim_many (view window : BufferRef) (word : view.size < 2 ^ 64) (unmarked : ¬ Marked view)
    (many : 2 < view.size) (taken : view.trim.result = some window) : window.size ≠ 0 := by
  have wrapped : sub 1 view.size = 2 ^ 64 + 1 - view.size := by
    simp only [sub]
    split <;> omega
  have counted : sub 1 view.size ≠ npos := by
    simp only [npos]
    omega
  rw [trim_unmarked view (by omega) unmarked, BufferRef.refCount, if_pos counted] at taken
  split at taken
  · have same := congrArg BufferRef.size (Option.some.inj taken)
    simp only at same
    omega
  · cases taken

theorem trims_unmarked_iff (view : BufferRef) (word : view.size < 2 ^ 64)
    (unmarked : ¬ Marked view) :
    Trims view view.trim ↔ view.size = 1 ∨ view.size = 2 := by
  by_cases nothing : view.size = 0
  · exact iff_of_false (trim_empty view nothing) (by omega)
  constructor
  · rintro ⟨_, window, taken, content, _⟩
    by_contra longer
    exact trim_many view window word unmarked (by omega) taken
      (size_of_stripped view window unmarked content)
  · intro few
    refine ⟨trim_reads_inside view nothing, _, trim_few view word unmarked few, ?_, rfl,
      Nat.le_add_right _ _, Nat.le_refl _⟩
    rw [stripped_unmarked view unmarked]
    rfl

theorem settles_of_marked (view : BufferRef) (word : view.size < 2 ^ 64) (marked : Marked view) :
    Settles view := by
  obtain ⟨left, right, ordered, inside, visible, result, content⟩ := trim_marked view word marked
  let once : BufferRef := ⟨view.bytes, view.start + left, 1 + right - left⟩
  have again : Trims once once.trim :=
    trims_of_marked once (by simp only [once]; omega) ⟨0, by simp only [once]; omega, visible⟩
  obtain ⟨twice, taken, same, _⟩ := again.result
  refine ⟨trims_of_marked view word marked, once, result, again, twice, taken, ?_⟩
  rw [same, BufferRef.content, content, stripped_stripped]

/-- Where `trim` is right: where there is something besides white space, or exactly one or
two white-space characters. Trimmed again, the latter go wrong. -/
theorem trim_correct_iff (view : BufferRef) (word : view.size < 2 ^ 64) :
    (Trims view view.trim ↔ Marked view ∨ view.size = 1 ∨ view.size = 2) ∧
      (Settles view ↔ Marked view) := by
  constructor
  · by_cases marked : Marked view
    · exact iff_of_true (trims_of_marked view word marked) (Or.inl marked)
    · rw [trims_unmarked_iff view word marked, or_iff_right marked]
  · refine ⟨?_, settles_of_marked view word⟩
    rintro ⟨trims, once, result, again, _⟩
    by_contra unmarked
    -- all that is left is empty, and that is what `trim` cannot do
    obtain ⟨window, taken, content, _⟩ := trims.result
    have same : once = window := Option.some.inj (result.symm.trans taken)
    rw [same] at again
    exact trim_empty window (size_of_stripped view window unmarked content) again

theorem trim_correct_word : Settles (text [32, 97, 32] 3) :=
  (trim_correct_iff (text [32, 97, 32] 3) (by decide)).2.mpr ⟨1, by decide, by decide⟩

/-- Three blanks are trimmed to nearly 2^64 bytes behind them, and in the empty view a byte
is read that is not there. -/
theorem blanks_trimmed_to_huge :
    (text [32, 32, 32] 3).trim.result.map (fun window => (window.start, window.size)) =
        some (3, 2 ^ 64 - 2) ∧
      (text [] 0).trim.reads = [2 ^ 64 - 1] := by
  decide

end Xio.Scans
