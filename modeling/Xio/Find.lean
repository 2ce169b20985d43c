import Xio.Occurrences
import Xio.Slices

/-!
`find` and `split` of `include/xio/Buffer.h` on a view, which is a window into a memory
that goes on behind it. The inner comparison of `find` is bounded by the length of the
value and not by the end of the view. A pointer that leaves the value it runs through is
`none`, as is a failed assertion of `ref`.
-/

namespace Xio.BufferRef

open Storage MachineWord Occurrences

/-- `while (*p == *q && p != qe)`, with `q` at the rest of the value and its terminator. -/
def compareFrom (memory : Memory UInt8) (qe : Int) : Nat → List UInt8 → Option Nat
  | _, [] => none
  | p, q :: rest =>
      if memory p = q ∧ (p : Int) ≠ qe then compareFrom memory qe (p + 1) rest else some p

-- The body of the outer loop: does the value, taken to be `length` long, stand at `i`?
def attempt (view : BufferRef) (value : List UInt8) (length : Int) (i : Nat) : Option Bool :=
  let here := view.start + i
  if view.bytes here = value.headD 0 then
    (compareFrom view.bytes (here + length) (here + 1) (value.tail ++ [0])).map
      fun p : Nat => decide ((p : Int) = here + length)
  else some false

def findWithin (view : BufferRef) (value : List UInt8) (length : Int) (offset : Nat) : Option Nat :=
  (search (view.attempt value length) (sub view.size offset) offset).map (·.getD npos)

-- `find(const char*, offset)` keeps the result of `strlen` in an `int`.
def findChars (view : BufferRef) (value : List UInt8) (offset : Nat) : Option Nat :=
  view.findWithin value (int value.length) offset

-- `find(PodType (&)[N], offset)` of a literal.
def findLiteral (view : BufferRef) (value : List UInt8) (offset : Nat) : Option Nat :=
  view.findWithin value value.length offset

-- `find(char, offset)` is `memchr`.
def findChar (view : BufferRef) (value : UInt8) (offset : Nat) : Option Nat :=
  (search (fun i => some (decide (view.bytes (view.start + i) = value))) (sub view.size offset)
    offset).map (·.getD npos)

-- `ref(offset)`
def refFrom (view : BufferRef) (offset : Nat) : Option BufferRef :=
  if offset ≤ view.size then some ⟨view.bytes, view.start + offset, sub view.size offset⟩ else none

-- `ref(offset, count)`
def refCount (view : BufferRef) (offset count : Nat) : Option BufferRef :=
  if offset ≤ view.size ∧ (count = npos ∨ add offset count ≤ view.size) then
    some (if count ≠ npos then ⟨view.bytes, view.start + offset, count⟩
      else ⟨view.bytes, view.start + offset, sub view.size offset⟩)
  else none

theorem refCount_npos (view : BufferRef) (offset : Nat) (within : offset ≤ view.size) :
    view.refCount offset npos = some ⟨view.bytes, view.start + offset, view.size - offset⟩ := by
  have asserted : offset ≤ view.size ∧ (npos = npos ∨ add offset npos ≤ view.size) :=
    ⟨within, Or.inl rfl⟩
  rw [refCount, if_pos asserted, if_neg (not_not.mpr rfl), sub_exact within]

theorem refCount_inside (view : BufferRef) (offset count : Nat) (word : view.size < 2 ^ 64)
    (within : offset + count ≤ view.size) :
    view.refCount offset count = some ⟨view.bytes, view.start + offset, count⟩ := by
  by_cases rest : count = npos
  · -- only the whole of the largest view has that many bytes
    have whole : view.size - offset = npos := by
      simp only [npos] at rest ⊢
      omega
    rw [rest, refCount_npos view offset (by omega), whole]
  · have sum : add offset count = offset + count := add_exact (by omega)
    have asserted : offset ≤ view.size ∧ (count = npos ∨ add offset count ≤ view.size) :=
      ⟨by omega, Or.inr (by omega)⟩
    rw [refCount, if_pos asserted, if_pos rest]

def null : BufferRef := ⟨fun _ => 0, 0, 0⟩

-- What both `split`s do with the position they found.
def splitAt (view : BufferRef) (found length : Nat) : Option (BufferRef × BufferRef) :=
  if found = npos then (view.refFrom 0).map (·, null)
  else
    (view.refCount 0 found).bind fun first =>
      (view.refCount (add found length) npos).map (first, ·)

def splitChar (view : BufferRef) (delimiter : UInt8) : Option (BufferRef × BufferRef) :=
  (view.findChar delimiter 0).bind fun found => view.splitAt found 1

def splitChars (view : BufferRef) (delimiter : List UInt8) : Option (BufferRef × BufferRef) :=
  (view.findChars delimiter 0).bind fun found => view.splitAt found delimiter.length

end Xio.BufferRef

namespace Xio.Find

open Storage MachineWord Occurrences BufferRef

/-- The answer `find` should give, from the bytes of the window alone. -/
def Finds (view : BufferRef) (value : List UInt8) (offset : Nat) (result : Option Nat) : Prop :=
  ∃ found, IsFirst view.content value offset found ∧ result = some (found.getD npos)

/-! The comparison. -/

-- With `qe` ahead of `p` the comparison stops there, or at a difference before it.
theorem compareFrom_bounded (memory : Memory UInt8) (rest : List UInt8) (p more : Nat)
    (ahead : more < rest.length) :
    (compareFrom memory (p + more : Nat) p rest).map
        (fun q : Nat => decide ((q : Int) = (p + more : Nat))) =
      some (decide (load memory p more = rest.take more)) := by
  induction rest generalizing p more with
  | nil => exact absurd ahead (Nat.not_lt_zero _)
  | cons q rest ih =>
      simp only [compareFrom]
      cases more with
      | zero => simp
      | succ more =>
          have before : (p : Int) ≠ (p + (more + 1) : Nat) := by omega
          by_cases same : memory p = q
          · have tail := ih (p + 1) more (Nat.lt_of_succ_lt_succ ahead)
            rw [Nat.add_right_comm, Nat.add_assoc] at tail
            rw [if_pos ⟨same, before⟩, tail, load_succ, same]
            simp
          · rw [if_neg fun both => same both.1, load_succ]
            simp only [Option.map_some, decide_eq_false before, List.take_succ_cons,
              List.cons.injEq, same, false_and, decide_false]

-- With `qe` behind `p` only a difference stops it, and that is no match.
theorem compareFrom_unbounded (memory : Memory UInt8) (rest : List UInt8) (p : Nat) (qe : Int)
    (behind : qe < p) :
    (compareFrom memory qe p rest).map (fun q : Nat => decide ((q : Int) = qe)) =
      if load memory p rest.length = rest then none else some false := by
  induction rest generalizing p with
  | nil => rfl
  | cons q rest ih =>
      have passed : (p : Int) ≠ qe := by omega
      simp only [compareFrom]
      by_cases same : memory p = q
      · rw [if_pos ⟨same, passed⟩, ih (p + 1) (by omega), List.length_cons, load_succ, same]
        simp
      · rw [if_neg fun both => same both.1, List.length_cons, load_succ]
        simp [same, passed]

theorem attempt_bounded (view : BufferRef) (value : List UInt8) (length i : Nat)
    (positive : 0 < length) (limit : length ≤ value.length) :
    view.attempt value length i =
      some (decide (load view.bytes (view.start + i) length = value.take length)) := by
  obtain ⟨more, rfl⟩ : ∃ more, length = more + 1 := ⟨length - 1, by omega⟩
  cases value with
  | nil => exact absurd limit (by simp)
  | cons first rest =>
      have ahead : more < (rest ++ [0]).length := by
        simp only [List.length_cons] at limit
        simp only [List.length_append, List.length_singleton]
        omega
      have inside : (rest ++ [0]).take more = rest.take more :=
        List.take_append_of_le_length (by simp only [List.length_cons] at limit; omega)
      have stop : ((view.start + i : Nat) + (more + 1 : Nat) : Int) =
          (view.start + i + 1 + more : Nat) := by
        omega
      simp only [attempt, List.headD_cons, List.tail_cons, stop, load_succ, List.take_succ_cons,
        compareFrom_bounded view.bytes (rest ++ [0]) (view.start + i + 1) more ahead, inside]
      by_cases same : view.bytes (view.start + i) = first
      · simp [same]
      · simp [same]

theorem attempt_unbounded (view : BufferRef) (value : List UInt8) (length : Int) (i : Nat)
    (nonempty : value ≠ []) (negative : ¬ 0 < length) :
    view.attempt value length i =
      if load view.bytes (view.start + i) (value.length + 1) = value ++ [0] then none
      else some false := by
  cases value with
  | nil => exact absurd rfl nonempty
  | cons first rest =>
      have behind : ((view.start + i : Nat) : Int) + length < (view.start + i + 1 : Nat) := by omega
      have shape : (rest ++ [0]).length = rest.length + 1 := by simp
      have ran := compareFrom_unbounded view.bytes (rest ++ [0]) (view.start + i + 1) _ behind
      rw [shape] at ran
      simp only [attempt, List.headD_cons, List.tail_cons, ran, List.length_cons, List.cons_append,
        load_succ view.bytes (view.start + i), List.cons.injEq]
      by_cases same : view.bytes (view.start + i) = first
      · simp only [same, true_and, ↓reduceIte]
      · simp only [same, false_and, ↓reduceIte]

/-! The window. -/

theorem occurs_iff_load (view : BufferRef) (value : List UInt8) (i : Nat) (nonempty : value ≠ []) :
    Occurs view.content value i ↔
      i + value.length ≤ view.size ∧ load view.bytes (view.start + i) value.length = value := by
  have length : view.content.length = view.size := load_length _ _ _
  constructor
  · intro occurs
    have within := occurs.end_le nonempty
    rw [length] at within
    have taken := List.prefix_iff_eq_take.mp occurs
    rw [BufferRef.content, load_drop, load_take, Nat.min_eq_left (by omega)] at taken
    exact ⟨within, taken.symm⟩
  · rintro ⟨within, stands⟩
    apply List.prefix_iff_eq_take.mpr
    rw [BufferRef.content, load_drop, load_take, Nat.min_eq_left (by omega)]
    exact stands.symm

-- A position inside a view is never `npos`, so the answer tells what was found.
theorem answer_injective {left right : Option Nat} (left_small : ∀ i, left = some i → i < npos)
    (right_small : ∀ i, right = some i → i < npos) (same : left.getD npos = right.getD npos) :
    left = right := by
  cases left with
  | none =>
      cases right with
      | none => rfl
      | some i => exact absurd same (Nat.ne_of_gt (right_small i rfl))
  | some j =>
      cases right with
      | none => exact absurd same (Nat.ne_of_lt (left_small j rfl))
      | some i => exact congrArg some same

theorem finds_iff_search (view : BufferRef) (value : List UInt8) (offset : Nat)
    (test : Nat → Option Bool) (nonempty : value ≠ []) (within : offset ≤ view.size)
    (word : view.size < 2 ^ 64) :
    Finds view value offset ((search test (sub view.size offset) offset).map (·.getD npos)) ↔
      ∃ found, search test (view.size - offset) offset = some found ∧
        IsFirst view.content value offset found := by
  have small : ∀ i, i < view.size → i < npos := by
    simp only [npos]
    omega
  rw [sub_exact within]
  constructor
  · rintro ⟨found, first, answer⟩
    obtain ⟨searched, result, same⟩ := Option.map_eq_some_iff.mp answer
    have equal : searched = found := by
      apply answer_injective _ _ same
      · rintro i rfl
        have inside := search_inside result
        exact small i (by omega)
      · rintro i rfl
        have ends := ((occurs_iff_load view value i nonempty).mp first.1.2).1
        have positive := List.length_pos_iff.mpr nonempty
        exact small i (by omega)
    exact ⟨found, equal ▸ result, first⟩
  · rintro ⟨found, result, first⟩
    exact ⟨found, first, by rw [result, Option.map_some]⟩

/-- What lies behind the window does no harm. For a positive length: whatever the loop
takes for the value has an occurrence of it at or before it. Otherwise the loop sees no
match, so there must be none, nor may the memory hold the value with its terminator. -/
def Undisturbed (view : BufferRef) (value : List UInt8) (offset : Nat) (length : Int) : Prop :=
  if 0 < length then
    ∀ i, offset ≤ i → i < view.size →
      load view.bytes (view.start + i) length.toNat = value.take length.toNat →
      ∃ j, offset ≤ j ∧ j ≤ i ∧ Occurs view.content value j
  else
    ∀ i, offset ≤ i → i < view.size →
      ¬ Occurs view.content value i ∧
        load view.bytes (view.start + i) (value.length + 1) ≠ value ++ [0]

theorem findWithin_iff (view : BufferRef) (value : List UInt8) (offset : Nat) (length : Int)
    (nonempty : value ≠ []) (within : offset ≤ view.size) (word : view.size < 2 ^ 64)
    (limit : length ≤ value.length) :
    Finds view value offset (view.findWithin value length offset) ↔
      Undisturbed view value offset length := by
  have range : offset + (view.size - offset) = view.size := by omega
  have positive := List.length_pos_iff.mpr nonempty
  rw [findWithin, finds_iff_search view value offset _ nonempty within word]
  by_cases bounded : 0 < length
  · obtain ⟨count, rfl⟩ : ∃ count : Nat, length = count := ⟨length.toNat, by omega⟩
    have test : view.attempt value count = fun i =>
        some (decide (load view.bytes (view.start + i) count = value.take count)) :=
      funext fun i => attempt_bounded view value count i (by omega) (by omega)
    rw [test, search_isFirst_iff view.content value _ offset (view.size - offset), range,
      Undisturbed, if_pos bounded, Int.toNat_natCast]
    intro i _ occurs
    obtain ⟨ends, stands⟩ := (occurs_iff_load view value i nonempty).mp occurs
    have part := congrArg (List.take count) stands
    rw [load_take, Nat.min_eq_left (by omega)] at part
    exact ⟨by omega, part⟩
  · have test : view.attempt value length = fun i =>
        if load view.bytes (view.start + i) (value.length + 1) = value ++ [0] then none
        else some false :=
      funext fun i => attempt_unbounded view value length i nonempty bounded
    rw [test, search_blind_iff view.content value _ offset (view.size - offset), range,
      Undisturbed, if_neg bounded]
    intro i _ occurs
    have ends := ((occurs_iff_load view value i nonempty).mp occurs).1
    omega

/-- Both searches for a string answer from the window alone exactly if nothing behind it
disturbs them. The one for a pointer also takes the length modulo 2^32. -/
theorem find_respects_view_iff (view : BufferRef) (value : List UInt8) (offset : Nat)
    (nonempty : value ≠ []) (within : offset ≤ view.size) (word : view.size < 2 ^ 64) :
    (Finds view value offset (view.findChars value offset) ↔
        Undisturbed view value offset (int value.length)) ∧
      (Finds view value offset (view.findLiteral value offset) ↔
        Undisturbed view value offset value.length) :=
  ⟨findWithin_iff view value offset _ nonempty within word (int_le value.length),
    findWithin_iff view value offset _ nonempty within word (Int.le_refl _)⟩

def alphabet (size : Nat) : BufferRef := ⟨store (fun _ => 0) 0 [97, 98, 99], 0, size⟩

theorem find_respects_view_whole :
    Finds (alphabet 3) [98, 99] 0 ((alphabet 3).findChars [98, 99] 0) ∧
      Finds (alphabet 3) [98, 99] 0 ((alphabet 3).findLiteral [98, 99] 0) := by
  have undisturbed : Undisturbed (alphabet 3) [98, 99] 0 2 := by
    rw [Undisturbed, if_pos (by decide)]
    intro i _ inside stands
    refine ⟨1, Nat.zero_le 1, ?_, by unfold Occurs; decide⟩
    -- at 0 stands an `a`
    match i, inside, stands with
    | 0, _, stands => exact absurd stands (by decide)
    | _ + 1, _, _ => omega
  have both := find_respects_view_iff (alphabet 3) [98, 99] 0 (by decide) (by decide) (by decide)
  exact ⟨both.1.mpr undisturbed, both.2.mpr undisturbed⟩

/-- In `ab` they find it as well, where `abc` goes on behind the view and not where it does
not. -/
theorem straddling_match_found :
    let lone : BufferRef := ⟨store (fun _ => 0) 0 [97, 98], 0, 2⟩
    (alphabet 2).content = lone.content ∧
      (alphabet 2).findChars [98, 99] 0 = some 1 ∧ lone.findChars [98, 99] 0 = some npos ∧
      (alphabet 2).findLiteral [98, 99] 0 = some 1 ∧ lone.findLiteral [98, 99] 0 = some npos ∧
      ¬ Finds (alphabet 2) [98, 99] 0 (some 1) := by
  have absent : ¬ Occurs (alphabet 2).content [98, 99] 1 := by unfold Occurs; decide
  refine ⟨by decide, by decide, by decide, by decide, by decide, ?_⟩
  rintro ⟨found, first, answer⟩
  cases found with
  | none => exact absurd answer (by decide)
  | some i =>
      cases answer
      exact absent first.1.2

/-! Splitting. -/

-- `memchr` is bounded by the view, so a character is found where it is.
theorem findChar_finds (view : BufferRef) (value : UInt8) (word : view.size < 2 ^ 64) :
    Finds view [value] 0 (view.findChar value 0) := by
  have nonempty : [value] ≠ [] := List.cons_ne_nil _ _
  have stands : ∀ i, Occurs view.content [value] i ↔
      i < view.size ∧ view.bytes (view.start + i) = value := by
    intro i
    rw [occurs_iff_load view [value] i nonempty]
    simp [load]
  rw [findChar, finds_iff_search view [value] 0 _ nonempty (Nat.zero_le _) word,
    search_isFirst_iff view.content [value] _ 0 (view.size - 0)]
  · intro i _ inside hit
    exact ⟨i, Nat.zero_le i, Nat.le_refl i, (stands i).mpr ⟨by omega, hit⟩⟩
  · intro i _ occurs
    obtain ⟨inside, hit⟩ := (stands i).mp occurs
    exact ⟨by omega, hit⟩

-- A match that reached over the end would have the NUL behind it inside.
theorem findChars_finds (view : BufferRef) (value : List UInt8) (word : view.size < 2 ^ 64)
    (nonempty : value ≠ []) (free : 0 ∉ value) (short : value.length < 2 ^ 31)
    (ended : view.bytes (view.start + view.size) = 0) :
    Finds view value 0 (view.findChars value 0) := by
  have positive := List.length_pos_iff.mpr nonempty
  rw [findChars, findWithin_iff view value 0 _ nonempty (Nat.zero_le _) word (int_le _),
    int_exact short, Undisturbed, if_pos (by omega), Int.toNat_natCast, List.take_length]
  intro i _ inside stands
  refine ⟨i, Nat.zero_le i, Nat.le_refl i, (occurs_iff_load view value i nonempty).mpr ⟨?_, stands⟩⟩
  by_contra straddles
  apply free
  rw [← stands, load, List.mem_map]
  exact ⟨view.size - i, List.mem_range.mpr (by omega), by rw [← ended]; congr 1; omega⟩

def Splits (view : BufferRef) (delimiter : List UInt8) (parts : Option (BufferRef × BufferRef)) :
    Prop :=
  ∃ first rest, parts = some (first, rest) ∧
    (delimiter <:+: view.content →
      first.content ++ delimiter ++ rest.content = view.content ∧
        ∀ i < first.size, ¬ Occurs view.content delimiter i) ∧
    (¬ delimiter <:+: view.content → first.content = view.content ∧ rest.content = [])

theorem splitAt_inside (view : BufferRef) (i length : Nat) (positive : 0 < length)
    (within : i + length ≤ view.size) (word : view.size < 2 ^ 64) :
    view.splitAt i length = some (⟨view.bytes, view.start + 0, i⟩,
      ⟨view.bytes, view.start + (i + length), view.size - (i + length)⟩) := by
  have proper : i ≠ npos := by
    simp only [npos]
    omega
  have back : add i length = i + length := add_exact (by omega)
  rw [splitAt, if_neg proper, back, refCount_inside view 0 i word (by omega),
    refCount_npos view (i + length) within]
  rfl

theorem splitAt_npos (view : BufferRef) (length : Nat) :
    view.splitAt npos length = some (⟨view.bytes, view.start + 0, view.size⟩, null) := by
  simp [splitAt, refFrom, sub_exact (Nat.zero_le view.size)]

-- An answer that says there is none leaves the view whole.
theorem uncut_of_finds (view : BufferRef) (delimiter : List UInt8) (answer : Option Nat)
    (finds : Finds view delimiter 0 answer) (absent : ¬ delimiter <:+: view.content) :
    answer.bind (view.splitAt · delimiter.length) =
      some (⟨view.bytes, view.start + 0, view.size⟩, null) := by
  obtain ⟨found, first, rfl⟩ := finds
  cases found with
  | none => exact splitAt_npos view delimiter.length
  | some i => exact absurd ((infix_iff_occurs _ _).mpr ⟨i, first.1.2⟩) absent

section Cutting

variable (view : BufferRef) (delimiter : List UInt8) (nonempty : delimiter ≠ [])
  (word : view.size < 2 ^ 64) (answer : Option Nat) (finds : Finds view delimiter 0 answer)

include nonempty word finds

theorem cut_of_finds (present : delimiter <:+: view.content) :
    ∃ first rest, answer.bind (view.splitAt · delimiter.length) = some (first, rest) ∧
      first.content ++ delimiter ++ rest.content = view.content ∧
      (∀ i < first.size, ¬ Occurs view.content delimiter i) ∧
      rest.bytes = view.bytes ∧ rest.size ≤ view.size ∧
      rest.start + rest.size = view.start + view.size := by
  obtain ⟨found, first, rfl⟩ := finds
  cases found with
  | none =>
      obtain ⟨i, occurs⟩ := (infix_iff_occurs _ _).mp present
      exact absurd occurs (first i (Nat.zero_le i))
  | some i =>
      have occurs := first.1.2
      have within : i + delimiter.length ≤ view.size :=
        ((occurs_iff_load view delimiter i nonempty).mp occurs).1
      refine ⟨_, _, splitAt_inside view i _ (List.length_pos_iff.mpr nonempty) within word, ?_, ?_,
        rfl, Nat.sub_le _ _, ?_⟩
      · have front : load view.bytes (view.start + 0) i = view.content.take i := by
          rw [BufferRef.content, load_take, Nat.min_eq_left (by omega), Nat.add_zero]
        have back : load view.bytes (view.start + (i + delimiter.length))
            (view.size - (i + delimiter.length)) = view.content.drop (i + delimiter.length) := by
          rw [BufferRef.content, load_drop]
        rw [BufferRef.content, BufferRef.content, front, back]
        exact occurs.splits
      · intro k before occurs_before
        have least := first.2 ⟨Nat.zero_le k, occurs_before⟩
        simp only at before
        omega
      · simp only
        omega

theorem splits_of_finds :
    Splits view delimiter (answer.bind (view.splitAt · delimiter.length)) := by
  by_cases present : delimiter <:+: view.content
  · obtain ⟨first, rest, done, whole, earliest, _⟩ :=
      cut_of_finds view delimiter nonempty word answer finds present
    exact ⟨first, rest, done, fun _ => ⟨whole, earliest⟩, fun absent => absurd present absent⟩
  · exact ⟨_, _, uncut_of_finds view delimiter answer finds present,
      fun found => absurd found present, fun _ => ⟨rfl, rfl⟩⟩

end Cutting

/-- Splitting the second part again and again ends, and the pieces joined are the view. -/
def Rejoins (view : BufferRef) (delimiter : List UInt8)
    (split : BufferRef → Option (BufferRef × BufferRef)) : Prop :=
  ∀ rounds, view.size < rounds →
    ∃ parts, pieces split (fun rest => decide (delimiter <:+: rest.content)) rounds view =
      some parts ∧
      delimiter.intercalate (parts.map BufferRef.content) = view.content

-- `sound` is what the second part inherits and `find` needs for a right answer.
theorem rejoins_of_finds (delimiter : List UInt8) (find : BufferRef → Option Nat)
    (sound : BufferRef → Prop) (nonempty : delimiter ≠ [])
    (inherits : ∀ view rest : BufferRef, sound view → rest.bytes = view.bytes →
      rest.start + rest.size = view.start + view.size → sound rest)
    (finds : ∀ view : BufferRef, view.size < 2 ^ 64 → sound view →
      Finds view delimiter 0 (find view))
    (view : BufferRef) (word : view.size < 2 ^ 64) (holds : sound view) :
    Rejoins view delimiter fun rest => (find rest).bind (rest.splitAt · delimiter.length) := by
  have splits : ∀ view : BufferRef, (view.size < 2 ^ 64 ∧ sound view) →
      decide (delimiter <:+: view.content) = true →
      ∃ first rest, (find view).bind (view.splitAt · delimiter.length) = some (first, rest) ∧
        (rest.size < 2 ^ 64 ∧ sound rest) ∧
        first.content ++ delimiter ++ rest.content = view.content := by
    rintro view ⟨word, holds⟩ again
    obtain ⟨first, rest, done, whole, _, memory, smaller, stop⟩ :=
      cut_of_finds view delimiter nonempty
        word (find view) (finds view word holds) (of_decide_eq_true again)
    exact ⟨first, rest, done,
      ⟨Nat.lt_of_le_of_lt smaller word, inherits view rest holds memory stop⟩, whole⟩
  intro rounds enough
  have length : view.content.length = view.size := load_length _ _ _
  obtain ⟨parts, split, _, joined⟩ :=
    pieces_join _ (fun rest => decide (delimiter <:+: rest.content)) BufferRef.content delimiter
      nonempty (fun rest => rest.size < 2 ^ 64 ∧ sound rest) splits rounds
    view ⟨word, holds⟩ (by omega)
  exact ⟨parts, split, joined⟩

/-- `split` is undone by joining, for a character in every view and for a string where a
NUL follows the view. -/
theorem split_joins (view : BufferRef) (word : view.size < 2 ^ 64) :
    (∀ delimiter : UInt8,
      Splits view [delimiter] (view.splitChar delimiter) ∧
        Rejoins view [delimiter] (·.splitChar delimiter)) ∧
      ∀ delimiter : List UInt8, delimiter ≠ [] → 0 ∉ delimiter → delimiter.length < 2 ^ 31 →
        view.bytes (view.start + view.size) = 0 →
        Splits view delimiter (view.splitChars delimiter) ∧
          Rejoins view delimiter (·.splitChars delimiter) := by
  constructor
  · intro delimiter
    have nonempty : [delimiter] ≠ [] := List.cons_ne_nil _ _
    exact ⟨splits_of_finds view [delimiter] nonempty word _ (findChar_finds view delimiter word),
      rejoins_of_finds [delimiter] (·.findChar delimiter 0) (fun _ => True) nonempty
        (fun _ _ _ _ _ => trivial) (fun view word _ => findChar_finds view delimiter word) view word
        trivial⟩
  · intro delimiter nonempty free short ended
    refine ⟨splits_of_finds view delimiter nonempty word _
      (findChars_finds view delimiter word nonempty free short ended), ?_⟩
    refine rejoins_of_finds delimiter (·.findChars delimiter 0)
      (fun view => view.bytes (view.start + view.size) = 0) nonempty ?_ ?_ view word ended
    · intro view rest ended memory stop
      rw [memory, stop]
      exact ended
    · intro view word ended
      exact findChars_finds view delimiter word nonempty free short ended

theorem split_joins_list :
    let list : BufferRef := ⟨store (fun _ => 0) 0 [97, 44, 32, 98, 44, 32, 99], 0, 7⟩
    Splits list [44, 32] (list.splitChars [44, 32]) ∧
      Rejoins list [44, 32] (·.splitChars [44, 32]) ∧
      (pieces (·.splitChars [44, 32]) (fun rest => decide ([44, 32] <:+: rest.content)) 8 list).map
        (·.map BufferRef.content) = some [[97], [98], [99]] := by
  intro list
  have both := (split_joins list (by decide)).2 [44, 32] (by decide) (by decide) (by decide)
    (by decide)
  exact ⟨both.1, both.2, by decide⟩

end Xio.Find
