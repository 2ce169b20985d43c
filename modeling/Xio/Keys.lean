import Xio.IPAddress
import Xio.Occurrences
import Xio.Slices

/-!
What makes a buffer of `include/xio/Buffer.h` a key: `equals` and `iequals`, and the hash.
The sizes are compared first and the bytes by a routine of the C library, which for `iequals`
ends at a common NUL. The hash takes the bytes as the `char` that the iterators yield.
-/

namespace Xio.Keys

open Storage

/-! Equality. -/

def lower (byte : UInt8) : UInt8 := if 65 ≤ byte ∧ byte ≤ 90 then byte + 32 else byte

-- The two operands of either routine are the bytes that the count allows it to read.
def memcmp : List UInt8 → List UInt8 → Int
  | first :: left, second :: right =>
      if first = second then memcmp left right else first.toNat - second.toNat
  | _, _ => 0

def strncasecmp : List UInt8 → List UInt8 → Int
  | first :: left, second :: right =>
      if lower first ≠ lower second then (lower first).toNat - (lower second).toNat
      else if first = 0 then 0
      else strncasecmp left right
  | _, _ => 0

def compared (routine : List UInt8 → List UInt8 → Int) (left right : List UInt8) : Bool :=
  if left.length ≠ right.length then false else routine left right = 0

/-- The overloads. Views are passed by reference, and `objects` is what their addresses
hold; a literal is given without its terminator. -/
inductive Operands where
  | views (a b : Nat)
  | literal (a : Nat) (b : List UInt8)
  | string (a : Nat) (b : List UInt8)
  | strings (a b : List UInt8)

section Overloads
variable (objects : Nat → BufferRef)

def Operands.left : Operands → List UInt8
  | .views a _ => (objects a).content
  | .literal a _ => (objects a).content
  | .string a _ => (objects a).content
  | .strings a _ => a

def Operands.right : Operands → List UInt8
  | .views _ b => (objects b).content
  | .literal _ b => b
  | .string _ b => b
  | .strings _ b => b

def equals : Operands → Bool
  | .views a b =>
      if a = b then true else compared memcmp (objects a).content (objects b).content
  | .literal a b => compared memcmp (objects a).content b
  | .string a b => compared memcmp (objects a).content b
  | .strings a b => compared memcmp a b

def iequals : Operands → Bool
  | .views a b =>
      if a = b then true else compared strncasecmp (objects a).content (objects b).content
  | .literal a b => compared strncasecmp (objects a).content b
  | .string a b => compared strncasecmp (objects a).content b
  | .strings a b => compared strncasecmp a b

end Overloads

def Letter (byte : UInt8) : Prop := (65 ≤ byte ∧ byte ≤ 90) ∨ (97 ≤ byte ∧ byte ≤ 122)

/-- Equality of the bytes up to ASCII case, wherever a NUL stands. -/
structure CaseBlind (left right : List UInt8) (verdict : Bool) : Prop where
  exact_iff : verdict = true ↔ left.length = right.length ∧ left.map lower = right.map lower
  letters : verdict = true → ∀ pair ∈ left.zip right, pair.1 ≠ pair.2 →
    Letter pair.1 ∧ Letter pair.2

def key (content : List UInt8) : Nat × List UInt8 :=
  (content.length, (IPAddress.cString content).map lower)

/-- Contents of one size that are the same text up to a NUL and not behind it. -/
def Masked (left right : List UInt8) : Prop :=
  key left = key right ∧ left.map lower ≠ right.map lower

theorem lower_toNat (byte : UInt8) : (lower byte).toNat =
    if 65 ≤ byte.toNat ∧ byte.toNat ≤ 90 then byte.toNat + 32 else byte.toNat := by
  simp only [lower, UInt8.le_iff_toNat_le, UInt8.reduceToNat]
  split
  · simp only [UInt8.toNat_add, UInt8.reduceToNat]
    omega
  · rfl

theorem lower_eq_zero (byte : UInt8) : lower byte = 0 ↔ byte = 0 := by
  have value := lower_toNat byte
  simp only [← UInt8.toNat_inj, UInt8.toNat_zero]
  split at value <;> omega

theorem letters_of_lower (first second : UInt8) (same : lower first = lower second)
    (differ : first ≠ second) : Letter first ∧ Letter second := by
  have value := lower_toNat first
  have value' := lower_toNat second
  rw [same] at value
  rw [ne_eq, ← UInt8.toNat_inj] at differ
  simp only [Letter, UInt8.le_iff_toNat_le, UInt8.reduceToNat]
  split at value <;> split at value' <;> omega

theorem compared_iff (routine : List UInt8 → List UInt8 → Int) (left right : List UInt8) :
    compared routine left right = true ↔ left.length = right.length ∧ routine left right = 0 := by
  by_cases sizes : left.length = right.length
  · simp [compared, sizes]
  · simp [compared, sizes]

theorem memcmp_iff (left right : List UInt8) (sizes : left.length = right.length) :
    memcmp left right = 0 ↔ left = right := by
  induction left generalizing right with
  | nil =>
      cases right with
      | nil => exact iff_of_true rfl rfl
      | cons second right => cases sizes
  | cons first left ih =>
      cases right with
      | nil => cases sizes
      | cons second right =>
          by_cases same : first = second
          · rw [memcmp, if_pos same, ih right (Nat.succ.inj sizes), List.cons.injEq]
            exact (and_iff_right same).symm
          · have apart : first.toNat ≠ second.toNat := fun equal => same (UInt8.toNat_inj.mp equal)
            rw [memcmp, if_neg same]
            exact iff_of_false (by omega) (fun equal => same (List.cons.inj equal).1)

-- Lower-casing neither makes nor hides a NUL.
theorem cString_lower (content : List UInt8) : (IPAddress.cString content).map lower =
    (content.map lower).takeWhile (· ≠ 0) := by
  rw [IPAddress.cString, List.takeWhile_map]
  congr 2
  funext byte
  simp [lower_eq_zero]

theorem takeWhile_cons_iff (first second : UInt8) (left right : List UInt8) :
    (first :: left).takeWhile (· ≠ 0) = (second :: right).takeWhile (· ≠ 0) ↔
      first = second ∧ (first = 0 ∨ left.takeWhile (· ≠ 0) = right.takeWhile (· ≠ 0)) := by
  by_cases nul : first = 0
  · by_cases nul' : second = 0
    · simp [nul, nul']
    · simp [nul, nul', Ne.symm nul']
  · by_cases nul' : second = 0
    · simp [nul, nul']
    · simp [nul, nul']

theorem strncasecmp_iff (left right : List UInt8) (sizes : left.length = right.length) :
    strncasecmp left right = 0 ↔
      (IPAddress.cString left).map lower = (IPAddress.cString right).map lower := by
  simp only [cString_lower]
  induction left generalizing right with
  | nil =>
      cases right with
      | nil => exact iff_of_true rfl rfl
      | cons second right => cases sizes
  | cons first left ih =>
      cases right with
      | nil => cases sizes
      | cons second right =>
          rw [List.map_cons, List.map_cons, takeWhile_cons_iff, lower_eq_zero]
          by_cases same : lower first = lower second
          · rw [strncasecmp, if_neg (not_not_intro same), and_iff_right same]
            by_cases nul : first = 0
            · rw [if_pos nul]
              exact iff_of_true rfl (Or.inl nul)
            · rw [if_neg nul, ih right (Nat.succ.inj sizes), or_iff_right nul]
          · have apart : (lower first).toNat ≠ (lower second).toNat :=
              fun equal => same (UInt8.toNat_inj.mp equal)
            rw [strncasecmp, if_pos same]
            exact iff_of_false (by omega) (fun both => same both.1)

theorem compared_key_iff (left right : List UInt8) :
    compared strncasecmp left right = true ↔ key left = key right := by
  rw [compared_iff, key, key, Prod.mk.injEq]
  exact and_congr_right (strncasecmp_iff left right)

theorem eq_of_equals (objects : Nat → BufferRef) (call : Operands)
    (same : equals objects call = true) :
    call.left objects = call.right objects := by
  have whole (left right : List UInt8) (verdict : compared memcmp left right = true) :
      left = right := by
    rw [compared_iff] at verdict
    exact (memcmp_iff left right verdict.1).mp verdict.2
  cases call with
  | views a b =>
      by_cases identical : a = b
      · exact congrArg (fun object => (objects object).content) identical
      · rw [equals, if_neg identical] at same
        exact whole _ _ same
  | literal a b => exact whole _ _ same
  | string a b => exact whole _ _ same
  | strings a b => exact whole _ _ same

theorem iequals_iff (objects : Nat → BufferRef) (call : Operands) :
    iequals objects call = true ↔ key (call.left objects) = key (call.right objects) := by
  cases call with
  | views a b =>
      by_cases identical : a = b
      · subst b
        rw [iequals, if_pos rfl]
        exact iff_of_true rfl rfl
      · rw [iequals, if_neg identical]
        exact compared_key_iff _ _
  | literal a b => exact compared_key_iff _ _
  | string a b => exact compared_key_iff _ _
  | strings a b => exact compared_key_iff _ _

theorem key_of_lower (left right : List UInt8) (same : left.map lower = right.map lower) :
    key left = key right := by
  have sizes : left.length = right.length := by
    simpa using congrArg List.length same
  rw [key, key, sizes, cString_lower left, cString_lower right, same]

theorem letters_of_map (left right : List UInt8) (same : left.map lower = right.map lower) :
    ∀ pair ∈ left.zip right, pair.1 ≠ pair.2 → Letter pair.1 ∧ Letter pair.2 := by
  induction left generalizing right with
  | nil =>
      intro pair member
      cases member
  | cons first left ih =>
      cases right with
      | nil => cases same
      | cons second right =>
          rw [List.map_cons, List.map_cons, List.cons.injEq] at same
          rw [List.zip_cons_cons, List.forall_mem_cons]
          exact ⟨letters_of_lower first second same.1, ih right same.2⟩

theorem caseBlind_iff (left right : List UInt8) (verdict : Bool)
    (decided : verdict = true ↔ key left = key right) :
    CaseBlind left right verdict ↔ ¬ Masked left right := by
  constructor
  · intro blind masked
    exact masked.2 (blind.exact_iff.mp (decided.mpr masked.1)).2
  · intro unmasked
    have same : verdict = true → left.map lower = right.map lower := by
      intro equal
      by_contra differ
      exact unmasked ⟨decided.mp equal, differ⟩
    refine ⟨⟨fun equal => ⟨?_, same equal⟩, fun blind => decided.mpr (key_of_lower _ _ blind.2)⟩,
      fun equal => letters_of_map left right (same equal)⟩
    exact congrArg Prod.fst (decided.mp equal)

/-- Each overload of `iequals` is equality up to ASCII case exactly on contents that are not
masked by a common NUL; it is implied by `equals` and an equivalence whatever the contents. -/
theorem iequals_case_blind_iff (objects : Nat → BufferRef) (call : Operands) :
    (CaseBlind (call.left objects) (call.right objects) (iequals objects call) ↔
      ¬ Masked (call.left objects) (call.right objects)) ∧
    (equals objects call = true → iequals objects call = true) ∧
    (Equivalence fun a b => iequals objects (.views a b) = true) ∧
    (Equivalence fun a b => iequals objects (.strings a b) = true) := by
  refine ⟨caseBlind_iff _ _ _ (iequals_iff objects call), ?_, ?_, ?_⟩
  · intro same
    rw [iequals_iff, eq_of_equals objects call same]
  · simp only [iequals_iff]
    exact eq_equivalence.comap fun a => key (objects a).content
  · simp only [iequals_iff]
    exact eq_equivalence.comap key

def numbered (object : Nat) : BufferRef :=
  ⟨store (fun _ => 0) 0 [0, UInt8.ofNat (48 + object)], 0, 2⟩

theorem nul_masks_difference :
    iequals numbered (.views 1 2) = true ∧ iequals numbered (.literal 1 [0, 50]) = true ∧
      (numbered 1).content.map lower ≠ (numbered 2).content.map lower := by
  decide

/-! The hash. -/

/-- A signed `char`, promoted to `int` and converted for the operation with a `uint32_t`. -/
def promoted (value : UInt8) : UInt32 := value.toInt8.toInt32.toUInt32

def hash (array : List UInt8) : UInt32 :=
  array.foldl (fun result value => (result ^^^ promoted value) * 16777619) 2166136261

def fnv1a (array : List UInt8) : UInt32 :=
  array.foldl (fun result value => (result ^^^ value.toUInt32) * 16777619) 2166136261

end Xio.Keys

namespace Xio

-- The three specialisations of `std::hash`.
def BufferRef.hash (view : BufferRef) : UInt32 := Keys.hash view.content

def Buffer.hash (buffer : Buffer) : UInt32 := Keys.hash buffer.content

def BufferSlice.hash (window : BufferSlice) (buffer : Buffer) : UInt32 :=
  Keys.hash (window.view buffer).content

end Xio

namespace Xio.Keys

open Occurrences

/-- Before the last byte above ASCII, if there is one, the two hashes differ in just the bits
that its sign extends to. -/
def Remerges (array : List UInt8) : Prop :=
  ∀ before value after, array = before ++ value :: after → 128 ≤ value →
    (∀ byte ∈ after, byte < 128) → hash before ^^^ fnv1a before = 0xFFFFFF00

theorem promoted_ascii (value : UInt8) (ascii : value < 128) : promoted value = value.toUInt32 := by
  have every : ∀ bits : BitVec 8, UInt8.ofBitVec bits < 128 →
      promoted (UInt8.ofBitVec bits) = (UInt8.ofBitVec bits).toUInt32 := by
    decide +kernel
  exact every value.toBitVec ascii

theorem promoted_high (value : UInt8) (high : 128 ≤ value) :
    promoted value ^^^ value.toUInt32 = 0xFFFFFF00 := by
  have every : ∀ bits : BitVec 8, 128 ≤ UInt8.ofBitVec bits →
      promoted (UInt8.ofBitVec bits) ^^^ (UInt8.ofBitVec bits).toUInt32 = 0xFFFFFF00 := by
    decide +kernel
  exact every value.toBitVec high

theorem prime_cancels (left right : UInt32) :
    left * 16777619 = right * 16777619 ↔ left = right := by
  constructor
  · intro same
    have inverse (word : UInt32) : word * 16777619 * 899433627 = word := by
      rw [UInt32.mul_assoc]
      exact UInt32.mul_one word
    rw [← inverse left, same, inverse right]
  · exact congrArg (· * 16777619)

theorem hash_snoc (before : List UInt8) (value : UInt8) :
    hash (before ++ [value]) = fnv1a (before ++ [value]) ↔
      hash before ^^^ promoted value = fnv1a before ^^^ value.toUInt32 := by
  simp only [hash, fnv1a, List.foldl_append, List.foldl_cons, List.foldl_nil]
  exact prime_cancels _ _

theorem hash_snoc_high (before : List UInt8) (value : UInt8) (high : 128 ≤ value) :
    hash (before ++ [value]) = fnv1a (before ++ [value]) ↔
      hash before ^^^ fnv1a before = 0xFFFFFF00 := by
  rw [hash_snoc, ← promoted_high value high, ← UInt32.xor_eq_zero_iff,
    ← UInt32.xor_eq_zero_iff (a := hash before ^^^ fnv1a before)]
  rw [UInt32.xor_assoc, UInt32.xor_assoc, ← UInt32.xor_assoc (promoted value),
    UInt32.xor_comm (promoted value) (fnv1a before), UInt32.xor_assoc (fnv1a before)]

theorem hash_ascii (before after : List UInt8) (ascii : ∀ byte ∈ after, byte < 128) :
    hash (before ++ after) = fnv1a (before ++ after) ↔ hash before = fnv1a before := by
  induction after generalizing before with
  | nil => rw [List.append_nil]
  | cons value rest ih =>
      rw [List.forall_mem_cons] at ascii
      rw [List.append_cons, ih (before ++ [value]) ascii.2, hash_snoc, promoted_ascii value ascii.1]
      exact UInt32.xor_left_inj _

theorem hash_of_ascii (array : List UInt8) (ascii : ∀ byte ∈ array, byte < 128) :
    hash array = fnv1a array := by
  rw [← List.nil_append array, hash_ascii [] array ascii]
  simp only [hash, fnv1a, List.foldl_nil]

theorem hash_split (before after : List UInt8) (value : UInt8) (high : 128 ≤ value)
    (ascii : ∀ byte ∈ after, byte < 128) :
    hash (before ++ value :: after) = fnv1a (before ++ value :: after) ↔
      hash before ^^^ fnv1a before = 0xFFFFFF00 := by
  rw [List.append_cons, hash_ascii _ after ascii, hash_snoc_high before value high]

theorem hash_iff (array : List UInt8) : hash array = fnv1a array ↔ Remerges array := by
  constructor
  · rintro same before value after rfl high ascii
    exact (hash_split before after value high ascii).mp same
  · intro remerges
    rcases last_split (128 ≤ ·) array with ascii | ⟨before, value, after, rfl, high, ascii⟩
    · exact hash_of_ascii array fun byte member => UInt8.not_le.mp (ascii byte member)
    · have low : ∀ byte ∈ after, byte < 128 :=
        fun byte member => UInt8.not_le.mp (ascii byte member)
      exact (hash_split before after value high low).mpr (remerges before value after rfl high low)

theorem hash_one_high (before after : List UInt8) (value : UInt8) (high : 128 ≤ value)
    (ascii : ∀ byte ∈ before ++ after, byte < 128) :
    hash (before ++ value :: after) ≠ fnv1a (before ++ value :: after) := by
  rw [List.forall_mem_append] at ascii
  have agree := hash_of_ascii before ascii.1
  rw [ne_eq, hash_split before after value high ascii.2, agree, UInt32.xor_self]
  decide

/-- The hash of a view, a buffer and a slice is FNV-1a exactly if the sign extension of the
last byte above ASCII undoes what those before it have changed. -/
theorem hash_fnv1a_iff (view : BufferRef) (buffer : Buffer) (window : BufferSlice) :
    (view.hash = fnv1a view.content ↔ Remerges view.content) ∧
      (buffer.hash = fnv1a buffer.content ↔ Remerges buffer.content) ∧
      (window.hash buffer = fnv1a (window.view buffer).content ↔
        Remerges (window.view buffer).content) :=
  ⟨hash_iff _, hash_iff _, hash_iff _⟩

theorem high_byte_sign_extended :
    BufferRef.hash ⟨fun _ => 233, 0, 1⟩ ≠ fnv1a (BufferRef.content ⟨fun _ => 233, 0, 1⟩) := by
  decide

end Xio.Keys
