import Xio.Capacity
import Xio.ListenFds
import Xio.Numerals

/-!
`toInt` and `hex` of `include/xio/Buffer.h`. Both walk over the bytes of a view with an
accumulator. The one of `toInt` is an `int`: a computation that leaves its range has no
defined result and is `none`. The one of `hex` is unsigned and wraps.
-/

namespace Xio.BufferRef

open ListenFds

def checked (value : Int) : Option Int :=
  if -2 ^ 31 ≤ value ∧ value < 2 ^ 31 then some value else none

-- A byte above 127 is a negative `char` and so no digit either.
def toIntLoop : Int → List UInt8 → Option Int
  | val, [] => some val
  | val, i :: rest =>
      if i < 48 ∨ 57 < i then some val
      else
        (if val ≠ 0 then checked (val * 10) else some val).bind fun val =>
          (checked (val + (i.toNat - 48))).bind fun val => toIntLoop val rest

def toInt (view : BufferRef) : Option Int :=
  match view.content with
  | [] => some 0
  | i :: rest =>
      if i = 45 then
        if rest = [] then some 0 else (toIntLoop 0 rest).bind fun val => checked (-val)
      else if i = 43 then
        if rest = [] then some 0 else toIntLoop 0 rest
      else toIntLoop 0 (i :: rest)

def isLowerHex (byte : UInt8) : Bool := 97 ≤ byte && byte ≤ 102

def isUpperHex (byte : UInt8) : Bool := 65 ≤ byte && byte ≤ 70

def isXDigit (byte : UInt8) : Bool := isDigit byte || isLowerHex byte || isUpperHex byte

def hexLoop {w : Nat} : BitVec w → List UInt8 → BitVec w
  | val, [] => val
  | val, i :: rest =>
      if isXDigit i then
        let val := if val ≠ 0 then val * 16#w else val
        if isDigit i then hexLoop (val + BitVec.ofNat w (i.toNat - 48)) rest
        else if isLowerHex i then hexLoop (val + BitVec.ofNat w (10 + i.toNat - 97)) rest
        else hexLoop (val + BitVec.ofNat w (10 + i.toNat - 65)) rest
      else val

/-- `hex<U>()` for an unsigned `U` of `w` bits. -/
def hex (view : BufferRef) (w : Nat) : BitVec w :=
  match view.content with
  | [] => 0#w
  | i :: rest => hexLoop 0#w (i :: rest)

end Xio.BufferRef

namespace Xio.Parsing

open Storage MachineWord Environment ListenFds Numerals BufferRef

/-! What the texts mean. -/

def digitValue (byte : UInt8) : Nat := byte.toNat - 48

def decimalValue : List UInt8 → Int
  | [] => 0
  | first :: rest =>
      if first = 45 then -(digitsValue rest : Int)
      else if first = 43 then digitsValue rest
      else digitsValue (first :: rest)

def Fits (value : Int) : Prop := -2 ^ 31 ≤ value ∧ value < 2 ^ 31

def hexDigitValue (byte : UInt8) : Nat :=
  if isDigit byte then byte.toNat - 48
  else if isLowerHex byte then 10 + byte.toNat - 97
  else 10 + byte.toNat - 65

def hexValue (text : List UInt8) : Nat :=
  accumulate 16 ((text.takeWhile isXDigit).map hexDigitValue) 0

theorem digitsValue_eq (text : List UInt8) :
    digitsValue text = accumulate 10 ((text.takeWhile isDigit).map digitValue) 0 := by
  rw [digitsValue, accumulate, List.foldl_map]
  rfl

/-! Decimal numbers. -/

theorem digit_iff (byte : UInt8) : isDigit byte = true ↔ ¬ (byte < 48 ∨ 57 < byte) := by
  simp only [isDigit, Bool.and_eq_true, decide_eq_true_eq, not_or, UInt8.not_lt]

theorem digit_cast (byte : UInt8) (digit : isDigit byte = true) :
    ((byte.toNat : Int) - 48) = digitValue byte := by
  simp only [isDigit, Bool.and_eq_true, decide_eq_true_eq, UInt8.le_iff_toNat_le] at digit
  have low : 48 ≤ byte.toNat := digit.1
  simp only [digitValue]
  omega

-- The conditional multiplication and the addition together: the next number, if it is
-- an `int`.
theorem advance_eq (val digit : Nat) :
    (if (val : Int) ≠ 0 then checked (val * 10) else some (val : Int)).bind
        (fun val => checked (val + digit)) =
      if 10 * val + digit < 2 ^ 31 then some ((10 * val + digit : Nat) : Int) else none := by
  have scaled : (if (val : Int) ≠ 0 then checked (val * 10) else some (val : Int)) =
      checked ((10 * val : Nat) : Int) := by
    by_cases zero : val = 0
    · subst zero
      rfl
    · rw [if_pos (by omega), Int.mul_comm, Nat.cast_mul]
      rfl
  rw [scaled]
  by_cases product : 10 * val < 2 ^ 31
  · rw [checked, if_pos (by omega), Option.bind_some, checked]
    by_cases sum : 10 * val + digit < 2 ^ 31
    · rw [if_pos sum, if_pos (by omega), Nat.cast_add]
    · rw [if_neg sum, if_neg (by omega)]
  · rw [checked, if_neg (by omega), Option.bind_none, if_neg (by omega)]

theorem toIntLoop_eq (text : List UInt8) (val : Nat) (small : val < 2 ^ 31) :
    toIntLoop val text =
      if accumulate 10 ((text.takeWhile isDigit).map digitValue) val < 2 ^ 31 then
        some (accumulate 10 ((text.takeWhile isDigit).map digitValue) val : Int)
      else none := by
  induction text generalizing val with
  | nil => exact (if_pos small).symm
  | cons byte rest ih =>
      by_cases digit : isDigit byte = true
      · have step : toIntLoop val (byte :: rest) =
            if 10 * val + digitValue byte < 2 ^ 31 then
              toIntLoop ((10 * val + digitValue byte : Nat) : Int) rest
            else none := by
          rw [toIntLoop, if_neg ((digit_iff byte).mp digit), digit_cast byte digit,
            ← Option.bind_assoc, advance_eq]
          split <;> rfl
        rw [step, List.takeWhile_cons_of_pos digit, List.map_cons, accumulate_cons]
        by_cases next : 10 * val + digitValue byte < 2 ^ 31
        · rw [if_pos next, ih _ next]
        · -- a number that is too large stays too large
          have grows := le_accumulate 10 ((rest.takeWhile isDigit).map digitValue)
            (10 * val + digitValue byte) (by decide)
          rw [if_neg next, if_neg (by omega)]
      · rw [toIntLoop, if_pos (by rw [digit_iff] at digit; exact not_not.mp digit),
          List.takeWhile_cons_of_neg digit]
        exact (if_pos small).symm

theorem digits_toInt (text : List UInt8) :
    toIntLoop 0 text =
      if digitsValue text < 2 ^ 31 then some (digitsValue text : Int) else none := by
  rw [digitsValue_eq]
  exact toIntLoop_eq text 0 (by decide)

theorem toInt_iff (view : BufferRef) (fits : Fits (decimalValue view.content)) :
    view.toInt = some (decimalValue view.content) ↔ decimalValue view.content ≠ -2 ^ 31 := by
  obtain ⟨low, high⟩ := fits
  simp only [toInt]
  cases text : view.content with
  | nil => simp [decimalValue]
  | cons first rest =>
      rw [text] at low high
      simp only [decimalValue] at low high ⊢
      by_cases minus : first = 45
      · simp only [if_pos minus] at low high ⊢
        by_cases nothing : rest = []
        · subst nothing
          decide
        rw [if_neg nothing, digits_toInt]
        by_cases small : digitsValue rest < 2 ^ 31
        · rw [if_pos small, Option.bind_some, checked, if_pos (by omega)]
          simp only [true_iff]
          omega
        · rw [if_neg small, Option.bind_none]
          simp only [reduceCtorEq, false_iff, not_not]
          omega
      simp only [if_neg minus] at low high ⊢
      by_cases plus : first = 43
      · simp only [if_pos plus] at low high ⊢
        by_cases nothing : rest = []
        · subst nothing
          decide
        rw [if_neg nothing, digits_toInt, if_pos (by omega)]
        simp only [true_iff]
        omega
      · simp only [if_neg plus] at low high ⊢
        rw [digits_toInt, if_pos (by omega)]
        simp only [true_iff]
        omega

def spelled (value : Int) (suffix : List UInt8) (heap : Heap) : Buffer × Heap :=
  let named := (MutableBuffer.empty : Buffer).pushBackInt value heap
  named.1.pushBack suffix named.2

theorem digitsValue_decimal_append (value : Nat) (suffix : List UInt8)
    (ended : ∀ byte ∈ suffix.head?, isDigit byte = false) :
    digitsValue (MutableBuffer.decimal value ++ suffix) = value := by
  have stops : suffix.takeWhile isDigit = [] := by
    cases suffix with
    | nil => rfl
    | cons first rest => exact List.takeWhile_cons_of_neg (by rw [ended first rfl]; decide)
  have same : digitsValue (MutableBuffer.decimal value ++ suffix) =
      digitsValue (MutableBuffer.decimal value) := by
    rw [digitsValue, digitsValue, List.takeWhile_append_of_pos (decimal_digits value), stops,
      List.append_nil, List.takeWhile_eq_self_iff.mpr (decimal_digits value)]
  rw [same, digitsValue_decimal]

theorem decimalValue_printInt_append (value : Int) (suffix : List UInt8)
    (ended : ∀ byte ∈ suffix.head?, isDigit byte = false) :
    decimalValue (printInt value ++ suffix) = value := by
  have read := digitsValue_decimal_append value.natAbs suffix ended
  simp only [printInt]
  by_cases negative : value < 0
  · rw [if_pos negative, List.cons_append, decimalValue, if_pos rfl, read]
    omega
  · rw [if_neg negative]
    cases text : MutableBuffer.decimal value.natAbs with
    | nil => exact absurd text (MutableBuffer.decimal_ne_nil _)
    | cons first rest =>
        have digit : isDigit first = true :=
          decimal_digits value.natAbs first (text ▸ List.mem_cons_self)
        rw [text] at read
        rw [List.cons_append, decimalValue, if_neg (digit_ne first 45 digit rfl),
          if_neg (digit_ne first 43 digit rfl), ← List.cons_append, read]
        omega

theorem spelled_content (value : Int) (suffix : Object) (heap : Heap) (fits : Fits value)
    (granted : heap.GrantedSince (spelled value suffix.1 heap).2) :
    (spelled value suffix.1 heap).1.content = printInt value ++ suffix.1 := by
  have word : value.natAbs < 2 ^ 64 := by
    obtain ⟨low, high⟩ := fits
    omega
  have short : (printInt value).length < addressSpace :=
    BufferAppend.text_inMemory (.int ⟨value, word⟩)
  have named_valid :=
    (Buffer.pushBack_appends .empty (printInt value) heap Buffer.empty_valid short).valid
  obtain ⟨later, second, _⟩ := Capacity.pushBack_logged _ suffix.1
    ((MutableBuffer.empty : Buffer).pushBack (printInt value) heap).2 named_valid suffix.2
  obtain ⟨earlier, first, _⟩ := Capacity.pushBack_logged .empty (printInt value) heap
    Buffer.empty_valid short
  have named := Capacity.pushBack_granted .empty (printInt value) heap Buffer.empty_valid short
    (Heap.grantedSince_earlier second granted)
  have appended := Capacity.pushBack_granted _ suffix.1 _ named_valid suffix.2
    (fun made calls => by
      rw [second] at calls
      rw [← List.append_cancel_right calls]
      exact Heap.grantedSince_later first second granted)
  exact appended.trans (congrArg (· ++ suffix.1) named)

/-- `toInt` is right about every text whose value is an `int`, but for the least one; and
so a number that was printed is read back, but for the least one. -/
theorem decimal_parsing_iff (view : BufferRef) (value : Int) (suffix : Object) (heap : Heap) :
    ((Fits (decimalValue view.content) → view.toInt = some (decimalValue view.content)) ↔
        decimalValue view.content ≠ -2 ^ 31) ∧
      (Fits value → (∀ byte ∈ suffix.1.head?, isDigit byte = false) →
        heap.GrantedSince (spelled value suffix.1 heap).2 →
        (((spelled value suffix.1 heap).1.ref 0).toInt = some value ↔ value ≠ -2 ^ 31)) := by
  constructor
  · by_cases fits : Fits (decimalValue view.content)
    · rw [← toInt_iff view fits]
      exact ⟨fun parses => parses fits, fun parsed _ => parsed⟩
    · refine ⟨fun _ least => fits ?_, fun _ fits' => absurd fits' fits⟩
      rw [least]
      exact ⟨Int.le_refl _, by decide⟩
  · intro fits ended granted
    have text : ((spelled value suffix.1 heap).1.ref 0).content = printInt value ++ suffix.1 := by
      rw [MutableBuffer.ref_content, spelled_content value suffix heap fits granted]
    have read := toInt_iff ((spelled value suffix.1 heap).1.ref 0)
    rw [text, decimalValue_printInt_append value suffix.1 ended] at read
    exact read fits

theorem decimal_parsing_iff_minus :
    ((spelled (-12) [32] .generous).1.ref 0).toInt = some (-12) := by
  have granted : (spelled (-12) [32] .generous).2.Unrefused := by decide
  exact ((decimal_parsing_iff ⟨fun _ => 0, 0, 0⟩ (-12) ⟨[32], by decide⟩ .generous).2
    ⟨by decide, by decide⟩ (by rintro byte ⟨⟩; rfl)
    (Heap.grantedSince_of_unrefused _ _ granted)).mpr (by decide)

def view (text : List UInt8) : BufferRef := ⟨store (fun _ => 0) 0 text, 0, text.length⟩

/-- `-2147483648` is an `int`, but the digits are accumulated before they are negated. -/
theorem least_int_overflows :
    decimalValue (view [45, 50, 49, 52, 55, 52, 56, 51, 54, 52, 56]).content = -2 ^ 31 ∧
      (view [45, 50, 49, 52, 55, 52, 56, 51, 54, 52, 56]).toInt = none ∧
      (view [45, 50, 49, 52, 55, 52, 56, 51, 54, 52, 55]).toInt = some (-2 ^ 31 + 1) := by
  decide

/-! Hexadecimal numbers. -/

theorem hexLoop_digit {w : Nat} (val : Nat) (byte : UInt8) (rest : List UInt8)
    (digit : isXDigit byte = true) :
    hexLoop (BitVec.ofNat w val) (byte :: rest) =
      hexLoop (BitVec.ofNat w (16 * val + hexDigitValue byte)) rest := by
  have scaled : (if BitVec.ofNat w val ≠ 0 then BitVec.ofNat w val * 16#w else BitVec.ofNat w val) =
      BitVec.ofNat w (16 * val) := by
    rw [Nat.mul_comm, BitVec.ofNat_mul]
    by_cases zero : BitVec.ofNat w val = 0
    · rw [if_neg (not_not.mpr zero), zero]
      exact BitVec.zero_mul.symm
    · rw [if_pos zero]
  rw [hexLoop, if_pos digit, hexDigitValue, BitVec.ofNat_add]
  simp only [scaled]
  split
  · rfl
  split <;> rfl

theorem hexLoop_eq {w : Nat} (text : List UInt8) (val : Nat) :
    hexLoop (BitVec.ofNat w val) text =
      BitVec.ofNat w (accumulate 16 ((text.takeWhile isXDigit).map hexDigitValue) val) := by
  induction text generalizing val with
  | nil => rfl
  | cons byte rest ih =>
      by_cases digit : isXDigit byte = true
      · rw [hexLoop_digit val byte rest digit, ih, List.takeWhile_cons_of_pos digit, List.map_cons,
          accumulate_cons]
      · rw [hexLoop, if_neg digit, List.takeWhile_cons_of_neg digit]
        rfl

theorem hex_eq (view : BufferRef) (w : Nat) :
    view.hex w = BitVec.ofNat w (hexValue view.content) := by
  rw [hexValue, ← hexLoop_eq]
  simp only [hex]
  cases view.content <;> rfl

theorem hexDigitValue_lt (byte : UInt8) (digit : isXDigit byte = true) :
    hexDigitValue byte < 16 := by
  simp only [isXDigit, isDigit, isLowerHex, isUpperHex, Bool.or_eq_true, Bool.and_eq_true,
    decide_eq_true_eq, UInt8.le_iff_toNat_le, UInt8.reduceToNat] at digit
  simp only [hexDigitValue, isDigit, isLowerHex, Bool.and_eq_true, decide_eq_true_eq,
    UInt8.le_iff_toNat_le, UInt8.reduceToNat]
  split
  · omega
  split <;> omega

def significant (text : List UInt8) : List UInt8 := (text.takeWhile isXDigit).dropWhile (· = 48)

theorem hexValue_lt (text : List UInt8) : hexValue text < 16 ^ (significant text).length := by
  have zeros : ∀ byte : UInt8, decide (byte = 48) = true → hexDigitValue byte = 0 := by
    intro byte zero
    rw [of_decide_eq_true zero]
    rfl
  have bounded : ∀ digit ∈ (significant text).map hexDigitValue, digit < 16 := by
    intro digit member
    obtain ⟨byte, inside, rfl⟩ := List.mem_map.mp member
    exact hexDigitValue_lt byte (List.mem_takeWhile_imp (List.dropWhile_subset _ inside))
  have below := accumulate_lt 16 ((significant text).map hexDigitValue) 0 bounded
  rw [Nat.zero_add, Nat.one_mul, List.length_map] at below
  rw [hexValue, ← accumulate_zeros 16 hexDigitValue _ zeros]
  exact below

/-- `hex` is the value of the leading hexadecimal digits modulo 2^w: the value itself if
not more than `w / 4` of them count, and whatever follows them is ignored. -/
theorem hex_reads_digits (view : BufferRef) (w : Nat) :
    (view.hex w).toNat = hexValue view.content % 2 ^ w ∧
      ((significant view.content).length ≤ w / 4 → (view.hex w).toNat = hexValue view.content) ∧
      ∀ other : BufferRef,
        other.content.takeWhile isXDigit = view.content.takeWhile isXDigit →
          other.hex w = view.hex w := by
  have modular : (view.hex w).toNat = hexValue view.content % 2 ^ w := by
    rw [hex_eq, BitVec.toNat_ofNat]
  refine ⟨modular, ?_, ?_⟩
  · intro few
    rw [modular]
    apply Nat.mod_eq_of_lt
    calc hexValue view.content
        < 16 ^ (significant view.content).length := hexValue_lt view.content
      _ ≤ 16 ^ (w / 4) := Nat.pow_le_pow_right (by decide) few
      _ = 2 ^ (4 * (w / 4)) := (Nat.pow_mul 2 4 (w / 4)).symm
      _ ≤ 2 ^ w := Nat.pow_le_pow_right (by decide) (Nat.mul_div_le w 4)
  · intro other same
    rw [hex_eq, hex_eq, hexValue, hexValue, same]

-- `0fFz` and a type of eight bits; `100` is too long for it.
example : ((view [48, 102, 70, 122]).hex 8).toNat = 255 ∧
    ((view [49, 48, 48]).hex 8).toNat = 0 := by
  decide

end Xio.Parsing
