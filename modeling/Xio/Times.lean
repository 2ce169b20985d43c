import Mathlib.Data.Nat.ModEq
import Mathlib.Data.Rat.Floor
import Mathlib.Tactic.Linarith

/-!
`include/xio/DateTime.h` and `include/xio/TimeSpan.h`. A time stamp is a floating-point
number; here it is the exact rational number that it stands for. Instants are compared by
a difference of 64 bits that is returned as an `int`, and milliseconds are split by a
remainder that is taken of an `unsigned`.
-/

namespace Xio

/-- Conversion of a floating-point number to an integer type that can hold it. -/
def truncated (value : ℚ) : Int := if 0 ≤ value then ⌊value⌋ else ⌈value⌉

structure DateTime where
  value : ℚ

namespace DateTime

def unixtime (time : DateTime) : Int := truncated time.value

-- The difference is narrowed to 32 bits.
def compare (a b : DateTime) : Int := (a.unixtime - b.unixtime).bmod (2 ^ 32)

def eq (a b : DateTime) : Bool := compare a b = 0

def ne (a b : DateTime) : Bool := compare a b ≠ 0

def le (a b : DateTime) : Bool := compare a b ≤ 0

def ge (a b : DateTime) : Bool := 0 ≤ compare a b

def lt (a b : DateTime) : Bool := compare a b < 0

def gt (a b : DateTime) : Bool := 0 < compare a b

end DateTime

structure TimeSpan where
  value : ℚ

namespace TimeSpan

def ticksPerDay : Int := 86400

def ticksPerHour : Int := 3600

-- `(int) value_` is defined only where an `int` can hold the result.
def int (span : TimeSpan) : Option Int :=
  if -2 ^ 31 ≤ truncated span.value ∧ truncated span.value < 2 ^ 31 then
    some (truncated span.value) else none

def days (span : TimeSpan) : Option Int := do
  let value ← span.int
  return value.tdiv ticksPerDay

def hours (span : TimeSpan) : Option Int := do
  let value ← span.int
  return value.tdiv ticksPerHour - 24 * value.tdiv ticksPerDay

def minutes (span : TimeSpan) : Option Int := do
  let value ← span.int
  return value.tdiv 60 - 60 * value.tdiv 3600

def seconds (span : TimeSpan) : Option Int := do
  let value ← span.int
  return value.tmod 60

-- `unsigned(v)` keeps 32 bits.
def fromMilliseconds (v : Nat) : TimeSpan :=
  ⟨(v / 1000 : Nat) + (v % 2 ^ 32 % 1000 : Nat) / 1000⟩

end TimeSpan

namespace Times

/-! Instants. -/

structure Agrees (a b : DateTime) : Prop where
  negative : DateTime.compare a b < 0 ↔ a.unixtime < b.unixtime
  zero : DateTime.compare a b = 0 ↔ a.unixtime = b.unixtime
  positive : 0 < DateTime.compare a b ↔ b.unixtime < a.unixtime

structure Ordered (times : Set DateTime) : Prop where
  agrees : ∀ a ∈ times, ∀ b ∈ times, Agrees a b
  eq_iff : ∀ a ∈ times, ∀ b ∈ times, a.eq b = true ↔ a.unixtime = b.unixtime
  ne_iff : ∀ a ∈ times, ∀ b ∈ times, a.ne b = true ↔ a.unixtime ≠ b.unixtime
  le_iff : ∀ a ∈ times, ∀ b ∈ times, a.le b = true ↔ a.unixtime ≤ b.unixtime
  ge_iff : ∀ a ∈ times, ∀ b ∈ times, a.ge b = true ↔ b.unixtime ≤ a.unixtime
  lt_iff : ∀ a ∈ times, ∀ b ∈ times, a.lt b = true ↔ a.unixtime < b.unixtime
  gt_iff : ∀ a ∈ times, ∀ b ∈ times, a.gt b = true ↔ b.unixtime < a.unixtime
  total : ∀ a ∈ times, ∀ b ∈ times, a.le b = true ∨ b.le a = true
  antisymm : ∀ a ∈ times, ∀ b ∈ times, a.le b = true → b.le a = true → a.unixtime = b.unixtime
  trans : ∀ a ∈ times, ∀ b ∈ times, ∀ c ∈ times, a.le b = true → b.le c = true → a.le c = true

/-- A difference whose low 32 bits, as an `int`, have its own sign. -/
def Narrow (difference : Int) : Prop :=
  difference = 0 ∨ (0 < difference ∧ 0 < difference % 2 ^ 32 ∧ difference % 2 ^ 32 < 2 ^ 31) ∨
    (difference < 0 ∧ 2 ^ 31 ≤ difference % 2 ^ 32)

theorem compare_eq (a b : DateTime) :
    DateTime.compare a b = if (a.unixtime - b.unixtime) % 2 ^ 32 < 2 ^ 31 then
      (a.unixtime - b.unixtime) % 2 ^ 32 else (a.unixtime - b.unixtime) % 2 ^ 32 - 2 ^ 32 := rfl

theorem agrees_iff (a b : DateTime) : Agrees a b ↔ Narrow (a.unixtime - b.unixtime) := by
  have narrowed := compare_eq a b
  simp only [Narrow]
  constructor
  · rintro ⟨negative, zero, positive⟩
    split at narrowed <;> omega
  · intro narrow
    split at narrowed <;> constructor <;> omega

theorem ordered_of_agrees (times : Set DateTime)
    (agrees : ∀ a ∈ times, ∀ b ∈ times, Agrees a b) : Ordered times := by
  have le_iff : ∀ a ∈ times, ∀ b ∈ times, a.le b = true ↔ a.unixtime ≤ b.unixtime := by
    intro a inside b inside'
    rw [DateTime.le, decide_eq_true_iff, ← Int.not_lt, (agrees a inside b inside').positive,
      Int.not_lt]
  refine ⟨agrees, ?_, ?_, le_iff, ?_, ?_, ?_, ?_, ?_, ?_⟩
  · intro a inside b inside'
    rw [DateTime.eq, decide_eq_true_iff, (agrees a inside b inside').zero]
  · intro a inside b inside'
    rw [DateTime.ne, decide_eq_true_iff, ne_eq, (agrees a inside b inside').zero]
  · intro a inside b inside'
    rw [DateTime.ge, decide_eq_true_iff, ← Int.not_lt, (agrees a inside b inside').negative,
      Int.not_lt]
  · intro a inside b inside'
    rw [DateTime.lt, decide_eq_true_iff, (agrees a inside b inside').negative]
  · intro a inside b inside'
    rw [DateTime.gt, decide_eq_true_iff, (agrees a inside b inside').positive]
  · intro a inside b inside'
    rw [le_iff a inside b inside', le_iff b inside' a inside]
    exact Int.le_total _ _
  · intro a inside b inside' first second
    rw [le_iff a inside b inside'] at first
    rw [le_iff b inside' a inside] at second
    exact Int.le_antisymm first second
  · intro a inside b inside' c inside'' first second
    rw [le_iff a inside b inside'] at first
    rw [le_iff b inside' c inside''] at second
    rw [le_iff a inside c inside'']
    exact Int.le_trans first second

/-- Comparing two instants gives their order exactly if the difference survives the
narrowing, and a set of instants is ordered exactly if all its differences do. -/
theorem comparison_iff (a b : DateTime) (times : Set DateTime) :
    (Agrees a b ↔ Narrow (a.unixtime - b.unixtime)) ∧
      (Ordered times ↔ ∀ a ∈ times, ∀ b ∈ times, Narrow (a.unixtime - b.unixtime)) := by
  refine ⟨agrees_iff a b, ?_⟩
  constructor
  · intro ordered a inside b inside'
    exact (agrees_iff a b).mp (ordered.agrees a inside b inside')
  · intro narrow
    apply ordered_of_agrees
    intro a inside b inside'
    exact (agrees_iff a b).mpr (narrow a inside b inside')

/-- In 2106 it is 1970 again, in 2038 it is before 1970, and of three instants each is before
the next. -/
theorem distant_instants_misordered :
    DateTime.eq ⟨2 ^ 32⟩ ⟨0⟩ = true ∧ DateTime.lt ⟨2 ^ 31⟩ ⟨0⟩ = true ∧
      DateTime.lt ⟨0⟩ ⟨2 ^ 31 - 1⟩ = true ∧ DateTime.lt ⟨2 ^ 31 - 1⟩ ⟨2 ^ 32 - 2⟩ = true ∧
      DateTime.lt ⟨2 ^ 32 - 2⟩ ⟨0⟩ = true := by
  decide +kernel

/-! Spans. -/

structure Decomposes (span : TimeSpan) (whole : Nat) : Prop where
  parts : ∃ days hours minutes seconds : Int, span.days = some days ∧ span.hours = some hours ∧
    span.minutes = some minutes ∧ span.seconds = some seconds ∧
    86400 * days + 3600 * hours + 60 * minutes + seconds = whole ∧
    (0 ≤ hours ∧ hours < 24) ∧ (0 ≤ minutes ∧ minutes < 60) ∧ (0 ≤ seconds ∧ seconds < 60)

structure RoundTrip (v : Nat) : Prop where
  exact : (TimeSpan.fromMilliseconds v).value = (v : ℚ) / 1000
  decomposes : Decomposes (TimeSpan.fromMilliseconds v) (v / 1000)

theorem truncated_split (whole part : Nat) (small : part < 1000) :
    truncated ((whole : ℚ) + (part : ℚ) / 1000) = whole := by
  have fraction : (part : ℚ) / 1000 < 1 := by
    rw [div_lt_one (by norm_num)]
    exact_mod_cast small
  have positive : (0 : ℚ) ≤ (part : ℚ) / 1000 := by positivity
  have natural : (0 : ℚ) ≤ (whole : ℚ) := by positivity
  rw [truncated, if_pos (by linarith), Int.floor_eq_iff, Int.cast_natCast]
  constructor <;> linarith

theorem truncated_fromMilliseconds (v : Nat) :
    truncated (TimeSpan.fromMilliseconds v).value = (v / 1000 : Nat) :=
  truncated_split (v / 1000) (v % 2 ^ 32 % 1000) (Nat.mod_lt _ (by decide))

theorem decomposes_of_int (span : TimeSpan) (whole : Nat)
    (converted : span.int = some (whole : Int)) : Decomposes span whole := by
  -- On natural numbers the truncating quotients are those of `Nat`.
  refine ⟨(whole / 86400 : Nat), (whole / 3600 : Nat) - 24 * (whole / 86400 : Nat),
    (whole / 60 : Nat) - 60 * (whole / 3600 : Nat), (whole % 60 : Nat), ?_⟩
  simp only [TimeSpan.days, TimeSpan.hours, TimeSpan.minutes, TimeSpan.seconds, converted]
  refine ⟨rfl, rfl, rfl, rfl, ?_⟩
  omega

theorem decomposes_iff (v : Nat) :
    Decomposes (TimeSpan.fromMilliseconds v) (v / 1000) ↔ v / 1000 < 2 ^ 31 := by
  have truncation := truncated_fromMilliseconds v
  constructor
  · rintro ⟨days, _, _, _, defined, _⟩
    by_contra large
    rw [TimeSpan.days, TimeSpan.int, if_neg (by omega)] at defined
    exact absurd defined (by simp)
  · intro small
    apply decomposes_of_int
    rw [TimeSpan.int, if_pos (by omega), truncation]

-- 2 ^ 32 leaves 296 = 8 * 37.
theorem low_digits_iff (v : Nat) : v % 2 ^ 32 % 1000 = v % 1000 ↔ v / 2 ^ 32 % 125 = 0 := by
  have whole : 2 ^ 32 * (v / 2 ^ 32) + v % 2 ^ 32 = v := Nat.div_add_mod v (2 ^ 32)
  have remainder : v % 1000 = (296 * (v / 2 ^ 32) + v % 2 ^ 32) % 1000 := by
    nth_rewrite 1 [← whole]
    exact Nat.ModEq.add_right _ (Nat.ModEq.mul_right _ (by decide))
  rw [remainder]
  generalize v / 2 ^ 32 = high
  generalize v % 2 ^ 32 = low
  constructor <;> intro same <;> omega

theorem exact_iff (v : Nat) :
    (TimeSpan.fromMilliseconds v).value = (v : ℚ) / 1000 ↔ v / 2 ^ 32 % 125 = 0 := by
  have value : (TimeSpan.fromMilliseconds v).value =
      (v / 1000 : Nat) + (v % 2 ^ 32 % 1000 : Nat) / 1000 := rfl
  have split : (v : ℚ) / 1000 = (v / 1000 : Nat) + (v % 1000 : Nat) / 1000 := by
    have whole : (v : ℚ) = 1000 * (v / 1000 : Nat) + (v % 1000 : Nat) := by
      exact_mod_cast (Nat.div_add_mod v 1000).symm
    rw [whole, add_div, mul_div_cancel_left₀ _ (by norm_num)]
  rw [value, split, add_right_inj, div_left_inj' (by norm_num), Nat.cast_inj, low_digits_iff]

/-- A count of milliseconds is split right as far as an `int` can hold the seconds, and
denotes the same span only if the bits above the 32nd do not reach the last three digits. -/
theorem milliseconds_iff (v : Nat) :
    (Decomposes (TimeSpan.fromMilliseconds v) (v / 1000) ↔ v / 1000 < 2 ^ 31) ∧
      (RoundTrip v ↔ v / 1000 < 2 ^ 31 ∧ v / 2 ^ 32 % 125 = 0) := by
  refine ⟨decomposes_iff v, ?_⟩
  rw [← decomposes_iff v, ← exact_iff v]
  constructor
  · rintro ⟨exact, decomposes⟩
    exact ⟨decomposes, exact⟩
  · rintro ⟨decomposes, exact⟩
    exact ⟨exact, decomposes⟩

/-- About 50 days: 296 milliseconds are lost. -/
theorem long_span_inexact :
    (2 ^ 32 : Nat) / 1000 < 2 ^ 31 ∧ (TimeSpan.fromMilliseconds (2 ^ 32)).value = 4294967 ∧
      (TimeSpan.fromMilliseconds (2 ^ 32)).value ≠ (2 ^ 32 : Nat) / 1000 := by
  decide +kernel

end Times

end Xio
