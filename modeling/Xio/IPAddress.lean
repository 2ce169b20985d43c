import Mathlib.Logic.Function.Basic
import Xio.Runs
import Xio.Storage

/-!
`lib/IPAddress.cpp`. `set` stores the family before `inet_pton` has seen the text, so a
rejected text leaves the new family over the old bytes. `inet_pton` is a parameter: it
accepts only the two Internet families and then fills exactly their address size.
-/

namespace Xio

open Storage

namespace IPAddress

def V4 : Int := 2
def V6 : Int := 10

def sizeOf (family : Int) : Nat := if family = V4 then 4 else 16

end IPAddress

/-- The documented behaviour of `inet_pton`; a rejected text leaves the destination as it is. -/
structure InetPton where
  accepts : Int → List UInt8 → Option (List UInt8)
  sized : ∀ family text bytes, accepts family text = some bytes →
    (family = IPAddress.V4 ∨ family = IPAddress.V6) ∧ bytes.length = IPAddress.sizeOf family

structure IPAddress where
  family : Int
  buf : Memory UInt8

namespace IPAddress

def size (address : IPAddress) : Nat := sizeOf address.family

def bytes (address : IPAddress) : List UInt8 := load address.buf 0 address.size

-- `operator bool`
def toBool (address : IPAddress) : Bool := decide (address.family = V4 ∨ address.family = V6)

def default : IPAddress := ⟨0, fun _ => 0⟩

-- `c_str()` ends at the first NUL of the text.
def cString (text : List UInt8) : List UInt8 := text.takeWhile (· ≠ 0)

def set (inet_pton : InetPton) (address : IPAddress) (text : List UInt8) (family : Int) :
    Bool × IPAddress :=
  match inet_pton.accepts family (cString text) with
  | some bytes => (true, ⟨family, store address.buf 0 bytes⟩)
  | none => (false, ⟨family, address.buf⟩)

-- A colon makes it an IPv6 address.
def familyOf (text : List UInt8) : Int := if 58 ∈ text then V6 else V4

/-- `IPAddress(text, family)` over an uninitialised `buf_`. The result of `set` is dropped. -/
def ofText (inet_pton : InetPton) (text : List UInt8) (family : Int) (buf : Memory UInt8) :
    IPAddress :=
  (set inet_pton ⟨0, buf⟩ text (if family ≠ 0 then family else familyOf text)).2

def assignText (inet_pton : InetPton) (address : IPAddress) (text : List UInt8) : IPAddress :=
  (set inet_pton address text (familyOf text)).2

def assign (address value : IPAddress) : IPAddress :=
  ⟨value.family, store address.buf 0 value.bytes⟩

theorem assign_bytes (address value : IPAddress) : (address.assign value).bytes = value.bytes := by
  have length : value.bytes.length = value.size := load_length _ _ _
  have stored := load_store_self address.buf 0 value.bytes
  rw [length] at stored
  exact stored

end IPAddress

/-! Runs over any number of addresses. Beside each address stands the call of `inet_pton`
whose result it holds: the last one that accepted, carried along by copies. -/

namespace ParsedAddress

open Runs IPAddress

structure Slot where
  address : IPAddress
  parsed : Option (Int × List UInt8)

inductive Op where
  | construct (i : Nat)
  | constructText (i : Nat) (text : List UInt8) (family : Int) (uninitialised : Memory UInt8)
  | assignText (i : Nat) (text : List UInt8)
  | assign (i j : Nat)
  | set (i : Nat) (text : List UInt8) (family : Int)

abbrev System := Nat → Slot

def initial : System := fun _ => ⟨.default, none⟩

section
variable (inet_pton : InetPton)

-- The call of `inet_pton` that the object holds after `set`.
def recorded (held : Option (Int × List UInt8)) (text : List UInt8) (family : Int) :
    Option (Int × List UInt8) :=
  if (inet_pton.accepts family (cString text)).isSome then some (family, cString text) else held

def perform (system : System) : Op → System
  | .construct i => Function.update system i ⟨.default, none⟩
  | .constructText i text family uninitialised =>
      Function.update system i
        ⟨ofText inet_pton text family uninitialised,
          recorded inet_pton none text (if family ≠ 0 then family else familyOf text)⟩
  | .assignText i text =>
      Function.update system i
        ⟨(system i).address.assignText inet_pton text,
          recorded inet_pton (system i).parsed text (familyOf text)⟩
  | .assign i j =>
      Function.update system i
        ⟨(system i).address.assign (system j).address, (system j).parsed⟩
  | .set i text family =>
      Function.update system i
        ⟨((system i).address.set inet_pton text family).2,
          recorded inet_pton (system i).parsed text family⟩

def step : Machine System Op Unit := fun system op => (perform inet_pton system op, ())

/-- If the address converts to true, its family and bytes are what one call of `inet_pton`
accepted, for that family. -/
def Parsed (slot : Slot) : Prop :=
  slot.address.toBool = true → ∃ text, slot.parsed = some (slot.address.family, text) ∧
    inet_pton.accepts slot.address.family text = some slot.address.bytes

/-- A rejected `set`, called by itself or by an assignment, changes neither family nor bytes. -/
def Restrained (system : System) : Op → Prop
  | .set i text family =>
      ((system i).address.set inet_pton text family).1 = false →
        ((system i).address.set inet_pton text family).2 = (system i).address
  | .assignText i text =>
      ((system i).address.set inet_pton text (familyOf text)).1 = false →
        (system i).address.assignText inet_pton text = (system i).address
  | .construct _ | .constructText _ _ _ _ | .assign _ _ => True

def Accepted (text : List UInt8) (family : Int) : Prop :=
  (inet_pton.accepts family (cString text)).isSome = true

/-- A constructor gets a text that `inet_pton` accepts, or a family that is none of the two;
a later text is accepted, or the object has the requested family already. -/
def Careful (system : System) : Op → Prop
  | .construct _ | .assign _ _ => True
  | .constructText _ text family _ =>
      Accepted inet_pton text (if family ≠ 0 then family else familyOf text) ∨
        ¬ (family = V4 ∨ family = V6 ∨ family = 0)
  | .assignText i text =>
      Accepted inet_pton text (familyOf text) ∨ (system i).address.family = familyOf text
  | .set i text family =>
      Accepted inet_pton text family ∨ (system i).address.family = family

theorem set_accepted (slot : Slot) (text : List UInt8) (family : Int)
    (accepted : Accepted inet_pton text family) :
    (slot.address.set inet_pton text family).1 = true ∧
      Parsed inet_pton ⟨(slot.address.set inet_pton text family).2,
        recorded inet_pton slot.parsed text family⟩ := by
  obtain ⟨bytes, found⟩ := Option.isSome_iff_exists.mp accepted
  have size := (inet_pton.sized family _ bytes found).2
  simp only [IPAddress.set, found, recorded, Option.isSome_some, ↓reduceIte]
  refine ⟨trivial, fun _ => ⟨cString text, rfl, ?_⟩⟩
  simp only [IPAddress.bytes, IPAddress.size, ← size, load_store_self]
  exact found

theorem set_rejected (slot : Slot) (text : List UInt8) (family : Int)
    (rejected : ¬ Accepted inet_pton text family) :
    slot.address.set inet_pton text family = (false, ⟨family, slot.address.buf⟩) ∧
      recorded inet_pton slot.parsed text family = slot.parsed := by
  have refused : inet_pton.accepts family (cString text) = none := by
    simpa [Accepted] using rejected
  simp [IPAddress.set, recorded, refused]

theorem assign_parsed (address : IPAddress) (source : Slot) (parsed : Parsed inet_pton source) :
    Parsed inet_pton ⟨address.assign source.address, source.parsed⟩ := by
  intro true_address
  obtain ⟨text, recorded, found⟩ := parsed true_address
  exact ⟨text, recorded, found.trans (congrArg some (assign_bytes address source.address).symm)⟩

theorem update_parsed (system : System) (i : Nat) (slot : Slot)
    (parsed : ∀ j, Parsed inet_pton (system j)) (fresh : Parsed inet_pton slot) :
    ∀ j, Parsed inet_pton (Function.update system i slot j) :=
  (Function.forall_update_iff system fun _ slot => Parsed inet_pton slot).mpr
    ⟨fresh, fun j _ => parsed j⟩

theorem set_careful (slot : Slot) (text : List UInt8) (family : Int)
    (parsed : Parsed inet_pton slot)
    (careful : Accepted inet_pton text family ∨ slot.address.family = family) :
    Parsed inet_pton ⟨(slot.address.set inet_pton text family).2,
        recorded inet_pton slot.parsed text family⟩ ∧
      ((slot.address.set inet_pton text family).1 = false →
        (slot.address.set inet_pton text family).2 = slot.address) := by
  by_cases accepted : Accepted inet_pton text family
  · have stored := set_accepted inet_pton slot text family accepted
    refine ⟨stored.2, fun failed => ?_⟩
    rw [stored.1] at failed
    cases failed
  · have same : slot.address.family = family := careful.resolve_left accepted
    obtain ⟨result, kept⟩ := set_rejected inet_pton slot text family accepted
    subst same
    rw [result, kept]
    exact ⟨parsed, fun _ => rfl⟩

theorem set_needs (slot : Slot) (text : List UInt8) (family : Int)
    (restrained : (slot.address.set inet_pton text family).1 = false →
      (slot.address.set inet_pton text family).2 = slot.address) :
    Accepted inet_pton text family ∨ slot.address.family = family := by
  by_cases accepted : Accepted inet_pton text family
  · exact Or.inl accepted
  · right
    rw [(set_rejected inet_pton slot text family accepted).1] at restrained
    exact (congrArg IPAddress.family (restrained rfl)).symm

theorem perform_careful (system : System) (op : Op) (parsed : ∀ i, Parsed inet_pton (system i))
    (careful : Careful inet_pton system op) :
    (∀ i, Parsed inet_pton (perform inet_pton system op i)) ∧ Restrained inet_pton system op := by
  cases op with
  | construct i =>
      exact ⟨update_parsed inet_pton system i _ parsed (fun truth => by cases truth), trivial⟩
  | constructText i text family uninitialised =>
      refine ⟨update_parsed inet_pton system i _ parsed ?_, trivial⟩
      rcases careful with accepted | other
      · exact (set_accepted inet_pton ⟨⟨0, uninitialised⟩, none⟩ text _ accepted).2
      · -- an unknown family is stored, but it does not convert to true
        intro truth
        have stored : (ofText inet_pton text family uninitialised).family = family := by
          have given : family ≠ 0 := fun zero => other (Or.inr (Or.inr zero))
          simp only [ofText, IPAddress.set, if_pos given]
          split <;> rfl
        simp only [IPAddress.toBool, stored, decide_eq_true_eq] at truth
        exact absurd (truth.imp_right Or.inl) other
  | assignText i text =>
      have set := set_careful inet_pton (system i) text _ (parsed i) careful
      exact ⟨update_parsed inet_pton system i _ parsed set.1, set.2⟩
  | assign i j =>
      exact ⟨update_parsed inet_pton system i _ parsed (assign_parsed inet_pton _ _ (parsed j)),
        trivial⟩
  | set i text family =>
      have set := set_careful inet_pton (system i) text family (parsed i) careful
      exact ⟨update_parsed inet_pton system i _ parsed set.1, set.2⟩

theorem requested_internet (text : List UInt8) (family : Int)
    (internet : family = V4 ∨ family = V6 ∨ family = 0) :
    (if family ≠ 0 then family else familyOf text) = V4 ∨
      (if family ≠ 0 then family else familyOf text) = V6 := by
  rcases internet with v4 | v6 | zero
  · left
    rw [v4]
    rfl
  · right
    rw [v6]
    rfl
  · simp only [zero, ne_eq, not_true_eq_false, ↓reduceIte, familyOf]
    split
    · exact Or.inr rfl
    · exact Or.inl rfl

theorem perform_needs (system : System) (op : Op)
    (parsed : ∀ i, Parsed inet_pton (perform inet_pton system op i))
    (restrained : Restrained inet_pton system op) : Careful inet_pton system op := by
  cases op with
  | construct i => trivial
  | constructText i text family uninitialised =>
      by_cases accepted :
          Accepted inet_pton text (if family ≠ 0 then family else familyOf text)
      · exact Or.inl accepted
      · right
        intro internet
        have here := parsed i
        obtain ⟨result, kept⟩ :=
          set_rejected inet_pton ⟨⟨0, uninitialised⟩, none⟩ text _ accepted
        simp only [perform, Function.update_self, ofText, result, kept] at here
        have truth := requested_internet text family internet
        obtain ⟨_, recorded, _⟩ := here (decide_eq_true truth)
        cases recorded
  | assignText i text => exact set_needs inet_pton (system i) text _ restrained
  | assign i j => trivial
  | set i text family => exact set_needs inet_pton (system i) text family restrained

/-- Exactly the runs of careful steps keep every address that converts to true parsed and
let no rejected `set` change its object. -/
theorem parsed_iff_careful (ops : List Op) :
    (Always (step inet_pton) (fun system => ∀ i, Parsed inet_pton (system i)) initial ops ∧
        Along (step inet_pton) (Restrained inet_pton) initial ops) ↔
      Along (step inet_pton) (Careful inet_pton) initial ops :=
  always_along_iff_along (step inet_pton) (Careful inet_pton) _ _ (Restrained inet_pton)
    (fun _ parsed => parsed)
    (fun system op parsed careful => perform_careful inet_pton system op parsed careful)
    (fun system op _ parsed restrained => perform_needs inet_pton system op parsed restrained)
    initial ops (fun _ truth => by cases truth)

end

def two : InetPton where
  accepts family text :=
    if family = V4 ∧ text = [49, 46, 50, 46, 51, 46, 52] then some [1, 2, 3, 4]
    else if family = V6 ∧ text = [58, 58] then some (List.replicate 16 0) else none
  sized := by
    intro family text bytes found
    split at found
    · rename_i v4
      cases found
      exact ⟨Or.inl v4.1, by rw [v4.1]; rfl⟩
    split at found
    · rename_i v6
      cases found
      exact ⟨Or.inr v6.1, by rw [v6.1]; rfl⟩
    · cases found

/-- `IPAddress("bad")` converts to true though no text was accepted; `set("bad", AF_INET6)` on
`1.2.3.4` returns false and leaves an IPv6 family over the old bytes. -/
theorem rejected_text_converts :
    ¬ (Always (step two) (fun system => ∀ i, Parsed two (system i)) initial
        [.constructText 0 [98, 97, 100] 0 fun _ => 0] ∧
      Along (step two) (Restrained two) initial
        [.constructText 0 [98, 97, 100] 0 fun _ => 0]) ∧
    ¬ (Always (step two) (fun system => ∀ i, Parsed two (system i)) initial
        [.assignText 0 [49, 46, 50, 46, 51, 46, 52], .set 0 [98, 97, 100] V6] ∧
      Along (step two) (Restrained two) initial
        [.assignText 0 [49, 46, 50, 46, 51, 46, 52], .set 0 [98, 97, 100] V6]) := by
  constructor
  · rintro ⟨⟨_, parsed⟩, _⟩
    obtain ⟨_, recorded, _⟩ := parsed 0 (by decide)
    cases recorded
  · rintro ⟨_, _, restrained, _⟩
    have unchanged := congrArg IPAddress.family (restrained (by decide))
    revert unchanged
    decide

end ParsedAddress

end Xio
