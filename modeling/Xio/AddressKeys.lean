import Xio.ServerSocket

/-!
`operator==` and `std::hash` of `IPAddress` and `SocketSpec`: `lib/IPAddress.cpp`,
`include/xio/IPAddress.h` and `include/xio/SocketSpec.h`. Equality asks first whether both
operands are one object, so it is a function of places and of what lies there. An address
without a family is equal to nothing but itself.
-/

namespace Xio

open Storage

namespace IPAddress

def same (objects : Nat → IPAddress) (a b : Nat) : Bool :=
  if a = b then true else (objects a).equals (objects b)

-- `*(uint32_t*)(v.data())`: the lowest byte is the first.
def hash (address : IPAddress) : Nat :=
  (load address.buf 0 4).foldr (fun byte rest => byte.toNat + 256 * rest) 0

/-- The copy constructor is the implicit one; an assignment keeps the bytes of the target
that the source's family does not have. -/
def IsCopy (copy source : IPAddress) : Prop :=
  copy = source ∨ ∃ old : IPAddress, copy = old.assign source

end IPAddress

inductive SpecType where
  | Unknown
  | Local
  | Inet
  deriving DecidableEq

def SpecType.toNat : SpecType → Nat
  | .Unknown => 0
  | .Local => 1
  | .Inet => 2

-- `path` is the member `local_`.
structure SocketSpec where
  type : SpecType
  ipaddr : IPAddress
  path : List UInt8
  port : Int
  backlog : Int
  multiAcceptCount : Nat
  reusePort : Bool

namespace SocketSpec

def ofInet (ipaddr : IPAddress) (port backlog : Int) (maccept : Nat) (reusePort : Bool) :
    SocketSpec :=
  ⟨.Inet, ipaddr, [], port, backlog, maccept, reusePort⟩

def assign (spec value : SocketSpec) : SocketSpec :=
  { value with ipaddr := spec.ipaddr.assign value.ipaddr }

-- The members are one object exactly if the specifications are.
def same (specs : Nat → SocketSpec) (a b : Nat) : Bool :=
  if (specs a).type ≠ (specs b).type then false
  else
    match (specs a).type with
    | .Local => decide ((specs a).path = (specs b).path)
    | .Inet =>
        decide ((specs a).port = (specs b).port) && IPAddress.same (fun i => (specs i).ipaddr) a b
    | .Unknown => false

def hash (hashSize : Nat → Nat) (hashString : List UInt8 → Nat) (spec : SocketSpec) : Nat :=
  match spec.type with
  | .Inet => hashSize spec.type.toNat ^^^ spec.ipaddr.hash
  | .Local => hashSize spec.type.toNat ^^^ hashString spec.path
  | .Unknown => 0

def IsCopy (copy source : SocketSpec) : Prop :=
  copy = source ∨ ∃ old : SocketSpec, copy = old.assign source

end SocketSpec

namespace AddressKeys

/-- What a hash table needs of its keys, apart from their copies. -/
structure Lawful (domain : Nat → Prop) (equal : Nat → Nat → Bool) (hash : Nat → Nat) : Prop where
  itself : ∀ a, domain a → equal a a = true
  symm : ∀ a b, domain a → domain b → equal a b = true → equal b a = true
  trans : ∀ a b c, domain a → domain b → domain c →
    equal a b = true → equal b c = true → equal a c = true
  hash_eq : ∀ a b, domain a → domain b → equal a b = true → hash a = hash b

theorem lawful_of_key {Key : Type} (domain : Nat → Prop) (equal : Nat → Nat → Bool)
    (hash : Nat → Nat) (key : Nat → Key) (counts : Nat → Prop)
    (equal_iff : ∀ a b, domain a → domain b →
      (equal a b = true ↔ a = b ∨ (counts a ∧ key a = key b)))
    (counts_congr : ∀ a b, key a = key b → counts a → counts b)
    (hash_congr : ∀ a b, domain a → domain b → key a = key b → hash a = hash b) :
    Lawful domain equal hash where
  itself a inside := (equal_iff a a inside inside).mpr (Or.inl rfl)
  symm a b inside inside' equal := by
    rcases (equal_iff a b inside inside').mp equal with rfl | ⟨counted, keys⟩
    · exact equal
    · exact (equal_iff b a inside' inside).mpr (Or.inr ⟨counts_congr a b keys counted, keys.symm⟩)
  trans a b c inside inside' inside'' first second := by
    rcases (equal_iff a b inside inside').mp first with rfl | ⟨counted, keys⟩
    · exact second
    rcases (equal_iff b c inside' inside'').mp second with rfl | ⟨_, keys'⟩
    · exact first
    · exact (equal_iff a c inside inside'').mpr (Or.inr ⟨counted, keys.trans keys'⟩)
  hash_eq a b inside inside' equal := by
    rcases (equal_iff a b inside inside').mp equal with rfl | ⟨_, keys⟩
    · rfl
    · exact hash_congr a b inside inside' keys

/-! Addresses. -/

def addressKey (address : IPAddress) : Int × List UInt8 := (address.family, address.bytes)

theorem equals_iff (left right : IPAddress) :
    left.equals right = true ↔ left.toBool = true ∧ addressKey left = addressKey right := by
  simp only [IPAddress.equals, addressKey, Bool.and_eq_true, decide_eq_true_iff, Prod.mk.injEq]
  constructor
  · rintro ⟨⟨family, internet⟩, bytes⟩
    exact ⟨internet, family, bytes⟩
  · rintro ⟨internet, family, bytes⟩
    exact ⟨⟨family, internet⟩, bytes⟩

theorem same_iff (objects : Nat → IPAddress) (a b : Nat) :
    IPAddress.same objects a b = true ↔
      a = b ∨ ((objects a).toBool = true ∧ addressKey (objects a) = addressKey (objects b)) := by
  rw [IPAddress.same]
  by_cases identical : a = b
  · rw [if_pos identical]
    exact iff_of_true rfl (Or.inl identical)
  · rw [if_neg identical, equals_iff, or_iff_right identical]

theorem toBool_congr (left right : IPAddress) (keys : addressKey left = addressKey right)
    (internet : left.toBool = true) : right.toBool = true := by
  have family : left.family = right.family := congrArg Prod.fst keys
  rw [IPAddress.toBool, ← family]
  exact internet

theorem hash_eq_bytes (address : IPAddress) :
    address.hash = (address.bytes.take 4).foldr (fun byte rest => byte.toNat + 256 * rest) 0 := by
  have enough : min 4 address.size = 4 := by
    rw [IPAddress.size, IPAddress.sizeOf]
    split <;> rfl
  rw [IPAddress.hash, IPAddress.bytes, load_take, enough]

theorem hash_congr (left right : IPAddress) (keys : addressKey left = addressKey right) :
    left.hash = right.hash := by
  have bytes : left.bytes = right.bytes := congrArg Prod.snd keys
  rw [hash_eq_bytes, hash_eq_bytes, bytes]

theorem copy_key (copy source : IPAddress) (copied : copy.IsCopy source) :
    addressKey copy = addressKey source := by
  rcases copied with rfl | ⟨old, rfl⟩
  · rfl
  · exact congrArg (Prod.mk source.family) (IPAddress.assign_bytes old source)

theorem address_lawful (objects : Nat → IPAddress) :
    Lawful (fun _ => True) (IPAddress.same objects) (fun a => (objects a).hash) := by
  apply lawful_of_key _ _ _ (fun a => addressKey (objects a)) (fun a => (objects a).toBool = true)
  · intro a b _ _
    exact same_iff objects a b
  · intro a b
    exact toBool_congr (objects a) (objects b)
  · intro a b _ _
    exact hash_congr (objects a) (objects b)

theorem address_copy_iff (objects : Nat → IPAddress) (a b : Nat) (distinct : a ≠ b)
    (copied : (objects b).IsCopy (objects a)) :
    IPAddress.same objects a b = true ↔ (objects a).toBool = true := by
  rw [same_iff, or_iff_right distinct, and_iff_left (copy_key _ _ copied).symm]

/-! Specifications of type `Inet`. -/

theorem inet_same_iff (specs : Nat → SocketSpec) (a b : Nat) (inet : (specs a).type = .Inet)
    (inet' : (specs b).type = .Inet) :
    SocketSpec.same specs a b = true ↔ (specs a).port = (specs b).port ∧
      IPAddress.same (fun i => (specs i).ipaddr) a b = true := by
  rw [SocketSpec.same, if_neg (by rw [inet, inet']; simp), inet]
  simp only [Bool.and_eq_true, decide_eq_true_iff]

theorem inet_hash (hashSize : Nat → Nat) (hashString : List UInt8 → Nat) (spec : SocketSpec)
    (inet : spec.type = .Inet) :
    spec.hash hashSize hashString = hashSize 2 ^^^ spec.ipaddr.hash := by
  rw [SocketSpec.hash, inet]
  rfl

theorem spec_lawful (hashSize : Nat → Nat) (hashString : List UInt8 → Nat)
    (specs : Nat → SocketSpec) :
    Lawful (fun a => (specs a).type = .Inet) (SocketSpec.same specs)
      (fun a => (specs a).hash hashSize hashString) := by
  apply lawful_of_key _ _ _ (fun a => ((specs a).port, addressKey (specs a).ipaddr))
    (fun a => (specs a).ipaddr.toBool = true)
  · intro a b inet inet'
    rw [inet_same_iff specs a b inet inet', same_iff]
    simp only [Prod.mk.injEq]
    constructor
    · rintro ⟨port, rfl | ⟨internet, keys⟩⟩
      · exact Or.inl rfl
      · exact Or.inr ⟨internet, port, keys⟩
    · rintro (rfl | ⟨internet, port, keys⟩)
      · exact ⟨rfl, Or.inl rfl⟩
      · exact ⟨port, Or.inr ⟨internet, keys⟩⟩
  · intro a b keys
    exact toBool_congr (specs a).ipaddr (specs b).ipaddr (congrArg Prod.snd keys)
  · intro a b inet inet' keys
    have equal := hash_congr (specs a).ipaddr (specs b).ipaddr (congrArg Prod.snd keys)
    rw [inet_hash _ _ _ inet, inet_hash _ _ _ inet', equal]

theorem spec_copy (copy source : SocketSpec) (copied : copy.IsCopy source) :
    copy.type = source.type ∧ copy.port = source.port ∧ copy.ipaddr.IsCopy source.ipaddr := by
  rcases copied with rfl | ⟨old, rfl⟩
  · exact ⟨rfl, rfl, Or.inl rfl⟩
  · exact ⟨rfl, rfl, Or.inr ⟨old.ipaddr, rfl⟩⟩

theorem spec_copy_iff (specs : Nat → SocketSpec) (a b : Nat) (distinct : a ≠ b)
    (inet : (specs a).type = .Inet) (copied : (specs b).IsCopy (specs a)) :
    SocketSpec.same specs a b = true ↔ (specs a).ipaddr.toBool = true := by
  obtain ⟨type, port, ipaddr⟩ := spec_copy _ _ copied
  rw [inet_same_iff specs a b inet (type.trans inet), and_iff_right port.symm]
  exact address_copy_iff (fun i => (specs i).ipaddr) a b distinct ipaddr

/-- Equality and hash agree with each other for all addresses and all specifications of type
`Inet`, whatever bytes lie behind the address. A copy equals its source exactly if the address
has one of the two families. -/
theorem keys_lawful_iff (hashSize : Nat → Nat) (hashString : List UInt8 → Nat)
    (objects : Nat → IPAddress) (specs : Nat → SocketSpec) :
    Lawful (fun _ => True) (IPAddress.same objects) (fun a => (objects a).hash) ∧
    Lawful (fun a => (specs a).type = .Inet) (SocketSpec.same specs)
      (fun a => (specs a).hash hashSize hashString) ∧
    (∀ a b, a ≠ b → (objects b).IsCopy (objects a) →
      (IPAddress.same objects a b = true ↔ (objects a).toBool = true)) ∧
    (∀ a b, a ≠ b → (specs a).type = .Inet → (specs b).IsCopy (specs a) →
      (SocketSpec.same specs a b = true ↔ (specs a).ipaddr.toBool = true)) :=
  ⟨address_lawful objects, spec_lawful hashSize hashString specs, address_copy_iff objects,
    spec_copy_iff specs⟩

theorem default_differs_from_copy :
    IPAddress.IsCopy (IPAddress.default.assign .default) .default ∧
      IPAddress.same (fun i => if i = 0 then .default else IPAddress.default.assign .default) 0 1 =
        false ∧
      SocketSpec.same (fun _ => .ofInet .default 80 (-1) 1 false) 0 1 = false :=
  ⟨Or.inr ⟨.default, rfl⟩, by decide, by decide⟩

end AddressKeys

end Xio
