import Xio.Buffer
import Xio.Tokens

/-!
The hand-over of listening descriptors in `XZERO_LISTEN_FDS`: one record for each server,
written by `serialize` of `lib/InetServer.cpp` and `lib/UnixServer.cpp` and read back by
three decoders, `getInheritedSocketList` of `lib/ServerSocket.cpp` and the two lookups beside
the encoders. A decoder that passes a null pointer to `atoi` or `strcmp` crashes; its result
is `none`. The fields are neither quoted nor escaped and a record does not say its kind.
-/

namespace Xio.ListenFds

open Tokens MutableBuffer

/-! Numbers as `%d` prints them and `atoi` reads them. -/

def printInt (value : Int) : List UInt8 :=
  if value < 0 then 45 :: decimal value.natAbs else decimal value.natAbs

def isSpace (byte : UInt8) : Bool := byte = 32 || (9 ≤ byte && byte ≤ 13)

def isDigit (byte : UInt8) : Bool := 48 ≤ byte && byte ≤ 57

def digitsValue (text : List UInt8) : Nat :=
  (text.takeWhile isDigit).foldl (fun value digit => 10 * value + (digit.toNat - 48)) 0

def atoi (text : List UInt8) : Int :=
  match text.dropWhile isSpace with
  | [] => 0
  | first :: rest =>
      if first = 45 then -(digitsValue rest : Int)
      else if first = 43 then digitsValue rest
      else digitsValue (first :: rest)

theorem digit_isDigit : ∀ digit < 10, isDigit (UInt8.ofNat (48 + digit)) = true := by decide

theorem digit_value : ∀ digit < 10, (UInt8.ofNat (48 + digit)).toNat - 48 = digit := by decide

theorem decimal_digits (value : Nat) : ∀ byte ∈ decimal value, isDigit byte = true := by
  intro byte member
  simp only [decimal] at member
  split at member
  · rw [List.mem_singleton] at member
    subst byte
    decide
  · obtain ⟨digit, inside, rfl⟩ := List.mem_map.mp member
    exact digit_isDigit digit (Nat.digits_lt_base (by decide) (List.mem_reverse.mp inside))

theorem digitsValue_decimal (value : Nat) : digitsValue (decimal value) = value := by
  rw [digitsValue, List.takeWhile_eq_self_iff.mpr (decimal_digits value)]
  simp only [decimal]
  split
  · rename_i zero
    rw [zero]
    decide
  · rw [List.foldl_map, List.foldl_reverse]
    have read : (Nat.digits 10 value).foldr
        (fun digit value => 10 * value + ((UInt8.ofNat (48 + digit)).toNat - 48)) 0 =
        (Nat.digits 10 value).foldr (fun digit value => digit + 10 * value) 0 := by
      apply List.foldr_ext
      intro digit inside value
      rw [digit_value digit (Nat.digits_lt_base (by decide) inside), Nat.add_comm]
    rw [read]
    exact (Nat.ofDigits_eq_foldr 10 _).symm.trans (Nat.ofDigits_digits 10 value)

theorem digit_ne (byte other : UInt8) (digit : isDigit byte = true) (none : isDigit other = false) :
    byte ≠ other := by
  rintro rfl
  rw [digit] at none
  cases none

theorem digit_not_space (byte : UInt8) (digit : isDigit byte = true) : isSpace byte = false := by
  simp only [isDigit, Bool.and_eq_true, decide_eq_true_eq] at digit
  by_contra space
  simp only [isSpace, Bool.not_eq_false, Bool.or_eq_true, Bool.and_eq_true, decide_eq_true_eq]
    at space
  rcases space with rfl | ⟨_, low⟩
  · exact absurd digit.1 (by decide)
  · exact absurd (UInt8.le_trans digit.1 low) (by decide)

theorem atoi_printInt (value : Int) : atoi (printInt value) = value := by
  simp only [printInt]
  split
  · have stays : (45 :: decimal value.natAbs).dropWhile isSpace = 45 :: decimal value.natAbs := rfl
    simp only [atoi, stays, ↓reduceIte, digitsValue_decimal]
    omega
  · have read := digitsValue_decimal value.natAbs
    cases text : decimal value.natAbs with
    | nil => exact absurd text (decimal_ne_nil _)
    | cons first rest =>
        have digit : isDigit first = true :=
          decimal_digits value.natAbs first (text ▸ List.mem_cons_self)
        have stays : (first :: rest).dropWhile isSpace = first :: rest :=
          List.dropWhile_cons_of_neg (by rw [digit_not_space first digit]; decide)
        rw [text] at read
        simp only [atoi, stays, if_neg (digit_ne first 45 digit rfl),
          if_neg (digit_ne first 43 digit rfl), read]
        omega

theorem printInt_bytes (value : Int) :
    ∀ byte ∈ printInt value, byte = 45 ∨ isDigit byte = true := by
  intro byte member
  simp only [printInt] at member
  split at member
  · rcases List.mem_cons.mp member with sign | digit
    · exact Or.inl sign
    · exact Or.inr (decimal_digits _ byte digit)
  · exact Or.inr (decimal_digits _ byte member)

theorem printInt_piece (delimiter : UInt8) (value : Int) (other : delimiter ≠ 45)
    (none : isDigit delimiter = false) : Piece delimiter (printInt value) := by
  constructor
  · simp only [printInt]
    split
    · simp
    · exact decimal_ne_nil _
  · intro member
    rcases printInt_bytes value delimiter member with sign | digit
    · exact other sign
    · rw [digit] at none
      cases none

/-! The records and their readers. -/

/-- `InetServer::serialize`. The text of an address is shorter than the buffer. -/
def inetRecord (address : List UInt8) (port fd : Int) : List UInt8 :=
  address ++ [44] ++ printInt port ++ [44] ++ printInt fd

/-- `UnixServer::serialize`; so is a path that was bound. -/
def unixRecord (path : List UInt8) (fd : Int) : List UInt8 := path ++ [44] ++ printInt fd

-- The fields of one token: an address or a path, then a port or a descriptor, then a descriptor.
def inherited (token : List UInt8) : Option Int :=
  match tokens 44 token with
  | _ :: _ :: vival2 :: _ => some (atoi vival2)
  | [_, vival1] => some (atoi vival1)
  | _ => none

def getInheritedSocketList : Option (List UInt8) → Option (List Int)
  | none => some []
  | some e => (tokens 59 e).mapM inherited

section
variable (isSocket : Int → Bool)

-- `fstat` has the last word on the descriptor found.
def confirmed (fd : Int) : Int := if isSocket fd then fd else -1

def findInet (address : List UInt8) (port : Int) : List (List UInt8) → Option Int
  | [] => some (-1)
  | token :: rest =>
      match tokens 44 token with
      | [] => none
      | vaddr :: fields =>
          if vaddr ≠ address then findInet address port rest
          else match fields with
            | [] => none
            | vport :: fields =>
                if atoi vport ≠ port then findInet address port rest
                else match fields with
                  | [] => none
                  | vfd :: _ => some (confirmed isSocket (atoi vfd))

def findUnix (path : List UInt8) : List (List UInt8) → Option Int
  | [] => some (-1)
  | token :: rest =>
      match tokens 44 token with
      | [] => none
      | vaddr :: fields =>
          if vaddr ≠ path then findUnix path rest
          else match fields with
            | [] => none
            | vfd :: _ => some (confirmed isSocket (atoi vfd))

def getSocketInet (env : Option (List UInt8)) (address : List UInt8) (port : Int) : Option Int :=
  match env with
  | none => some (-1)
  | some e => findInet isSocket address port (tokens 59 e)

def getSocketUnix (env : Option (List UInt8)) (path : List UInt8) : Option Int :=
  match env with
  | none => some (-1)
  | some e => findUnix isSocket path (tokens 59 e)

end

/-! What is handed over, and what should be found again. -/

-- The characters of an address as `inet_ntop` prints it.
def addressByte (byte : UInt8) : Bool :=
  (48 ≤ byte && byte ≤ 58) || (97 ≤ byte && byte ≤ 102) || byte = 46

abbrev Address := { text : List UInt8 // text ≠ [] ∧ ∀ byte ∈ text, addressByte byte = true }

/-- The paths that `UnixServer::bind` accepts: they fit `sun_path` with a terminator. -/
abbrev Path := { text : List UInt8 // text ≠ [] ∧ 0 ∉ text ∧ text.length < 108 }

inductive Server where
  | inet (address : Address) (port : Fin 65536) (fd : Nat)
  | unix (path : Path) (fd : Nat)

def Server.fd : Server → Nat
  | .inet _ _ fd | .unix _ fd => fd

def Server.serialize : Server → List UInt8
  | .inet address port fd => inetRecord address.1 port.1 fd
  | .unix path fd => unixRecord path.1 fd

def environment (servers : List Server) : List UInt8 :=
  [59].intercalate (servers.map Server.serialize)

inductive Query where
  | inet (address : Address) (port : Int)
  | unix (path : Path)

def Server.query : Server → Query
  | .inet address port _ => .inet address port.1
  | .unix path _ => .unix path

def answer (isSocket : Int → Bool) (env : Option (List UInt8)) : Query → Option Int
  | .inet address port => getSocketInet isSocket env address.1 port
  | .unix path => getSocketUnix isSocket env path.1

def expected : Query → List Server → Int
  | _, [] => -1
  | .inet address port, .inet address' port' fd :: rest =>
      if address' = address ∧ (port'.1 : Int) = port then fd
      else expected (.inet address port) rest
  | .unix path, .unix path' fd :: rest =>
      if path' = path then fd else expected (.unix path) rest
  | .inet address port, .unix _ _ :: rest => expected (.inet address port) rest
  | .unix path, .inet _ _ _ :: rest => expected (.unix path) rest

def Separable : Server → Prop
  | .inet _ _ _ => True
  | .unix path _ => 44 ∉ path.1 ∧ 59 ∉ path.1

/-- Up to the first server that was asked for there is none of the other kind that reads the
same: a path that is the address with a descriptor that is the port, or an address that is
the path, unless its port happens to be the number that should be found. -/
def Unmasked : Query → List Server → Prop
  | _, [] => True
  | .inet address port, .inet address' port' _ :: rest =>
      (address' = address ∧ (port'.1 : Int) = port) ∨ Unmasked (.inet address port) rest
  | .unix path, .unix path' _ :: rest => path' = path ∨ Unmasked (.unix path) rest
  | .inet address port, .unix path fd :: rest =>
      ¬ (path.1 = address.1 ∧ (fd : Int) = port) ∧ Unmasked (.inet address port) rest
  | .unix path, .inet address port _ :: rest =>
      if address.1 = path.1 then (port.1 : Int) = expected (.unix path) rest
      else Unmasked (.unix path) rest

/-! Reading one record back. -/

theorem address_piece (delimiter : UInt8) (address : Address)
    (none : addressByte delimiter = false) : Piece delimiter address.1 := by
  refine ⟨address.2.1, fun member => ?_⟩
  rw [address.2.2 delimiter member] at none
  cases none

theorem inetRecord_fields (address : List UInt8) (port fd : Int) (piece : Piece 44 address) :
    tokens 44 (inetRecord address port fd) = [address, printInt port, printInt fd] := by
  have joined : inetRecord address port fd =
      [44].intercalate [address, printInt port, printInt fd] := by
    simp [inetRecord, List.intercalate_cons_cons]
  rw [joined]
  apply tokens_intercalate
  simp only [List.forall_mem_cons]
  exact ⟨piece, printInt_piece 44 port (by decide) rfl, printInt_piece 44 fd (by decide) rfl,
    fun _ member => by cases member⟩

theorem unixRecord_fields (path : List UInt8) (fd : Int) (piece : Piece 44 path) :
    tokens 44 (unixRecord path fd) = [path, printInt fd] := by
  have joined : unixRecord path fd = [44].intercalate [path, printInt fd] := by
    simp [unixRecord, List.intercalate_cons_cons]
  rw [joined]
  apply tokens_intercalate
  simp only [List.forall_mem_cons]
  exact ⟨piece, printInt_piece 44 fd (by decide) rfl, fun _ member => by cases member⟩

section
variable (isSocket : Int → Bool) (rest : List (List UInt8))

theorem findInet_inetRecord (address other : List UInt8) (port port' fd : Int)
    (piece : Piece 44 other) :
    findInet isSocket address port (inetRecord other port' fd :: rest) =
      if other = address ∧ port' = port then some (confirmed isSocket fd)
      else findInet isSocket address port rest := by
  rw [findInet, inetRecord_fields other port' fd piece]
  by_cases same : other = address
  · by_cases match_port : port' = port
    · simp [same, match_port, atoi_printInt]
    · simp [same, match_port, atoi_printInt]
  · simp [same]

/-- A path that reads like the address: its descriptor is taken for a port, and behind a
matching port the descriptor is missing. -/
theorem findInet_unixRecord (address path : List UInt8) (port fd : Int) (piece : Piece 44 path) :
    findInet isSocket address port (unixRecord path fd :: rest) =
      if path = address ∧ fd = port then none else findInet isSocket address port rest := by
  rw [findInet, unixRecord_fields path fd piece]
  by_cases same : path = address
  · by_cases match_port : fd = port
    · simp [same, match_port, atoi_printInt]
    · simp [same, match_port, atoi_printInt]
  · simp [same]

theorem findUnix_unixRecord (path other : List UInt8) (fd : Int) (piece : Piece 44 other) :
    findUnix isSocket path (unixRecord other fd :: rest) =
      if other = path then some (confirmed isSocket fd) else findUnix isSocket path rest := by
  rw [findUnix, unixRecord_fields other fd piece]
  by_cases same : other = path
  · simp [same, atoi_printInt]
  · simp [same]

theorem findUnix_inetRecord (path address : List UInt8) (port fd : Int) (piece : Piece 44 address) :
    findUnix isSocket path (inetRecord address port fd :: rest) =
      if address = path then some (confirmed isSocket port) else findUnix isSocket path rest := by
  rw [findUnix, inetRecord_fields address port fd piece]
  by_cases same : address = path
  · simp [same, atoi_printInt]
  · simp [same]

theorem findUnix_separator (path : List UInt8) (records : List (List UInt8)) (found : Int)
    (separated : 44 ∈ path ∨ 59 ∈ path) (free : ∀ record ∈ records, 59 ∉ record)
    (lookup : findUnix isSocket path records = some found) : found = -1 := by
  induction records with
  | nil => exact (Option.some.inj lookup).symm
  | cons record records ih =>
      rw [List.forall_mem_cons] at free
      rw [findUnix] at lookup
      cases fields : tokens 44 record with
      | nil =>
          rw [fields] at lookup
          cases lookup
      | cons vaddr more =>
          have field := tokens_free 44 record vaddr (fields ▸ List.mem_cons_self)
          have other : vaddr ≠ path := by
            rintro rfl
            rcases separated with comma | semicolon
            · exact field.1 comma
            · exact free.1 (field.2 semicolon)
          simp only [fields, ne_eq, other, not_false_eq_true, ↓reduceIte] at lookup
          exact ih free.2 lookup

theorem getSocketUnix_separator (path env : List UInt8) (found : Int)
    (separated : 44 ∈ path ∨ 59 ∈ path)
    (lookup : getSocketUnix isSocket (some env) path = some found) : found = -1 :=
  findUnix_separator isSocket path _ found separated
    (fun record inside => (tokens_free 59 env record inside).1) lookup

end

/-! Reading the whole list back. -/

theorem inetRecord_piece (address : List UInt8) (port fd : Int) (free : 59 ∉ address) :
    Piece 59 (inetRecord address port fd) := by
  have number (value : Int) : 59 ∉ printInt value := (printInt_piece 59 value (by decide) rfl).free
  refine ⟨by simp [inetRecord], ?_⟩
  simp [inetRecord, free, number]

theorem unixRecord_piece (path : List UInt8) (fd : Int) (free : 59 ∉ path) :
    Piece 59 (unixRecord path fd) := by
  have number : 59 ∉ printInt fd := (printInt_piece 59 fd (by decide) rfl).free
  refine ⟨by simp [unixRecord], ?_⟩
  simp [unixRecord, free, number]

theorem serialize_piece (server : Server) (separable : Separable server) :
    Piece 59 server.serialize := by
  cases server with
  | inet address port fd => exact inetRecord_piece _ _ _ (address_piece 59 address rfl).free
  | unix path fd => exact unixRecord_piece _ _ separable.2

theorem environment_records (servers : List Server)
    (separable : ∀ server ∈ servers, Separable server) :
    tokens 59 (environment servers) = servers.map Server.serialize := by
  apply tokens_intercalate
  intro record member
  obtain ⟨server, inside, rfl⟩ := List.mem_map.mp member
  exact serialize_piece server (separable server inside)

theorem inherited_serialize (server : Server) (separable : Separable server) :
    inherited server.serialize = some (server.fd : Int) := by
  cases server with
  | inet address port fd =>
      simp [inherited, Server.serialize, Server.fd,
        inetRecord_fields address.1 port.1 fd (address_piece 44 address rfl), atoi_printInt]
  | unix path fd =>
      simp [inherited, Server.serialize, Server.fd,
        unixRecord_fields path.1 fd ⟨path.2.1, separable.1⟩, atoi_printInt]

theorem inherited_environment (servers : List Server)
    (separable : ∀ server ∈ servers, Separable server) :
    getInheritedSocketList (some (environment servers)) =
      some (servers.map fun server => (server.fd : Int)) := by
  rw [getInheritedSocketList, environment_records servers separable]
  induction servers with
  | nil => rfl
  | cons server servers ih =>
      rw [List.forall_mem_cons] at separable
      rw [List.map_cons, List.mapM_cons, inherited_serialize server separable.1, ih separable.2]
      rfl

def anySocket : Int → Bool := fun _ => true

theorem confirmed_anySocket (fd : Int) : confirmed anySocket fd = fd := rfl

theorem findInet_serialize (address : Address) (port : Int) (servers : List Server)
    (separable : ∀ server ∈ servers, Separable server) :
    findInet anySocket address.1 port (servers.map Server.serialize) =
        some (expected (.inet address port) servers) ↔ Unmasked (.inet address port) servers := by
  induction servers with
  | nil => simp [findInet, expected, Unmasked]
  | cons server servers ih =>
      rw [List.forall_mem_cons] at separable
      have tail := ih separable.2
      cases server with
      | inet address' port' fd =>
          rw [List.map_cons, Server.serialize,
            findInet_inetRecord _ _ _ _ _ _ _ (address_piece 44 address' rfl)]
          simp only [expected, Unmasked, ← Subtype.ext_iff]
          by_cases found : address' = address ∧ (port'.1 : Int) = port
          · simp [found, confirmed_anySocket]
          · simp only [found, ↓reduceIte, false_or]
            exact tail
      | unix path fd =>
          rw [List.map_cons, Server.serialize,
            findInet_unixRecord _ _ _ _ _ _ ⟨path.2.1, separable.1.1⟩]
          simp only [expected, Unmasked]
          by_cases mistaken : path.1 = address.1 ∧ (fd : Int) = port
          · simp [mistaken]
          · simp only [mistaken, ↓reduceIte, not_false_eq_true, true_and]
            exact tail

theorem findUnix_serialize (path : Path) (servers : List Server)
    (separable : ∀ server ∈ servers, Separable server) :
    findUnix anySocket path.1 (servers.map Server.serialize) =
        some (expected (.unix path) servers) ↔ Unmasked (.unix path) servers := by
  induction servers with
  | nil => simp [findUnix, expected, Unmasked]
  | cons server servers ih =>
      rw [List.forall_mem_cons] at separable
      have tail := ih separable.2
      cases server with
      | unix path' fd =>
          rw [List.map_cons, Server.serialize,
            findUnix_unixRecord _ _ _ _ _ ⟨path'.2.1, separable.1.1⟩]
          simp only [expected, Unmasked, ← Subtype.ext_iff]
          by_cases found : path' = path
          · simp [found, confirmed_anySocket]
          · simp only [found, ↓reduceIte, false_or]
            exact tail
      | inet address port fd =>
          rw [List.map_cons, Server.serialize,
            findUnix_inetRecord _ _ _ _ _ _ (address_piece 44 address rfl)]
          simp only [expected, Unmasked]
          by_cases mistaken : address.1 = path.1
          · simp [mistaken, confirmed_anySocket]
          · simp only [mistaken, ↓reduceIte]
            exact tail

theorem answer_iff (query : Query) (servers : List Server)
    (separable : ∀ server ∈ servers, Separable server) :
    answer anySocket (some (environment servers)) query = some (expected query servers) ↔
      Unmasked query servers := by
  cases query with
  | inet address port =>
      simp only [answer, getSocketInet, environment_records servers separable]
      exact findInet_serialize address port servers separable
  | unix path =>
      simp only [answer, getSocketUnix, environment_records servers separable]
      exact findUnix_serialize path servers separable

-- A path that is in the list has a descriptor, so -1 is the wrong answer for it.
theorem expected_present (path : Path) (fd : Nat) (servers : List Server)
    (member : Server.unix path fd ∈ servers) : 0 ≤ expected (.unix path) servers := by
  induction servers with
  | nil => cases member
  | cons server servers ih =>
      cases server with
      | inet _ _ _ =>
          rcases List.mem_cons.mp member with same | later
          · cases same
          · exact ih later
      | unix path' fd' =>
          simp only [expected]
          split
          · exact Int.natCast_nonneg fd'
          · rename_i other
            rcases List.mem_cons.mp member with same | later
            · cases same
              exact absurd rfl other
            · exact ih later

theorem separable_of_answers (servers : List Server)
    (answered : ∀ server ∈ servers, answer anySocket (some (environment servers)) server.query =
      some (expected server.query servers)) : ∀ server ∈ servers, Separable server := by
  intro server member
  cases server with
  | inet _ _ _ => trivial
  | unix path fd =>
      by_contra inseparable
      have separated : 44 ∈ path.1 ∨ 59 ∈ path.1 := by
        simp only [Separable, not_and_or, not_not] at inseparable
        exact inseparable
      have found := answered _ member
      have present := expected_present path fd servers member
      have missing : expected (.unix path) servers = -1 :=
        getSocketUnix_separator anySocket path.1 _ _ separated found
      rw [missing] at present
      cases present

/-- The descriptors handed over are found again, in order and by every query, the servers'
own included, exactly when no path contains a separator and no query is answered by a record
of the other kind. -/
theorem round_trip_iff (servers : List Server) (queries : List Query) :
    (getInheritedSocketList (some (environment servers)) =
          some (servers.map fun server => (server.fd : Int)) ∧
        ∀ query ∈ servers.map Server.query ++ queries,
          answer anySocket (some (environment servers)) query = some (expected query servers)) ↔
      (∀ server ∈ servers, Separable server) ∧
        ∀ query ∈ servers.map Server.query ++ queries, Unmasked query servers := by
  constructor
  · rintro ⟨_, answered⟩
    have separable : ∀ server ∈ servers, Separable server :=
      separable_of_answers servers fun server member =>
        answered _ (List.mem_append_left _ (List.mem_map_of_mem member))
    exact ⟨separable, fun query member =>
      (answer_iff query servers separable).mp (answered query member)⟩
  · rintro ⟨separable, unmasked⟩
    exact ⟨inherited_environment servers separable, fun query member =>
      (answer_iff query servers separable).mpr (unmasked query member)⟩

def unspecifiedAddress : Address := ⟨[58, 58], by decide, List.all_eq_true.mp rfl⟩

/-- A path with a comma is not found again; a path that is an address crashes the lookup of
that address and port; an address asked for as a path yields its port. -/
theorem separators_and_kinds_confused :
    (∃ path : Path, answer anySocket (some (environment [.unix path 5])) (.unix path) = some (-1)) ∧
      (∃ (path : Path) (address : Address),
        answer anySocket (some (environment [.unix path 80])) (.inet address 80) = none) ∧
      ∃ (address : Address) (path : Path),
        answer anySocket (some (environment [.inet address 80 5])) (.unix path) = some 80 := by
  refine ⟨⟨⟨[97, 44, 98], by decide⟩, ?_⟩, ⟨⟨[58, 58], by decide⟩, unspecifiedAddress, ?_⟩,
    ⟨unspecifiedAddress, ⟨[58, 58], by decide⟩, ?_⟩⟩
  · decide
  · decide
  · decide

end Xio.ListenFds
