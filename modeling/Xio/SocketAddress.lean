import Xio.ServerSocket

/-!
The socket addresses that `Socket::open` and `SocketDriver::create` pass to `::connect` and
`InetServer::bind` passes to `::bind`: `lib/Socket.cpp`, `lib/SocketDriver.cpp` and
`lib/InetServer.cpp`. The structures are those of Linux on a little-endian machine; the
memory in which they are built is arbitrary before `memset`.
-/

namespace Xio

open Storage

namespace SocketAddress

/-- Where a structure has its address, how many bytes that holds, and `sizeof`. Both
structures begin with two bytes of family and two of port. -/
structure Layout where
  address : Nat
  room : Nat
  size : Nat

def sockaddr_in : Layout := ⟨4, 4, 16⟩

def sockaddr_in6 : Layout := ⟨8, 16, 28⟩

def AF_INET : List UInt8 := [2, 0]

def AF_INET6 : List UInt8 := [10, 0]

-- An `int` becomes an `uint16_t` in network order.
def htons (port : Int) : List UInt8 :=
  [UInt8.ofNat ((port % 65536).toNat / 256), UInt8.ofNat ((port % 65536).toNat % 256)]

-- `memset(&memory, 0, size)`
def cleared (memory : Memory UInt8) (size : Nat) : Memory UInt8 :=
  store memory 0 (List.replicate size 0)

/-- The structure as the system call finds it, and how many bytes were copied to its
address field. -/
structure Passed where
  layout : Layout
  memory : Memory UInt8
  copied : Nat

namespace Passed

def family (passed : Passed) : Nat := (passed.memory 0).toNat + 256 * (passed.memory 1).toNat

def port (passed : Passed) : Nat := 256 * (passed.memory 2).toNat + (passed.memory 3).toNat

def address (passed : Passed) : List UInt8 :=
  load passed.memory passed.layout.address passed.layout.room

def length (passed : Passed) : Nat := passed.layout.size

def Fits (passed : Passed) : Prop := passed.copied ≤ passed.layout.room

end Passed

/-- Port, family and address, in this order. -/
def fill (memory : Memory UInt8) (layout : Layout) (family : List UInt8) (ipaddr : IPAddress)
    (port : Int) : Passed :=
  ⟨layout, store (store (store memory 2 (htons port)) 0 family) layout.address ipaddr.bytes,
    ipaddr.size⟩

end SocketAddress

open SocketAddress

/-- The argument of `::connect` in `Socket::open`: one array for both structures. -/
def Socket.sockaddr (buf : Memory UInt8) (ipaddr : IPAddress) (port : Int) : Option Passed :=
  let buf := cleared buf sockaddr_in6.size
  if ipaddr.family = IPAddress.V4 then some (fill buf sockaddr_in AF_INET ipaddr port)
  else if ipaddr.family = IPAddress.V6 then some (fill buf sockaddr_in6 AF_INET6 ipaddr port)
  else none

/-- The argument of `::connect` in `SocketDriver::create`: a structure for each family. -/
def SocketDriver.sockaddr (sin : Memory UInt8) (ipaddr : IPAddress) (port : Int) : Option Passed :=
  if ipaddr.family = IPAddress.V4 then
    some (fill (cleared sin sockaddr_in.size) sockaddr_in AF_INET ipaddr port)
  else if ipaddr.family = IPAddress.V6 then
    some (fill (cleared sin sockaddr_in6.size) sockaddr_in6 AF_INET6 ipaddr port)
  else none

/-- The argument of `::bind` in `InetServer::bind`. The family is not asked and not set. -/
def InetServer.sockaddr (sin : Memory UInt8) (ipaddr : IPAddress) (port : Int) : Passed :=
  let sin := cleared sin sockaddr_in.size
  ⟨sockaddr_in, store (store sin sockaddr_in.address ipaddr.bytes) 2 (htons port), ipaddr.size⟩

namespace SocketAddress

structure Same (left right : Passed) : Prop where
  family : left.family = right.family
  port : left.port = right.port
  address : left.address = right.address
  length : left.length = right.length

structure Names (passed : Passed) (ipaddr : IPAddress) (port : Int) : Prop where
  family : (passed.family : Int) = ipaddr.family
  port : (passed.port : Int) = port % 65536
  address : passed.address = ipaddr.bytes
  fits : passed.Fits

theorem htons_port (memory : Memory UInt8) (port : Int) :
    ((256 * (store memory 2 (htons port) 2).toNat +
      (store memory 2 (htons port) 3).toNat : Nat) : Int) =
      port % 65536 := by
  change ((256 * (UInt8.ofNat ((port % 65536).toNat / 256)).toNat +
    (UInt8.ofNat ((port % 65536).toNat % 256)).toNat : Nat) : Int) = port % 65536
  rw [UInt8.toNat_ofNat', UInt8.toNat_ofNat']
  omega

section
variable (memory : Memory UInt8) (ipaddr : IPAddress) (port : Int)

-- The address lies behind the first four bytes.
theorem fill_front (layout : Layout) (family : List UInt8) (position : Nat)
    (behind : 4 ≤ layout.address) (early : position < 4) :
    (fill memory layout family ipaddr port).memory position =
      store (store memory 2 (htons port)) 0 family position :=
  store_outside _ layout.address position ipaddr.bytes (Or.inl (by omega))

theorem fill_port (layout : Layout) (low high : UInt8) (behind : 4 ≤ layout.address) :
    ((fill memory layout [low, high] ipaddr port).port : Int) = port % 65536 := by
  rw [Passed.port, fill_front _ _ _ _ _ 2 behind (by omega),
    fill_front _ _ _ _ _ 3 behind (by omega)]
  exact htons_port memory port

theorem fill_family (layout : Layout) (low high : UInt8) (behind : 4 ≤ layout.address) :
    (fill memory layout [low, high] ipaddr port).family = low.toNat + 256 * high.toNat := by
  rw [Passed.family, fill_front _ _ _ _ _ 0 behind (by omega),
    fill_front _ _ _ _ _ 1 behind (by omega)]
  rfl

theorem fill_address (layout : Layout) (family : List UInt8) (whole : layout.room = ipaddr.size) :
    (fill memory layout family ipaddr port).address = ipaddr.bytes := by
  have length : ipaddr.bytes.length = ipaddr.size := load_length _ _ _
  have stored := load_store_self (store (store memory 2 (htons port)) 0 family) layout.address
    ipaddr.bytes
  rw [length, ← whole] at stored
  exact stored

theorem fill_names (layout : Layout) (low high : UInt8) (behind : 4 ≤ layout.address)
    (whole : layout.room = ipaddr.size)
    (number : (low.toNat + 256 * high.toNat : Nat) = ipaddr.family) :
    Names (fill memory layout [low, high] ipaddr port) ipaddr port where
  family := by rw [fill_family _ _ _ _ _ _ behind, number]
  port := fill_port _ _ _ _ _ _ behind
  address := fill_address _ _ _ _ _ whole
  fits := whole.ge

theorem v4_names (four : ipaddr.family = IPAddress.V4) :
    Names (fill memory sockaddr_in AF_INET ipaddr port) ipaddr port := by
  apply fill_names
  · decide
  · rw [IPAddress.size, four]
    rfl
  · rw [four]
    rfl

theorem v6_names (six : ipaddr.family = IPAddress.V6) :
    Names (fill memory sockaddr_in6 AF_INET6 ipaddr port) ipaddr port := by
  apply fill_names
  · decide
  · rw [IPAddress.size, six]
    rfl
  · rw [six]
    rfl

theorem bind_port : ((InetServer.sockaddr memory ipaddr port).port : Int) = port % 65536 :=
  htons_port (store (cleared memory sockaddr_in.size) sockaddr_in.address ipaddr.bytes) port

-- Both bytes are those that `memset` has left.
theorem bind_family : (InetServer.sockaddr memory ipaddr port).family = 0 := by
  have front (position : Nat) (early : position < 2) :
      (InetServer.sockaddr memory ipaddr port).memory position =
        cleared memory sockaddr_in.size position := by
    refine (store_outside _ 2 position (htons port) (Or.inl early)).trans ?_
    exact store_outside _ 4 position ipaddr.bytes (Or.inl (by omega))
  rw [Passed.family, front 0 (by omega), front 1 (by omega)]
  rfl

theorem bind_address (four : ipaddr.family = IPAddress.V4) :
    (InetServer.sockaddr memory ipaddr port).address = ipaddr.bytes := by
  have length : ipaddr.bytes.length = 4 := by
    rw [IPAddress.bytes, load_length, IPAddress.size, four]
    rfl
  have stored := load_store_self (cleared memory sockaddr_in.size) sockaddr_in.address ipaddr.bytes
  rw [length] at stored
  rw [← stored]
  -- the port lies before the address
  apply load_congr
  intro position inside _
  exact store_outside _ _ _ _ (Or.inr inside)

end

theorem same_of_names (left right : Passed) (ipaddr : IPAddress) (port : Int)
    (first : Names left ipaddr port) (second : Names right ipaddr port)
    (length : left.length = right.length) : Same left right where
  family := Int.ofNat_inj.mp (first.family.trans second.family.symm)
  port := Int.ofNat_inj.mp (first.port.trans second.port.symm)
  address := first.address.trans second.address.symm
  length := length

theorem bind_port_family (sin : Memory UInt8) (ipaddr : IPAddress) (port : Int) (connect : Passed)
    (names : Names connect ipaddr port) (internet : ipaddr.toBool = true) :
    (InetServer.sockaddr sin ipaddr port).port = connect.port ∧
      (InetServer.sockaddr sin ipaddr port).family ≠ connect.family := by
  refine ⟨Int.ofNat_inj.mp ((bind_port sin ipaddr port).trans names.port.symm), ?_⟩
  intro same
  have family := names.family
  rw [← same, bind_family] at family
  rw [IPAddress.toBool, ← family] at internet
  exact absurd internet (by decide)

/-- The clients pass the same socket address, and it names what they connect to. What
`InetServer::bind` passes has the right address and length, and room for the address, exactly
for IPv4; it has the right port always and the right family never. -/
theorem bind_connect_iff (ipaddr : IPAddress) (port : Int) (internet : ipaddr.toBool = true)
    (buf sin sin' : Memory UInt8) :
    ∃ connect create, Socket.sockaddr buf ipaddr port = some connect ∧
      SocketDriver.sockaddr sin ipaddr port = some create ∧ Same create connect ∧
      Names connect ipaddr port ∧ Names create ipaddr port ∧
      ((InetServer.sockaddr sin' ipaddr port).address = connect.address ∧
          (InetServer.sockaddr sin' ipaddr port).length = connect.length ∧
          (InetServer.sockaddr sin' ipaddr port).Fits ↔ ipaddr.family = IPAddress.V4) ∧
      (InetServer.sockaddr sin' ipaddr port).port = connect.port ∧
      (InetServer.sockaddr sin' ipaddr port).family ≠ connect.family := by
  rcases of_decide_eq_true internet with four | six
  · have connect := v4_names (cleared buf sockaddr_in6.size) ipaddr port four
    have create := v4_names (cleared sin sockaddr_in.size) ipaddr port four
    refine ⟨_, _, if_pos four, if_pos four, same_of_names _ _ ipaddr port create connect rfl,
      connect, create, ?_, bind_port_family sin' ipaddr port _ connect internet⟩
    refine iff_of_true ⟨?_, rfl, connect.fits⟩ four
    rw [bind_address sin' ipaddr port four, connect.address]
  · have other : ipaddr.family ≠ IPAddress.V4 := by
      rw [six]
      decide
    have connect := v6_names (cleared buf sockaddr_in6.size) ipaddr port six
    have create := v6_names (cleared sin sockaddr_in6.size) ipaddr port six
    refine ⟨_, _, (if_neg other).trans (if_pos six), (if_neg other).trans (if_pos six),
      same_of_names _ _ ipaddr port create connect rfl, connect, create, ?_,
      bind_port_family sin' ipaddr port _ connect internet⟩
    refine iff_of_false ?_ other
    rintro ⟨_, length, _⟩
    have shorter : (16 : Nat) = 28 := length
    omega

def loopback : IPAddress := ⟨IPAddress.V4, store (fun _ => 0) 0 [127, 0, 0, 1]⟩

theorem bind_connect_iff_loopback :
    loopback.toBool = true ∧ ∃ connect, Socket.sockaddr (fun _ => 0) loopback 80 = some connect ∧
      (InetServer.sockaddr (fun _ => 0) loopback 80).address = connect.address ∧
      (InetServer.sockaddr (fun _ => 0) loopback 80).family ≠ connect.family := by
  refine ⟨by decide, ?_⟩
  obtain ⟨connect, _, passed, _, _, _, _, same, _, differs⟩ :=
    bind_connect_iff loopback 80 (by decide) (fun _ => 0) (fun _ => 0) (fun _ => 0)
  exact ⟨connect, passed, (same.mpr rfl).1, differs⟩

/-- For an IPv4 address the family is `AF_UNSPEC`; of an IPv6 address 16 bytes are copied to a
field of four, up to four bytes behind the structure. -/
theorem bound_address_malformed :
    (InetServer.sockaddr (fun _ => 0) loopback 80).family = 0 ∧
      (Socket.sockaddr (fun _ => 0) loopback 80).map Passed.family = some 2 ∧
      let passed := InetServer.sockaddr (fun _ => 0) ⟨IPAddress.V6, fun _ => 1⟩ 80
      passed.length = 16 ∧ passed.layout.room = 4 ∧ passed.layout.address + passed.copied = 20 ∧
        (Socket.sockaddr (fun _ => 0) ⟨IPAddress.V6, fun _ => 1⟩ 80).map Passed.length =
          some 28 := by
  decide

end SocketAddress

end Xio
