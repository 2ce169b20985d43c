import Xio.ListenFds

/-!
The three readers of `XZERO_LISTEN_FDS` on text that no server has written. `strtok_r` yields
a null pointer where a record has no further field, and none of the readers looks before it
passes the pointer on. How many fields a lookup asks of a record depends on the fields that it
has seen, and the lookup ends at the first record that matches.
-/

namespace Xio.InheritedSockets

open Tokens ListenFds

def fieldCount (token : List UInt8) : Nat := (tokens 44 token).length

-- The records that have as many fields as an answer is read from.
def whole (enough : Nat) (records : List (List UInt8)) : List (List UInt8) :=
  records.filter fun token => enough ≤ fieldCount token

section Lookups
variable {find : List (List UInt8) → Option Int} {needed : List UInt8 → Nat} {enough : Nat}

end Lookups

end Xio.InheritedSockets
