import RouteServer.Net.Address

/-!
# Net — Network

An address with a length.  The length fits the family of the address; bits beyond it may be set,
and `hasHostBits` says whether some are.

The text of a network is read more freely than that of an address: an octet may have zeros in
front, within its three digits, and `::` may stand for no group at all.
-/

namespace RouteServer.Net

open RouteServer.Text

/-- An address and how many of its first bits count. -/
structure Network where
  address : Address
  length : Nat
  fits : length ≤ address.family.width := by omega
  deriving DecidableEq

namespace Network

/-- The address with `length` bits, when it has that many. -/
def ofLength? (address : Address) (length : Nat) : Option Network :=
  if h : length ≤ address.family.width then some ⟨address, length, h⟩ else none

/-- The number of bits that do not count. -/
def hostWidth (n : Network) : Nat := n.address.family.width - n.length

/-- Whether a bit beyond the length is set. -/
def hasHostBits (n : Network) : Bool := n.address.toNat % twoTo n.hostWidth ≠ 0

/-- The text of a network. -/
def text (n : Network) : String := n.address.text ++ "/" ++ natText n.length

/-- Reads at most `width` digits of a number at most `max`. -/
def readShort (width max : Nat) (cs : List Char) : Option Nat :=
  if cs = [] ∨ width < cs.length then none else (readDigits max 0 cs).toOption

/-- Reads four octets of up to three digits. -/
def readOctets (cs : List Char) : Option Nat :=
  match splitAt '.' cs with
  | [a, b, c, d] => do
    let a ← readShort 3 255 a
    let b ← readShort 3 255 b
    let c ← readShort 3 255 c
    let d ← readShort 3 255 d
    some (Address.ofOctets a b c d)
  | _ => none

/-- Reads a network: an address, a slash and a length of at most as many digits as the greatest
one has. -/
def read (s : String) : Option Network :=
  match splitAt '/' s.toList with
  | [host, len] =>
    match readOctets host with
    | some n => (readShort 2 32 len).bind (ofLength? (.v4 (BitVec.ofNat 32 n)))
    | none => do
      let bits ← Address.readV6With readOctets 0 host
      let length ← readShort 3 128 len
      ofLength? (.v6 bits) length
  | _ => none

end Network

end RouteServer.Net
