import RouteServer.Power
import RouteServer.Text.Numeral
import RouteServer.Text.Split

/-!
# Net — Address

IP addresses of both families and their texts.

An IPv4 address is four decimal octets without leading zeros.  An IPv6 address is eight groups of
one to four hexadecimal digits, of which one run may be written `::`, and of which the last two may
be written as an IPv4 address.  `text` gives the one canonical form: the longest run of at least two
zero groups is shortened, the first of several, and only an address that embeds an IPv4 address
(`::ffff:0:0/96`) ends in one.
-/

namespace RouteServer.Net

open RouteServer.Text

/-- The two address families. -/
inductive Family where
  | v4
  | v6
  deriving DecidableEq, Repr

/-- The number a family is known by. -/
def Family.number : Family → Nat
  | .v4 => 4
  | .v6 => 6

/-- The bits of an address of the family. -/
def Family.width : Family → Nat
  | .v4 => 32
  | .v6 => 128

/-- The family of a number. -/
def Family.ofNumber? (n : Nat) : Option Family :=
  if n = 4 then some .v4 else if n = 6 then some .v6 else none

/-- An IP address. -/
inductive Address where
  | v4 (bits : BitVec 32)
  | v6 (bits : BitVec 128)
  deriving DecidableEq, Repr

namespace Address

/-- The family of an address. -/
def family : Address → Family
  | .v4 _ => .v4
  | .v6 _ => .v6

/-- Whether the address is of the fourth version. -/
def isV4 (a : Address) : Bool := a.family = .v4

/-- The address as a number. -/
def toNat : Address → Nat
  | .v4 bits => bits.toNat
  | .v6 bits => bits.toNat

/-! ### Reading -/

/-- Reads an octet: one to three digits, no zero in front of another digit, at most 255. -/
def readOctet (cs : List Char) : Option Nat :=
  match cs with
  | [] => none
  | ['0'] => some 0
  | '0' :: _ => none
  | cs => if cs.length ≤ 3 then (readDigits 255 0 cs).toOption else none

/-- Four octets as one number, the first the most significant. -/
def ofOctets (a b c d : Nat) : Nat := ((a * 256 + b) * 256 + c) * 256 + d

/-- Reads four octets with points between them. -/
def readV4 (cs : List Char) : Option (BitVec 32) :=
  match splitAt '.' cs with
  | [a, b, c, d] => do
    let a ← readOctet a
    let b ← readOctet b
    let c ← readOctet c
    let d ← readOctet d
    some (BitVec.ofNat 32 (ofOctets a b c d))
  | _ => none

/-- Continues a group of hexadecimal digits whose value so far is `n`. -/
def readHex : Nat → List Char → Option Nat
  | n, [] => some n
  | n, c :: cs => (hexDigit? c).bind fun d => readHex (16 * n + d) cs

/-- Reads a group: one to four hexadecimal digits. -/
def readGroup (cs : List Char) : Option Nat :=
  if cs = [] ∨ 4 < cs.length then none else readHex 0 cs

/-- Reads groups, the last of which may be four octets that stand for two. -/
def readGroups (octets : List Char → Option Nat) : List (List Char) → Option (List Nat)
  | [] => some []
  | [last] =>
    match octets last with
    | some n => some [n / 65536, n % 65536]
    | none => (readGroup last).map ([·])
  | cs :: rest => do
    let g ← readGroup cs
    let gs ← readGroups octets rest
    some (g :: gs)

/-- Reads the groups on one side of the `::`: none at all when nothing stands there. -/
def readSide (octets : List Char → Option Nat) (cs : List Char) : Option (List Nat) :=
  if cs = [] then some [] else readGroups octets (splitAt ':' cs)

/-- Eight groups as one number, the first the most significant. -/
def ofGroups (gs : List Nat) : BitVec 128 :=
  BitVec.ofNat 128 (gs.foldl (fun n g => n * 65536 + g) 0)

/-- Reads groups, one run of which may be written `::`; it stands for `least` groups at least.
The last thirty-two bits may be written as `octets` reads them, but not in front of the `::`. -/
def readV6With (octets : List Char → Option Nat) (least : Nat) (cs : List Char) :
    Option (BitVec 128) :=
  match splitOnce [':', ':'] cs with
  | none => do
    let gs ← readGroups octets (splitAt ':' cs)
    if gs.length = 8 then some (ofGroups gs) else none
  | some (head, tail) => do
    let hs ← readSide (fun _ => none) head
    let ts ← readSide octets tail
    if hs.length < 8 ∧ hs.length + least + ts.length ≤ 8 then
      some (ofGroups (hs ++ List.replicate (8 - hs.length - ts.length) 0 ++ ts))
    else none

/-- Reads an IPv6 address. -/
def readV6 (cs : List Char) : Option (BitVec 128) :=
  readV6With (fun cs => (readV4 cs).map BitVec.toNat) 1 cs

/-- Reads an address of either family. -/
def read (s : String) : Option Address :=
  match readV4 s.toList with
  | some bits => some (.v4 bits)
  | none => (readV6 s.toList).map .v6

/-! ### Writing -/

/-- The canonical text of an IPv4 address. -/
def v4Text (bits : BitVec 32) : String :=
  let n := bits.toNat
  ".".intercalate
    [natText (n / 16777216), natText (n / 65536 % 256), natText (n / 256 % 256), natText (n % 256)]

/-- The eight groups of an IPv6 address. -/
def groups (bits : BitVec 128) : List Nat :=
  (List.range 8).map fun i => bits.toNat / twoTo (16 * (7 - i)) % 65536

/-- How many zeros a list starts with. -/
def zerosAtStart : List Nat → Nat
  | 0 :: gs => zerosAtStart gs + 1
  | _ => 0

/-- Where the longest run of zero groups starts and how long it is; of several the first. -/
def longestRun (gs : List Nat) : Nat × Nat :=
  (List.range gs.length).foldl
    (fun best i =>
      let n := zerosAtStart (gs.drop i)
      if best.2 < n then (i, n) else best)
    (0, 0)

/-- Groups with colons between them. -/
def groupsText (gs : List Nat) : String :=
  ":".intercalate (gs.map fun g => String.ofList (hexDigits g))

/-- The canonical text of an IPv6 address. -/
def v6Text (bits : BitVec 128) : String :=
  let n := bits.toNat
  if n / twoTo 32 = 0xffff then "::ffff:" ++ v4Text (BitVec.ofNat 32 n)
  else
    let gs := groups bits
    let (start, count) := longestRun gs
    if count < 2 then groupsText gs
    else groupsText (gs.take start) ++ "::" ++ groupsText (gs.drop (start + count))

/-- The canonical text of an address. -/
def text : Address → String
  | .v4 bits => v4Text bits
  | .v6 bits => v6Text bits

end Address

end RouteServer.Net
