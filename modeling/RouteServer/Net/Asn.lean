import RouteServer.Text.Numeral
import RouteServer.Text.Split

/-!
# Net — Asn

Numbers of autonomous systems: 32 bits.  Zero is no number that a document may give, so
`Asn.ofNat?` refuses it.
-/

namespace RouteServer.Net

open RouteServer.Text

/-- The number of an autonomous system. -/
abbrev Asn := UInt32

namespace Asn

/-- The AS number of value `n`, when there is one. -/
def ofNat? (n : Nat) : Option Asn :=
  if 0 < n ∧ n ≤ maxWord32 then some (UInt32.ofNat n) else none

/-- Reads a number after an optional `AS` or `as`. -/
def read (s : String) : Option Asn :=
  let cs := s.toList
  let cs := ((stripStart ['A', 'S'] cs).orElse fun _ => stripStart ['a', 's'] cs).getD cs
  (readNat maxWord64 cs).toOption.bind ofNat?

/-- The decimal text of an AS number. -/
def text (n : Asn) : String := natText n.toNat

/-- The name of an autonomous system. -/
def name (n : Asn) : String := "AS" ++ text n

end Asn

end RouteServer.Net
