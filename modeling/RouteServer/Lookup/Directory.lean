import RouteServer.Lookup.Codec
import RouteServer.Lookup.Failure
import RouteServer.Text.Split

/-!
# Lookup — Directory

The directory of networks, which is asked over the network.  Where it is kept is a base address; the
slashes at its end do not count.  Nothing here connects, so every question ends in a refusal.
-/

namespace RouteServer.Lookup

open RouteServer.Net RouteServer.Text

/-- The directory at an address. -/
structure Directory where
  base : String
  deriving DecidableEq, Repr

/-- The text without the characters equal to `c` at its end. -/
def withoutTrailing (c : Char) (s : String) : String :=
  String.ofList (s.toList.reverse.dropWhile (· = c)).reverse

namespace Directory

/-- The address of the public directory. -/
def publicAddress : String := "https://www.peeringdb.com/api"

/-- The directory at an address. -/
def ofAddress (address : String) : Directory := ⟨withoutTrailing '/' address⟩

/-- The address of the record of a network. -/
def netAddress (d : Directory) (asn : Asn) : String := d.base ++ "/net?asn=" ++ Asn.text asn

/-- The record of a network. -/
def net (_ : Directory) (_ : Asn) : Except Failure (Option NetRecord) := .error ⟨[], .noConnection⟩

end Directory

end RouteServer.Lookup
