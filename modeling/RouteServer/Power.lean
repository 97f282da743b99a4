/-!
# Power

Powers of the two bases that numbers are written in.
-/

namespace RouteServer

/-- A power of two. -/
def twoTo (k : Nat) : Nat := Nat.pow 2 k

/-- A power of ten. -/
def tenTo (k : Nat) : Nat := Nat.pow 10 k

end RouteServer
