import RouteServer.Policy.Client

/-!
# Policy — effective options

The options that hold for a client in a family, where the general configuration stands in for what
the client leaves open.
-/

namespace RouteServer.Policy

open RouteServer.Net

/-- The limit that a client states for a family. -/
def ClientMaxPrefix.ownLimit (p : ClientMaxPrefix) : Family → Option UInt32
  | .v4 => p.limitV4
  | .v6 => p.limitV6

/-- The community of routes whose origin is in a set of the client. -/
def General.tag (g : General) : Option Community :=
  g.communities.get? "origin_present_in_as_set"

/-- The community of blackhole routes. -/
def General.blackholing (g : General) : Option Community := g.communities.get? "blackholing"

namespace Client

/-- How many prefixes of a family a client may announce. -/
def limit (c : Client) (g : General) (f : Family) : UInt32 :=
  (c.cfg.filtering.maxPrefix.ownLimit f).getD (g.filtering.maxPrefix.generalLimit f)

/-- What is done when a client announces more. -/
def limitAction (c : Client) (g : General) : MaxPrefixAction :=
  (c.cfg.filtering.maxPrefix.action.or g.filtering.maxPrefix.action).getD .shutdown

/-- What a client is called: its description, or its id when there is none. -/
def called (c : Client) : String := (c.description.filter (· ≠ "")).getD c.id

/-- Whether routes from a client are tagged by the sets that their origins are in. -/
def isTagged (c : Client) (g : General) : Bool :=
  g.filtering.irr.tagAsSet && !c.cfg.filtering.irr.asSetIds.isEmpty

end Client

/-- What a client asks for that concerns single routes, in the family of its address. -/
structure RouteOptions where
  maxAsPathLen : UInt8
  nextHopPolicy : NextHopPolicy
  lengths : LengthRange
  prependRsAs : Bool
  deriving DecidableEq, Repr

namespace Client

/-- The route options of a client. -/
def routeOptions (c : Client) : RouteOptions :=
  ⟨c.cfg.filtering.maxAsPathLen, c.cfg.filtering.nextHopPolicy, c.lengths c.family,
    c.cfg.prependRsAs⟩

/-- A client with other route options, and nothing else changed. -/
def retune (c : Client) (o : RouteOptions) : Client :=
  { c with
    cfg.prependRsAs := o.prependRsAs
    cfg.filtering.maxAsPathLen := o.maxAsPathLen
    cfg.filtering.nextHopPolicy := o.nextHopPolicy
    cfg.filtering.lengthsV4 :=
      if c.family = .v4 then o.lengths else c.cfg.filtering.lengthsV4
    cfg.filtering.lengthsV6 :=
      if c.family = .v6 then o.lengths else c.cfg.filtering.lengthsV6 }

theorem routeOptions_retune (c : Client) (o : RouteOptions) : (c.retune o).routeOptions = o := by
  obtain ⟨maxAsPathLen, nextHopPolicy, lengths, prependRsAs⟩ := o
  have hlengths : (c.retune ⟨maxAsPathLen, nextHopPolicy, lengths, prependRsAs⟩).lengths c.family =
      lengths := by
    cases hf : c.family <;> simp [Client.lengths, retune, hf]
  exact congrArg (fun r => RouteOptions.mk maxAsPathLen nextHopPolicy r prependRsAs) hlengths

end Client

/-- The text of the next hop that blackhole routes of a family get. -/
def Blackhole.nextHopText (b : Blackhole) : Family → Option String
  | .v4 => b.nextHopV4.map Address.v4Text
  | .v6 => b.nextHopV6.map Address.v6Text

/-- What is written for that next hop, also when there is none. -/
def Blackhole.nextHopWord (b : Blackhole) (f : Family) : String := (b.nextHopText f).getD "None"

/-- A policy that replaces next hops has one to put there. -/
def Blackhole.HasNextHop (b : Blackhole) (f : Family) : Prop :=
  b.policy f = some .rewriteNextHop → (b.nextHopText f).isSome

end RouteServer.Policy
