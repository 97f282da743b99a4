import RouteServer.Cache.Store

/-!
# Enrich — Query

The questions that enrichment asks, each with the type of its answer.  A question has a key in the
cache and a label in messages, and questions that differ have different keys.

What can be asked outside are the routing registries about sets of autonomous systems, and the
directory of networks about one of them.  The answers are functions of the questions.
-/

namespace RouteServer.Lookup

open RouteServer.Net RouteServer.Policy

/-- Whom to ask. -/
structure Sources where
  /-- The origins in a set, or in a single autonomous system. -/
  origins : String → Except Failure (List Asn)
  /-- The prefixes of a set in one family. -/
  prefixes : String → Family → Except Failure (List SetPrefix)
  /-- The record of a network; there may be none. -/
  net : Asn → Except Failure (Option NetRecord)

end RouteServer.Lookup

namespace RouteServer.Enrich

open RouteServer.Cache RouteServer.Lookup RouteServer.Net RouteServer.Policy RouteServer.Text
open RouteServer.Time

/-- A question. -/
inductive Query where
  /-- The origins in a set. -/
  | origins (name : String)
  /-- The prefixes of a set in one family. -/
  | prefixes (name : String) (family : Family)
  /-- The record of a network. -/
  | net (asn : Asn)
  deriving DecidableEq, Repr

namespace Query

/-- The type of the answer to a question. -/
abbrev Answer : Query → Type
  | .origins _ => List Asn
  | .prefixes _ _ => List SetPrefix
  | .net _ => Option NetRecord

/-- How the answer to a question is kept. -/
def codec : (q : Query) → Codec q.Answer
  | .origins _ => .list .uint32
  | .prefixes _ _ => .list .setPrefix
  | .net _ => .option .netRecord

/-- Asks a question. -/
def ask (s : Sources) : (q : Query) → Except Failure q.Answer
  | .origins name => s.origins name
  | .prefixes name family => s.prefixes name family
  | .net asn => s.net asn

/-- The key under which the answer to a question is kept. -/
def key : Query → String
  | .origins name => "irr:origins:" ++ name
  | .prefixes name family => "irr:prefixes" ++ natText family.number ++ ":" ++ name
  | .net asn => "peeringdb:net:" ++ Asn.text asn

/-- What a message says the question is about. -/
def label : Query → String
  | .origins name => name
  | .prefixes name family => name ++ " (IPv" ++ natText family.number ++ ")"
  | .net asn => Asn.text asn

end Query

/-- A question with what came of it. -/
structure Answered where
  query : Query
  result : Except Failure query.Answer

namespace Answered

/-- The line about a question that was not answered. -/
def failure? (a : Answered) : Option String :=
  match a.result with
  | .ok _ => none
  | .error e => some (a.query.label ++ ": " ++ e.text)

end Answered

/-- What comes of some questions. -/
structure Resolution where
  answered : List Answered
  cache : Cache.State
  /-- The questions that the cache could not answer. -/
  asked : List Query

/-- Answers questions one after the other, from the cache where it can. -/
def resolve (sources : Sources) (now : Instant) : List Query → Cache.State → Resolution
  | [], cache => ⟨[], cache, []⟩
  | q :: qs, cache =>
    let o := cache.store.lookup cache.files now q.codec q.key (q.ask sources)
    let rest := resolve sources now qs o.state
    ⟨⟨q, o.result⟩ :: rest.answered, rest.cache, if o.fetched then q :: rest.asked else rest.asked⟩

end RouteServer.Enrich
