import RouteServer.Build.Rendering
import RouteServer.Proofs.Shipped.Parse
import RouteServer.Proofs.Template.Forms
import RouteServer.Proofs.Template.Refinement
import RouteServer.Shipped.Context

/-!
# Shipped — Context

The template that shows what the others are given is one dictionary, written as a document
(`render_eq`).
-/

namespace RouteServer.Shipped.Context

open RouteServer.Build RouteServer.Net RouteServer.Policy
open RouteServer.Template

/-- The names that are shown, in this order. -/
def shownNames : List String :=
  ["ip_ver", "live_tests", "cfg", "bogons", "clients", "asns", "as_sets", "roas"]

/-- The statements of the template. -/
def mainBody : List Stmt :=
  [.print (.filter "to_yaml" (.dict (shownNames.map fun n => (str n, .var n))) []), .text "\n"]

theorem parse_mainTemplate : parse mainTemplate = some mainBody :=
  parse_of_parsesTo (by decide +kernel)

/-- The dictionary that is shown. -/
def shown (c : Configuration) (family : Option Family) (liveTests : Bool) : Value :=
  let entries : List (String × Yaml.Value) :=
    [("ip_ver", optionValue (fun f => .nat f.number) family), ("live_tests", .bool liveTests),
     ("cfg", c.general.toValue), ("bogons", .list (c.bogons.map Bogon.toValue)),
     ("clients", .list (c.clients.map Client.toValue)), ("asns", asnsValue c.asns),
     ("as_sets", dictionaryValue ResolvedSet.toValue c.asSets),
     ("roas", optionValue roasValue c.roas)]
  .mapping ((entries.map fun e => (Value.string e.1, Value.ofYaml e.2)).foldl
    (fun done e => Value.place e.1 e.2 done) [])

/-- What is written for a configuration. -/
def fullText (c : Configuration) (family : Option Family) (liveTests : Bool) : List String :=
  [Yaml.print (shown c family liveTests).toYaml, "\n"]

variable {env : Environment} {c : Configuration} {family : Option Family} {liveTests : Bool}

theorem plain_main {pc : PlainCalls} {d : Nat}
    (hfilter : env.filters.lookup "to_yaml" = some (Builtin.simple Helper.document))
    (hstring : ∀ s, written? env (.string s) = some s) :
    plainAll env pc d (rootScope ((context c family liveTests).map fun e => (e.1, .ofYaml e.2)))
        mainBody =
      some (rootScope ((context c family liveTests).map fun e => (e.1, .ofYaml e.2)),
        fullText c family liveTests) := by
  simp [mainBody, shownNames, plainEntries, context, rootScope, hfilter, Builtin.simple,
    Helper.document, hstring, fullText, shown]

/-- **The whole of rendering**, for every configuration. -/
theorem render_eq (hload : env.load "main.j2" = .ok mainBody)
    (hfilter : env.filters.lookup "to_yaml" = some (Builtin.simple Helper.document))
    (hstring : ∀ s, written? env (.string s) = some s)
    (hroot : env.root = (context c family liveTests).map fun e => (e.1, .ofYaml e.2)) :
    Template.render env "main.j2" = .ok (String.join (fullText c family liveTests)) :=
  render_of_plain hload (by rw [hroot]; exact plain_main hfilter hstring)

end RouteServer.Shipped.Context
