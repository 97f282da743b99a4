import RouteServer.Proofs.Build.Context
import RouteServer.Proofs.Policy.Options
import RouteServer.Proofs.Shipped.OpenBgpd.Syntax

/-!
# Shipped — OpenBGPD — text
-/

namespace RouteServer.Shipped.OpenBgpd

open RouteServer.Build RouteServer.Net RouteServer.Policy RouteServer.Text
open RouteServer.Template (Environment Expr Stmt Meaning PlainCalls Scope Value plainAll given
  each path only plain_each plain_eachPair plain_given)
open RouteServer.Template.Render (maxDepth)

variable {env : Environment} {family : Option Family} {pc : PlainCalls} {d : Nat} {ρ : Scope}

/-! ### Prefixes and sets -/

def bogonText (family : Option Family) (b : Bogon) : List String :=
  if inBuild family b.address then
    ["\t", b.address.text, "/", byteText b.length, " or-longer\n"]
  else []

def bogonsText (family : Option Family) (bs : List Bogon) : List String :=
  ["prefix-set bogons \x7b\n"] ++ bs.flatMap (bogonText family) ++ ["\x7d\n\n"]

theorem plain_bogonBody (h : Serves env family) {b : Bogon}
    (hb : ρ.lookup "b" = some (.value (.ofYaml b.toValue))) :
    plainAll env pc d ρ bogonBody = some (ρ, bogonText family b) := by
  simp [bogonBody, hb, h.current, h.string, h.nat, bogonText, uint8Value, byteText]

theorem plain_bogons (h : Serves env family) (hd : d < maxDepth) {bs : List Bogon}
    (hb : ρ.lookup "bogons" = some (.value (.ofYaml (.list (bs.map Bogon.toValue))))) :
    plainAll env pc d ρ bogonsBody = some (ρ, bogonsText family bs) := by
  have hloop : eachBogon.plain env pc d ρ = some (ρ, bs.flatMap (bogonText family)) :=
    plain_each [] (by simp [hb, Function.comp_def]) hd rfl (by decide)
      fun b _ loop => ⟨_, plain_bogonBody h rfl⟩
  simp [bogonsBody, hloop, bogonsText]

def prefixText (family : Option Family) (p : SetPrefix) : List String :=
  if inBuild family p.address then
    ["\t", p.address.text, "/", byteText p.length, " prefixlen ", byteText p.minLength, " - ",
     byteText p.maxLength, "\n"]
  else []

def setText (family : Option Family) (id : String) (s : ResolvedSet) : List String :=
  ["# ", s.name, "\nas-set ", id, " \x7b\n"] ++ s.asns.flatMap (fun n => ["\t", n.text, "\n"]) ++
  ["\x7d\nprefix-set ", id, "_prefixes \x7b\n"] ++ s.prefixes.flatMap (prefixText family) ++
  ["\x7d\n\n"]

def setsText (family : Option Family) (sets : Dictionary ResolvedSet) : List String :=
  sets.entries.flatMap fun e => setText family e.1 e.2

theorem plain_prefixBody (h : Serves env family) {p : SetPrefix}
    (hp : ρ.lookup "p" = some (.value (.ofYaml p.toValue))) :
    plainAll env pc d ρ prefixBody = some (ρ, prefixText family p) := by
  simp [prefixBody, hp, h.current, h.string, h.nat, prefixText, uint8Value, byteText]

theorem plain_setBody (h : Serves env family) (hd : d < maxDepth) {id : String}
    {s : ResolvedSet} (hid : ρ.lookup "id" = some (.value (.string id)))
    (hs : ρ.lookup "set" = some (.value (.ofYaml s.toValue))) :
    plainAll env pc d ρ setBody = some (ρ, setText family id s) := by
  have horigins : eachOrigin.plain env pc d ρ =
      some (ρ, s.asns.flatMap fun n => ["\t", n.text, "\n"]) :=
    plain_each [] (f := fun n => Value.nat n.toNat)
      (by simp [hs, Function.comp_def]) hd rfl (by decide)
      fun n _ loop => ⟨_, by simp [originBody, Template.roundScope, h.nat, Asn.text]; rfl⟩
  have hprefixes : eachPrefix.plain env pc d ρ = some (ρ, s.prefixes.flatMap (prefixText family)) :=
    plain_each [] (by simp [hs, Function.comp_def]) hd rfl (by decide)
      fun p _ loop => ⟨_, plain_prefixBody h rfl⟩
  simp [setBody, hid, hs, horigins, hprefixes, h.string, setText]

theorem plain_sets (h : Serves env family) (hd : d + 1 < maxDepth) {sets : Dictionary ResolvedSet}
    (hs : ρ.lookup "as_sets" =
      some (.value (.ofYaml (dictionaryValue ResolvedSet.toValue sets)))) :
    plainAll env pc d ρ setsBody = some (ρ, setsText family sets) := by
  have hloop : eachSet.plain env pc d ρ =
      some (ρ, sets.entries.flatMap fun e => setText family e.1 e.2) :=
    plain_eachPair []
      (by simp [hs, h.items, dictionaryValue, Value.ofYaml_ofFields, Function.comp_def])
      (by omega) rfl (by decide) fun e _ loop => ⟨_, plain_setBody h hd rfl rfl⟩
  simp [setsBody, hloop, setsText]

end RouteServer.Shipped.OpenBgpd
