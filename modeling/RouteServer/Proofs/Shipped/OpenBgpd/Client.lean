import RouteServer.Proofs.Shipped.OpenBgpd.Text

/-!
# Shipped — OpenBGPD — clients
-/

namespace RouteServer.Shipped.OpenBgpd

open RouteServer.Build RouteServer.Net RouteServer.Policy RouteServer.Text
open RouteServer.Template (Environment Expr Stmt Meaning PlainCalls Scope Value plainAll given
  each path only plain_each plain_given)
open RouteServer.Template.Render (maxDepth)

/-! ### Files of the operator -/

/-- The line for a file of the operator. -/
def localText (a : Arguments) (id : String) : String :=
  if a.localFiles.contains id then
    "include \"" ++ Files.Path.join a.localFilesDir (id ++ ".local") ++ "\"\n\n"
  else ""

/-- What the templates for the daemon rely on. -/
structure ServesFiles (env : Environment) (a : Arguments) : Prop extends Serves env a.family where
  localFile : env.filters.lookup "include_local_file" =
    some (Template.Builtin.simple (Helper.localFile a.localFiles a.localFilesDir))
  spaced : env.filters.lookup "convert_ext_comm" =
    some (Template.Builtin.simple Helper.spaceExtended)

variable {env : Environment} {a : Arguments} {pc : PlainCalls} {d : Nat} {ρ : Scope}

theorem localFile_string (a : Arguments) {id : String} (hid : id ∈ Arguments.localFileIds) :
    Template.Builtin.simple (Helper.localFile a.localFiles a.localFilesDir) (.string id) [] =
      .ok (.string (localText a id)) := by
  have hc : Arguments.localFileIds.contains id = true := List.contains_iff_mem.2 hid
  change (if !Arguments.localFileIds.contains id then _
    else if !a.localFiles.contains id then _ else _) = _
  rw [hc, localText]
  cases a.localFiles.contains id <;> rfl

theorem plain_localFile (h : ServesFiles env a) (id : String)
    (hid : id ∈ Arguments.localFileIds) :
    (localFile id).plain env pc d ρ = some (ρ, [localText a id]) := by
  simp [localFile, h.localFile, localFile_string a hid, h.string]

/-! ### Neighbours -/

def neighborText (a : Arguments) (g : General) (c : Client) : List String :=
  ["\n\tneighbor ", c.ip.text, " \x7b\n\t\tdescr \"", c.called, "\"\n\t\tremote-as ", c.asn.text,
   "\n\t\tmax-prefix ", natText (c.limit g c.ip.family).toNat] ++
  (if c.limitAction g = .restart then [" restart 15"] else []) ++ ["\n"] ++
  (if c.cfg.passive then ["\t\tpassive\n"] else []) ++
  (if c.cfg.gtsm then ["\t\tttl-security yes\n"] else []) ++
  given c.password (fun s => ["\t\ttcp md5sig password \"", s, "\"\n"]) ++
  ["\t\t", localText a "client", "\n\t\x7d\n"]

def clientsText (a : Arguments) (g : General) (cs : List Client) : List String :=
  ["group \"clients\" \x7b\n\ttransparent-as yes\n\tannounce all\n"] ++
  (cs.flatMap fun c => if inBuild a.family c.ip then neighborText a g c else []) ++ ["\x7d\n\n"]

section Client

variable {g : General} {c : Client}

/-- What is known of the names when the part about a client starts. -/
structure BeforeClient (g : General) (c : Client) (ρ : Scope) : Prop where
  cfg : ρ.lookup "cfg" = some (.value (.ofYaml g.toValue))
  client : ρ.lookup "c" = some (.value (.ofYaml c.toValue))

def clientScope (g : General) (c : Client) (ρ : Scope) : Scope :=
  ("action", .value (.string (c.limitAction g).text)) ::
  ("limit", .value (.nat (c.limit g c.ip.family).toNat)) ::
  ("max_prefix", .value (.ofYaml c.cfg.filtering.maxPrefix.toValue)) ::
  ("v", .value (.nat c.ip.family.number)) :: ρ

theorem plain_limit (h : ServesFiles env a)
    (hg : ρ.lookup "cfg" = some (.value (.ofYaml g.toValue)))
    (hv : ρ.lookup "v" = some (.value (.nat c.ip.family.number)))
    (hl : ρ.lookup "max_prefix" = some (.value (.ofYaml c.cfg.filtering.maxPrefix.toValue))) :
    limit.plain env pc d ρ = some (.nat (c.limit g c.ip.family).toNat) := by
  have hown : (Value.ofYaml c.cfg.filtering.maxPrefix.toValue).item?
      (.string ("limit_ipv" ++ natText c.ip.family.number)) =
        some (.ofYaml (optionValue uint32Value
          (c.cfg.filtering.maxPrefix.ownLimit c.ip.family))) := item?_ownLimit _ _
  have hgeneral := item?_generalLimit g.filtering.maxPrefix c.ip.family
  cases hx : c.cfg.filtering.maxPrefix.ownLimit c.ip.family with
  | none =>
      simp [limit, hl, hg, hv, hx, hown, hgeneral, h.isNone, optionValue, Client.limit]
  | some n => simp [limit, hl, hv, hx, hown, h.isNone, optionValue, Client.limit]

theorem plain_action (hg : ρ.lookup "cfg" = some (.value (.ofYaml g.toValue)))
    (hl : ρ.lookup "max_prefix" = some (.value (.ofYaml c.cfg.filtering.maxPrefix.toValue))) :
    action.plain env pc d ρ = some (.string (c.limitAction g).text) := by
  have htext (a : MaxPrefixAction) : a.text ≠ "" := by cases a <;> decide
  cases hx : c.cfg.filtering.maxPrefix.action with
  | some a => simp [action, hl, hx, optionValue, htext, Client.limitAction]
  | none =>
      cases hy : g.filtering.maxPrefix.action with
      | some a => simp [action, hl, hg, hx, hy, optionValue, htext, Client.limitAction]
      | none =>
          simp [action, hl, hg, hx, hy, optionValue, Client.limitAction, MaxPrefixAction.text]

theorem plain_settingsBody (h : ServesFiles env a) (hc : BeforeClient g c ρ) :
    plainAll env pc d ρ settingsBody = some (clientScope g c ρ, []) := by
  let ρ₁ : Scope :=
    ("max_prefix", .value (.ofYaml c.cfg.filtering.maxPrefix.toValue)) ::
    ("v", .value (.nat c.ip.family.number)) :: ρ
  have hlimit : limit.plain env pc d ρ₁ = some (.nat (c.limit g c.ip.family).toNat) :=
    plain_limit h hc.cfg rfl rfl
  have haction : action.plain env pc d
      (("limit", .value (.nat (c.limit g c.ip.family).toNat)) :: ρ₁) =
        some (.string (c.limitAction g).text) :=
    plain_action hc.cfg rfl
  simp only [ρ₁] at hlimit haction
  simp [settingsBody, hc.client, h.version, hlimit, haction, Scope.tell, clientScope]

theorem plain_description (hc : ρ.lookup "c" = some (.value (.ofYaml c.toValue))) :
    description.plain env pc d ρ = some (.string c.called) := by
  cases hx : c.description with
  | none => simp [description, hc, hx, Value.ofText, Client.called]
  | some s =>
      by_cases hs : s = "" <;>
        simp [description, hc, hx, Value.ofText, Client.called, Option.filter, hs]

theorem plain_passwordLine (h : ServesFiles env a)
    (hc : ρ.lookup "c" = some (.value (.ofYaml c.toValue))) :
    passwordLine.plain env pc d ρ =
      some (ρ, given c.password fun s => ["\t\ttcp md5sig password \"", s, "\"\n"]) :=
  plain_given (by simp [hc]) fun s hs _ => by simp [hc, hs, Value.ofText, h.string]

theorem plain_neighborBody (h : ServesFiles env a) (hc : BeforeClient g c ρ) :
    plainAll env pc d (clientScope g c ρ) neighborBody =
      some (clientScope g c ρ, neighborText a g c) := by
  have hclient : (clientScope g c ρ).lookup "c" = some (.value (.ofYaml c.toValue)) := hc.client
  have hlimit : (clientScope g c ρ).lookup "limit" =
      some (.value (.nat (c.limit g c.ip.family).toNat)) := rfl
  have haction : (clientScope g c ρ).lookup "action" =
      some (.value (.string (c.limitAction g).text)) := rfl
  have hrestart : decide ((c.limitAction g).text = "restart") =
      decide (c.limitAction g = .restart) := by
    cases c.limitAction g <;> decide
  simp [neighborBody, hclient, hlimit, haction, h.string, h.nat, hrestart,
    plain_description hclient, plain_passwordLine h hclient,
    plain_localFile h "client" (by decide), neighborText, Asn.text]

/-- A client of another family is left out. -/
theorem plain_neighborRound (h : ServesFiles env a) (hc : BeforeClient g c ρ) :
    ∃ ρ', plainAll env pc d ρ
        [only (.test "current_ipver" (path "c" ["ip"]) []) (settingsBody ++ neighborBody)] =
      some (ρ', if inBuild a.family c.ip then neighborText a g c else []) := by
  cases hf : inBuild a.family c.ip with
  | true =>
      refine ⟨clientScope g c ρ, ?_⟩
      simp [hc.client, h.current, hf, Template.plainAll_append, plain_settingsBody h hc,
        plain_neighborBody h hc]
  | false =>
      refine ⟨ρ, ?_⟩
      simp [hc.client, h.current, hf]

end Client

theorem plain_clients (h : ServesFiles env a) (hd : d < maxDepth) {g : General} {cs : List Client}
    (hg : ρ.lookup "cfg" = some (.value (.ofYaml g.toValue)))
    (hcs : ρ.lookup "clients" = some (.value (.ofYaml (.list (cs.map Client.toValue))))) :
    plainAll env pc d ρ clientsBody = some (ρ, clientsText a g cs) := by
  have hloop : eachNeighbor.plain env pc d ρ =
      some (ρ, cs.flatMap fun c => if inBuild a.family c.ip then neighborText a g c else []) := by
    refine plain_each ["v", "max_prefix", "limit", "action"]
      (f := fun c => Value.ofYaml c.toValue)
      (by simp [hcs, Function.comp_def]) hd rfl (by decide) fun c _ loop => ?_
    refine plain_neighborRound h ?_
    constructor <;> simp [Template.roundScope, Scope.lookup_without, hg]
  simp [clientsBody, hloop, clientsText]

end RouteServer.Shipped.OpenBgpd
