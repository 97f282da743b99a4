import RouteServer.Proofs.Policy.Agreement
import RouteServer.Proofs.Policy.Written

/-!
# Policy — walking a document twice

The documents of a policy are walked to normal forms that are walked to themselves
(`Document.walked_walked`).  For the clients this depends on the general configuration that they
inherit from: an option that is inherited is checked the second time, so it has to be of the kind
that the field of a client has.  The options of a valid configuration are.
-/

namespace RouteServer.Policy

open RouteServer.Net RouteServer.Schema RouteServer.Text RouteServer.Yaml

namespace Client

variable {g : General}

/-- An inherited option is kept, if it is of the kind of the field. -/
theorem steady_inherited {name : String} {names : List String} {k : Kind}
    (h : k.Steady (some g.toValue))
    (hvalue : k.Settled (some g.toValue) ((g.toValue.follow? names).getD .null)) :
    (inherited name k names).Steady (some g.toValue) :=
  h.orElse hvalue

theorem steady_boolean {name : String} {names : List String} {b : Bool}
    (hvalue : g.toValue.follow? names = some (.bool b)) :
    (inherited name .boolean names).Steady (some g.toValue) := by
  refine steady_inherited Schema.steady_boolean ?_
  rw [hvalue]
  exact settled_boolean b

theorem steady_lengths {name : String} {width : Nat} {r : LengthRange}
    (hmin : g.toValue.follow? ["filtering", name, "min"] = some (uint8Value r.min))
    (hmax : g.toValue.follow? ["filtering", name, "max"] = some (uint8Value r.max))
    (hle : r.min ≤ r.max) (hwidth : r.max.toNat ≤ width) :
    (Kind.record (lengthFields name width)).Steady (some g.toValue) := by
  have hminWidth : r.min.toNat ≤ width := Nat.le_trans (UInt8.le_iff_toNat_le.1 hle) hwidth
  have hminField : (inherited "min" (.natural 0 width) ["filtering", name, "min"]).Steady
      (some g.toValue) := by
    refine steady_inherited (steady_natural 0 width) ?_
    rw [hmin]
    exact settled_natural (Nat.zero_le _) hminWidth
  have hmaxField : (inherited "max" (.natural 0 width) ["filtering", name, "max"]).Steady
      (some g.toValue) := by
    refine steady_inherited (steady_natural 0 width) ?_
    rw [hmax]
    exact settled_natural (Nat.zero_le _) hwidth
  have hparts : SteadyFields (some g.toValue) (lengthFields name width) :=
    .cons hminField <| .cons hmaxField <| steadyFields_nil
  exact hparts.record (by simp [lengthFields, inherited])

theorem steady_irr : (Kind.record irrFields).Steady (some g.toValue) := by
  have hparts : SteadyFields (some g.toValue) irrFields :=
    .cons (AsSet.steady_listKind.orElse settled_list_nil) <|
    .cons (steady_boolean rfl) <|
    .cons (steady_boolean rfl) <|
    steadyFields_nil
  exact hparts.record (by decide)

theorem steady_rpki : (Kind.record rpkiFields).Steady (some g.toValue) := by
  have hparts : SteadyFields (some g.toValue) rpkiFields :=
    .cons (steady_boolean rfl) steadyFields_nil
  exact hparts.record (by decide)

theorem steady_maxPrefix : (Kind.record maxPrefixFields).Steady (some g.toValue) := by
  have haction : (inherited "action" General.maxPrefixActionKind
      ["filtering", "max_prefix", "action"]).Steady (some g.toValue) := by
    refine Field.steady_of_kind General.steady_maxPrefixAction fun _ _ => ?_
    have hcontent : (Fallback.inherit ["filtering", "max_prefix", "action"]).content
        (some g.toValue) =
          optionValue (fun a => .string (MaxPrefixAction.text a)) g.filtering.maxPrefix.action := rfl
    rw [inherited, hcontent]
    cases haction : g.filtering.maxPrefix.action with
    | none =>
        rw [haction] at hcontent
        exact Field.settled_null rfl (by simp) hcontent
    | some a => exact Field.settled_of_kind rfl (General.settled_maxPrefixAction a)
  have hparts : SteadyFields (some g.toValue) maxPrefixFields :=
    .cons (steady_boolean rfl) <|
    .cons (General.steady_limit.orNull rfl) <|
    .cons (General.steady_limit.orNull rfl) <|
    .cons haction <|
    steadyFields_nil
  exact hparts.record (by decide)

theorem steady_filtering (h : g.IsValid) :
    (Kind.record filteringFields).Steady (some g.toValue) := by
  have hpolicy : (inherited "next_hop_policy" General.nextHopPolicyKind
      ["filtering", "next_hop_policy"]).Steady (some g.toValue) :=
    steady_inherited (steady_oneOf _) (General.settled_nextHopPolicy g.filtering.nextHopPolicy)
  have hlength : (inherited "max_as_path_len" (.natural 1 64)
      ["filtering", "max_as_path_len"]).Steady (some g.toValue) :=
    steady_inherited (steady_natural 1 64)
      (General.settled_uint8 (n := g.filtering.maxAsPathLen) h.pathLength.1 h.pathLength.2)
  have hlengthsV4 : (Kind.record (lengthFields "ipv4_pref_len" 32)).Steady (some g.toValue) :=
    steady_lengths (r := g.filtering.lengthsV4) rfl rfl (h.lengths .v4).1 (h.lengths .v4).2
  have hlengthsV6 : (Kind.record (lengthFields "ipv6_pref_len" 128)).Steady (some g.toValue) :=
    steady_lengths (r := g.filtering.lengthsV6) rfl rfl (h.lengths .v6).1 (h.lengths .v6).2
  have hparts : SteadyFields (some g.toValue) filteringFields :=
    .cons hpolicy <|
    .cons hlengthsV4.ofParts <|
    .cons hlengthsV6.ofParts <|
    .cons hlength <|
    .cons (steady_boolean rfl) <|
    .cons steady_irr.ofParts <|
    .cons steady_rpki.ofParts <|
    .cons steady_maxPrefix.ofParts <|
    steadyFields_nil
  exact hparts.record (by decide)

theorem steady_options (h : g.IsValid) : (Kind.record optionFields).Steady (some g.toValue) := by
  have hblackhole : (Kind.record blackholeFields).Steady (some g.toValue) := by
    have hparts : SteadyFields (some g.toValue) blackholeFields :=
      .cons (steady_boolean rfl) steadyFields_nil
    exact hparts.record (by decide)
  have hparts : SteadyFields (some g.toValue) optionFields :=
    .cons (steady_boolean rfl) <|
    .cons (steady_boolean rfl) <|
    .cons (steady_boolean rfl) <|
    .cons (steady_boolean rfl) <|
    .cons (steady_filtering h).ofParts <|
    .cons hblackhole.ofParts <|
    steadyFields_nil
  exact hparts.record (by decide)

theorem steady_fields (h : g.IsValid) : (Kind.record fields).Steady (some g.toValue) := by
  have hparts : SteadyFields (some g.toValue) fields :=
    .cons steady_asn.required <|
    .cons steady_address.required <|
    .cons (steady_string.orNull rfl) <|
    .cons (steady_string.orNull rfl) <|
    .cons (steady_options h).ofParts <|
    steadyFields_nil
  exact hparts.record (by decide)

theorem steady_document (h : g.IsValid) : (Kind.record document).Steady (some g.toValue) := by
  have hparts : SteadyFields (some g.toValue) document :=
    .cons ((steady_fields h).list.orElse settled_list_nil) <|
    .cons steady_dropped <|
    steadyFields_nil
  exact hparts.record (by decide)

end Client

namespace Document

/-- The general configuration that a document inherits from, if it does, has been loaded. -/
def HasLoadedParent (t : Document) : Prop :=
  ∀ g, t = checked (.clients g) → ∃ files s, loadGeneral files s = .ok g

theorem steady (t : Document) (ht : t.HasLoadedParent) : (Kind.record t.fields).Steady t.parent := by
  rcases t with _ | (_ | _ | g | _)
  · exact AsnInfo.steady_document
  · exact General.steady_document
  · exact Bogon.steady_document
  · obtain ⟨files, s, hload⟩ := ht g rfl
    obtain ⟨v, -, haccept⟩ := Decoded.bind_eq_ok.1 hload
    exact Client.steady_document (General.isValid_of_accept haccept)
  · exact Roa.steady_document

/-- **Walking twice.**  The normal form of a document in which the walk finds nothing is walked to
itself, and nothing is found in it. -/
theorem walked_walked (t : Document) (ht : t.HasLoadedParent) {v : Value}
    (h : (t.walked v).2 = []) : t.walked (t.walked v).1 = ((t.walked v).1, []) :=
  (t.steady ht).walk_walk h

/-- A client whose number, address and set are spelled in other ways than in the normal form, and
which gives a part of a range. -/
def spelledClients : Value :=
  .ofFields [("clients", .list
    [.ofFields [("asn", .string "AS64501"), ("ip", .string "2001:DB8:0::1"),
       ("cfg", .ofFields [("filtering", .ofFields
         [("ipv4_pref_len", .ofFields [("min", .nat 9)]),
          ("irrdb", .ofFields [("as_sets", .list [.string " AS-FOO "])])])])]])]

theorem walked_walked_spelled :
    ∃ g, loadGeneral {} (.value General.guardedGeneral) = .ok g ∧
      let t := checked (.clients g)
      (t.walked spelledClients).2 = [] ∧ (t.walked spelledClients).1.same spelledClients = false ∧
        t.walked (t.walked spelledClients).1 = ((t.walked spelledClients).1, []) := by
  have hrun : (loadGeneral {} (.value General.guardedGeneral)).toOption.any fun g =>
      ((checked (.clients g)).walked spelledClients).2.isEmpty &&
        !((checked (.clients g)).walked spelledClients).1.same spelledClients := by
    decide +kernel
  obtain ⟨g, hload⟩ := General.exists_loadGeneral_guarded
  rw [hload, Except.toOption, Option.any_some] at hrun
  obtain ⟨hclean, hother⟩ := Bool.and_eq_true_iff.1 hrun
  have ht : (checked (.clients g)).HasLoadedParent := fun g' heq => by
    cases heq
    exact ⟨{}, _, hload⟩
  refine ⟨g, hload, List.isEmpty_iff.1 hclean, by simpa using hother, ?_⟩
  exact walked_walked _ ht (List.isEmpty_iff.1 hclean)

end Document

end RouteServer.Policy
