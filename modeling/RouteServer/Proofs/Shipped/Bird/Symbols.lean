import RouteServer.Proofs.Dictionary
import RouteServer.Proofs.Policy.Ids
import RouteServer.Proofs.Shipped.Bird.Main
import RouteServer.Proofs.Text.Split

/-!
# Shipped — Bird — symbols

The daemon knows what is defined by its symbols, and refuses a file that defines one twice.  Every set
brings two of them, for its origins and for its prefixes, and every client three, for its two filters
and its session.

**Symbols** (`defines_symbols`, `nodup_symbols`).  The text defines the symbols of the sets and of the
clients of its family, and they differ when sets and clients have the ids that enrichment and
derivation give them.
-/

namespace RouteServer.Shipped.Bird

open RouteServer.Net RouteServer.Policy RouteServer.Text

/-- The symbols of the set under a key. -/
def setSymbols (id : String) : List String := [id ++ "_asns", id ++ "_prefix_ok"]

/-- The symbols of the client with an id. -/
def clientSymbols (id : String) : List String := ["receive_from_" ++ id, "announce_to_" ++ id, id]

/-- The symbols of all sets and clients. -/
def symbols (c : Configuration) : List String :=
  c.asSets.keys.flatMap setSymbols ++ (c.clients.map Client.id).flatMap clientSymbols

/-! ### The text defines them -/

/-- The words with which a definition begins. -/
def keywords : List String := ["define ", "function ", "filter ", "protocol bgp "]

/-- A character of a symbol. -/
def isSymbolChar (c : Char) : Bool := AsSet.isWordChar c || c = '_'

/-- A text defines a symbol: it stands there behind a keyword, and ends there. -/
def Defines (text symbol : String) : Prop :=
  ∃ front keyword back, ∃ stop : Char, keyword ∈ keywords ∧ isSymbolChar stop = false ∧
    text = front ++ keyword ++ symbol ++ String.singleton stop ++ back

/-- An id between two pieces of a text: the first ends with the keyword and what the symbol has in
front of the id, the second begins with what it has behind it. -/
theorem defines_of_infix {ps : List String} {x id y : String} (h : [x, id, y] <:+: ps)
    (keyword lead trail : String) (stop : Char) (hx : (keyword ++ lead).toList <:+ x.toList)
    (hy : (trail ++ String.singleton stop).toList <+: y.toList) (hkeyword : keyword ∈ keywords)
    (hstop : isSymbolChar stop = false) : Defines (String.join ps) (lead ++ id ++ trail) := by
  obtain ⟨before, behind, htext⟩ := exists_of_infix h
  obtain ⟨front, hfront⟩ := hx
  obtain ⟨back, hback⟩ := hy
  have hx : x = String.ofList front ++ (keyword ++ lead) := by
    rw [← String.toList_inj, String.toList_append, String.toList_ofList, hfront]
  have hy : y = trail ++ String.singleton stop ++ String.ofList back := by
    rw [← String.toList_inj, String.toList_append, String.toList_ofList, hback]
  refine ⟨before ++ String.ofList front, keyword, String.ofList back ++ behind, stop, hkeyword,
    hstop, ?_⟩
  rw [htext, hx, hy]
  simp only [String.join_cons, String.join_nil, String.append_empty, String.append_assoc]

section

variable {f : Family} {c : Configuration}

theorem infix_setText {id : String} {s : ResolvedSet} (h : (id, s) ∈ c.asSets.entries) :
    setText f id s <:+: fullText f c := by
  have hsets : setText f id s <:+: setsText f c.asSets :=
    (infix_flatMap h fun e => setText f e.1 e.2).trans (List.suffix_cons _ _).isInfix
  refine hsets.trans ⟨headText f c.general ++ bogonsText f c.bogons,
    roasText f c.general c.roas ++ filtersText f c.general ++
      clientsText f c.general c.roas c.clients, ?_⟩
  simp only [fullText, commonText, List.append_assoc]

/-- The parts about a client stand in the text for its family. -/
theorem infix_clientText {x : Client} (h : x ∈ c.clients) (hf : x.ip.family = f) :
    clientText f c.general c.roas x <:+: fullText f c := by
  have hmem := infix_flatMap h fun y =>
    if y.ip.family = f then clientText f c.general c.roas y else []
  simp only [hf, if_true] at hmem
  exact hmem.trans ((List.suffix_append _ _).isInfix.trans (List.suffix_append _ _).isInfix)

theorem defines_asns {id : String} {s : ResolvedSet} (h : (id, s) ∈ c.asSets.entries) :
    Defines (String.join (fullText f c)) (id ++ "_asns") := by
  obtain ⟨y, hdefine, hy⟩ : ∃ y, ["define ", id, y] <:+: originsText id s.asns ∧
      "_asns ".toList <+: y.toList := by
    unfold originsText
    split
    · exact ⟨_, List.infix_rfl, by decide⟩
    · exact ⟨_, ⟨[], _, rfl⟩, by decide⟩
  have horigins : originsText id s.asns <:+: setText f id s :=
    ⟨["# ", s.name, "\n"], _, by rw [setText]; simp only [List.append_assoc]; rfl⟩
  have hdefines := defines_of_infix (hdefine.trans (horigins.trans (infix_setText h)))
    "define " "" "_asns" ' ' (by decide) hy (by decide) (by decide)
  rwa [String.empty_append] at hdefines

theorem defines_prefixOk {id : String} {s : ResolvedSet} (h : (id, s) ∈ c.asSets.entries) :
    Defines (String.join (fullText f c)) (id ++ "_prefix_ok") := by
  have hfunction : ["function ", id, "_prefix_ok()\n\x7b\n"] <:+: setText f id s :=
    ⟨["# ", s.name, "\n"] ++ originsText id s.asns, _, by
      rw [setText]; simp only [List.append_assoc]; rfl⟩
  have hdefines := defines_of_infix (hfunction.trans (infix_setText h)) "function " "" "_prefix_ok"
    '(' (by decide) (by decide) (by decide) (by decide)
  rwa [String.empty_append] at hdefines

theorem defines_receive {x : Client} (h : x ∈ c.clients) (hf : x.ip.family = f) :
    Defines (String.join (fullText f c)) ("receive_from_" ++ x.id) := by
  obtain ⟨y, hfilter, hy⟩ : ∃ y, ["filter receive_from_", x.id, y] <:+:
      clientText f c.general c.roas x ∧ "\n".toList <+: y.toList := by
    rw [clientText, receiveText, checksText]
    simp only [List.append_assoc, List.cons_append]
    exact ⟨_, ⟨[], _, rfl⟩, by decide⟩
  have hdefines := defines_of_infix (hfilter.trans (infix_clientText h hf)) "filter "
    "receive_from_" "" '\n' (by decide) hy (by decide) (by decide)
  rwa [String.append_empty] at hdefines

theorem defines_announce {x : Client} (h : x ∈ c.clients) (hf : x.ip.family = f) :
    Defines (String.join (fullText f c)) ("announce_to_" ++ x.id) := by
  -- the keyword ends the part about what is received
  obtain ⟨w, y, hfilter, hw, hy⟩ : ∃ w y, [w, x.id, y] <:+: clientText f c.general c.roas x ∧
      "filter announce_to_".toList <:+ w.toList ∧ "\n".toList <+: y.toList := by
    rw [clientText, receiveText, announceText]
    exact ⟨_, _, ⟨checksText f x ++ irrText c.general x ++ roaTestText c.general c.roas x, _, by
      simp only [List.append_assoc]; rfl⟩, by decide, by decide⟩
  have hdefines := defines_of_infix (hfilter.trans (infix_clientText h hf)) "filter "
    "announce_to_" "" '\n' hw hy (by decide) (by decide)
  rwa [String.append_empty] at hdefines

theorem defines_session {x : Client} (h : x ∈ c.clients) (hf : x.ip.family = f) :
    Defines (String.join (fullText f c)) x.id := by
  -- the keyword ends the part about what is announced
  obtain ⟨w, y, hprotocol, hw, hy⟩ : ∃ w y, [w, x.id, y] <:+: clientText f c.general c.roas x ∧
      "protocol bgp ".toList <:+ w.toList ∧ " ".toList <+: y.toList := by
    rw [clientText, announceText, protocolText]
    exact ⟨_, _, ⟨receiveText f c.general c.roas x ++ ([x.id, "\n\x7b\n"] ++
      (if !x.cfg.announceBlackhole then ["\tif is_blackhole() then reject;\n"] else []) ++
      if x.cfg.prependRsAs then ["\tbgp_path.prepend(rs_as);\n"] else []), _, by
      simp only [List.append_assoc]; rfl⟩, by decide, by decide⟩
  have hdefines := defines_of_infix (hprotocol.trans (infix_clientText h hf))
    "protocol bgp " "" "" ' ' hw hy (by decide) (by decide)
  rwa [String.append_empty, String.empty_append] at hdefines

/-- **The text defines the symbols** of the sets, and of the clients of its family. -/
theorem defines_symbols :
    (∀ id ∈ c.asSets.keys, ∀ symbol ∈ setSymbols id,
      Defines (String.join (fullText f c)) symbol) ∧
    ∀ x ∈ c.clients, x.ip.family = f → ∀ symbol ∈ clientSymbols x.id,
      Defines (String.join (fullText f c)) symbol := by
  refine ⟨fun id hid => ?_, fun x hx hf => ?_⟩
  · obtain ⟨⟨id, s⟩, hs, rfl⟩ := List.mem_map.1 hid
    simp only [setSymbols, List.forall_mem_cons]
    exact ⟨defines_asns hs, defines_prefixOk hs, fun _ h => (List.not_mem_nil h).elim⟩
  · simp only [clientSymbols, List.forall_mem_cons]
    exact ⟨defines_receive hx hf, defines_announce hx hf, defines_session hx hf,
      fun _ h => (List.not_mem_nil h).elim⟩

end

/-! ### They differ -/

theorem nodup_setSymbols {ids : List String} (h : ids.Nodup) : (ids.flatMap setSymbols).Nodup := by
  have hends : ∀ a b : String, a ++ "_asns" ≠ b ++ "_prefix_ok" := by
    intro a b he
    simpa using congrArg (·.toList.getLast?) he
  refine List.nodup_flatMap.2 ⟨fun id _ => ?_, h.imp fun {a b} hne => ?_⟩
  · simp [setSymbols, hends]
  · simp only [setSymbols, Function.onFun, List.disjoint_cons_left, List.mem_cons,
      List.not_mem_nil, or_false, String.append_left_inj, hne, hends, (hends _ _).symm,
      List.disjoint_nil_left, not_false_eq_true, and_self]

theorem nodup_clientSymbols {ids : List String} (h : ids.Nodup)
    (hlead : ∀ id ∈ ids, id.toList.head? = some 'A') : (ids.flatMap clientSymbols).Nodup := by
  have hfilters : ∀ a b : String, "receive_from_" ++ a ≠ "announce_to_" ++ b := by
    intro a b he
    simpa using congrArg (·.toList.head?) he
  have hreceive : ∀ id ∈ ids, ∀ a : String, "receive_from_" ++ a ≠ id := by
    rintro id hid a rfl
    simpa using hlead _ hid
  have hannounce : ∀ id ∈ ids, ∀ a : String, "announce_to_" ++ a ≠ id := by
    rintro id hid a rfl
    simpa using hlead _ hid
  refine List.nodup_flatMap.2 ⟨fun id hid => ?_, h.pairwise_of_forall_ne fun a ha b hb hne => ?_⟩
  · simp [clientSymbols, hfilters, hreceive id hid, hannounce id hid]
  · simp [clientSymbols, Function.onFun, hne.symm, hfilters, (hfilters _ _).symm, hreceive a ha,
      hannounce a ha, (hreceive b hb _).symm, (hannounce b hb _).symm]

/-- The third character of the symbol of a set is an underscore. -/
theorem third_setSymbols (name : String) :
    ∀ symbol ∈ setSymbols (AsSet.symbol name), symbol.toList[2]? = some '_' := by
  simp [setSymbols, AsSet.symbol]

/-- That of the symbol of a client is a letter, or a digit of its network. -/
theorem third_clientSymbols (asn : Asn) (k : Nat) :
    ∀ symbol ∈ clientSymbols (Client.idOf asn k), symbol.toList[2]? ≠ some '_' := by
  obtain ⟨d, ds, hdigits⟩ := List.exists_cons_of_ne_nil (digits_ne_nil asn.toNat)
  have hd : d ≠ '_' := by
    rintro rfl
    exact notMem_digits (by decide) asn.toNat (hdigits ▸ List.mem_cons_self)
  simp [clientSymbols, Client.toList_idOf, hdigits, hd]

/-- **The symbols differ.** -/
theorem nodup_symbols {c : Configuration}
    (hsets : ∀ id ∈ c.asSets.keys, ∃ name, id = AsSet.symbol name)
    (hids : (c.clients.map Client.id).Nodup)
    (hclients : ∀ id ∈ c.clients.map Client.id, ∃ asn k, id = Client.idOf asn k) :
    (symbols c).Nodup := by
  have hlead : ∀ id ∈ c.clients.map Client.id, id.toList.head? = some 'A' := by
    intro id hid
    obtain ⟨asn, k, rfl⟩ := hclients id hid
    rw [Client.toList_idOf]
    rfl
  refine List.nodup_append'.2 ⟨nodup_setSymbols c.asSets.keys_nodup,
    nodup_clientSymbols hids hlead, ?_⟩
  intro symbol hset hclient
  obtain ⟨key, hkey, hsymbol⟩ := List.mem_flatMap.1 hset
  obtain ⟨id, hid, hsymbol'⟩ := List.mem_flatMap.1 hclient
  obtain ⟨name, rfl⟩ := hsets key hkey
  obtain ⟨asn, k, rfl⟩ := hclients id hid
  exact third_clientSymbols asn k symbol hsymbol' (third_setSymbols name symbol hsymbol)

end RouteServer.Shipped.Bird
