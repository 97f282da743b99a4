import RouteServer.Proofs.Build.Filters
import RouteServer.Proofs.Build.Total
import RouteServer.Proofs.Net.Address
import RouteServer.Proofs.Text.Split

/-!
# Build — reading back what is quoted

The description and the password of a client stand in quotes, as they are.  The daemon reads them up
to the next quote; so they come back exactly when the client has no quote in them
(`readsBack_iff`), whatever the client is otherwise called and whatever stands around it.
-/

namespace RouteServer.Build

open RouteServer.Enrich RouteServer.Files RouteServer.Net RouteServer.Policy RouteServer.Text
open RouteServer.Template (given)

/-! ### Blocks -/

/-- The name of the statement that describes a client. -/
def Target.describing : Target → String
  | .openBgpd => "descr"
  | _ => "description"

/-- What is written about the session with a client. -/
def Target.block (t : Target) (a : Arguments) (g : General) (x : Client) : String :=
  match t with
  | .bird => "protocol bgp " ++ String.join (Shipped.Bird.protocolText x.ip.family g x)
  | .openBgpd => String.join (Shipped.OpenBgpd.neighborText a g x)
  | .context => ""

/-- From its block a daemon learns what a client is called, and its password if it has one. -/
structure ReadsBack (t : Target) (block : String) (x : Client) : Prop where
  description : readStatement t.describing block = some x.called
  password : ∀ p, x.password = some p → p ≠ "" → readStatement "password" block = some p

/-- A block with the quoted texts of a client behind their names. -/
structure Quotes (t : Target) (x : Client) (inFront between block : String) : Prop where
  description : ∃ behind, block = inFront ++ "\"" ++ x.called ++ "\"" ++ behind
  password : ∀ p, x.password = some p → p ≠ "" → ∃ behind, block =
    inFront ++ "\"" ++ x.called ++ "\"" ++ (between ++ "\"" ++ p ++ "\"" ++ behind)
  clean : '"' ∉ inFront.toList ∧ '"' ∉ between.toList
  named : (t.describing ++ " ").toList <:+ inFront.toList
  other : ¬ ("password" ++ " ").toList <:+ inFront.toList
  passwordNamed : ("password" ++ " ").toList <:+ between.toList

section

variable {t : Target} {x : Client} {inFront between block : String}

theorem toList_quoted (inFront s behind : String) :
    (inFront ++ "\"" ++ s ++ "\"" ++ behind).toList =
      inFront.toList ++ '"' :: (s.toList ++ '"' :: behind.toList) := by
  simp

theorem Quotes.readStatement_description (h : Quotes t x inFront between block) :
    readStatement t.describing block = some (untilQuote x.called) := by
  obtain ⟨behind, hblock⟩ := h.description
  rw [readStatement, hblock, toList_quoted, readQuoted_append h.clean.1 h.named]
  rfl

theorem Quotes.readStatement_password (h : Quotes t x inFront between block)
    (hcalled : '"' ∉ x.called.toList) {p : String} (hp : x.password = some p) (hne : p ≠ "") :
    readStatement "password" block = some (untilQuote p) := by
  obtain ⟨behind, hblock⟩ := h.password p hp hne
  rw [readStatement, hblock, toList_quoted, readQuoted_skip h.clean.1 hcalled h.other,
    toList_quoted, readQuoted_append h.clean.2 h.passwordNamed]
  rfl

/-- What is quoted is read back just when there is no quote in it. -/
theorem Quotes.readsBack_iff (h : Quotes t x inFront between block) :
    ReadsBack t block x ↔
      '"' ∉ x.called.toList ∧ ∀ p, x.password = some p → '"' ∉ p.toList := by
  constructor
  · intro hread
    have hcalled : '"' ∉ x.called.toList := by
      rw [← untilQuote_eq_self_iff]
      exact Option.some.inj (h.readStatement_description.symm.trans hread.description)
    refine ⟨hcalled, fun p hp => ?_⟩
    -- an empty password is not written, and has no quote in it
    by_cases hne : p = ""
    · simp [hne]
    · rw [← untilQuote_eq_self_iff]
      exact Option.some.inj
        ((h.readStatement_password hcalled hp hne).symm.trans (hread.password p hp hne))
  · rintro ⟨hcalled, hpassword⟩
    constructor
    · rw [h.readStatement_description, untilQuote_eq_self_iff.2 hcalled]
    · intro p hp hne
      rw [h.readStatement_password hcalled hp hne, untilQuote_eq_self_iff.2 (hpassword p hp)]

end

/-! ### The blocks of the daemons -/

/-- A text with a quoted one in it, where the quotes end one part and start another. -/
theorem join_quoted (ps : List String) (a q s b : String) (rest : List String) :
    String.join (ps ++ (a ++ q) :: s :: (q ++ b) :: rest) =
      String.join ps ++ a ++ q ++ s ++ q ++ (b ++ String.join rest) := by
  simp [String.append_assoc]

theorem notMem_join {c : Char} {ps : List String} (h : ∀ s ∈ ps, c ∉ s.toList) :
    c ∉ (String.join ps).toList := by
  rw [String.toList_join]
  intro hc
  obtain ⟨s, hs, hmem⟩ := List.mem_flatMap.1 hc
  exact h s hs hmem

/-- Of two names at the end of a text the longer one ends in the shorter one. -/
theorem not_suffix_append {name last cs : List Char} (hlength : name.length ≤ last.length)
    (h : ¬ name <:+ last) : ¬ name <:+ cs ++ last := fun hname =>
  h (List.suffix_of_suffix_length_le hname (List.suffix_append cs last) hlength)

theorem toList_join_concat (ps : List String) (s : String) :
    (String.join (ps ++ [s])).toList = (String.join ps).toList ++ s.toList := by
  simp

/-- A block that is put together from parts, two of them quoted. -/
theorem quotes_of_parts {t : Target} {x : Client} {front middle behind : List String}
    {a b e m : String} (hclean : ∀ s ∈ [a, b, m], '"' ∉ s.toList)
    (hfront : ∀ s ∈ front, '"' ∉ s.toList) (hmiddle : ∀ s ∈ middle, '"' ∉ s.toList)
    (hnamed : (t.describing ++ " ").toList <:+ a.toList)
    (hlength : ("password" ++ " ").toList.length ≤ a.toList.length)
    (hother : ¬ ("password" ++ " ").toList <:+ a.toList)
    (hpassword : ("password" ++ " ").toList <:+ m.toList) :
    Quotes t x (String.join (front ++ [a])) (String.join (b :: middle ++ [m]))
      (String.join (front ++ (a ++ "\"") :: x.called :: ("\"" ++ b) ::
        (middle ++ given x.password (fun s => [m ++ "\"", s, "\"" ++ e]) ++ behind))) where
  description := by
    have hjoin : String.join (front ++ [a]) = String.join front ++ a := by simp
    rw [join_quoted, hjoin]
    exact ⟨_, rfl⟩
  password p hp hne := by
    have hgiven : given x.password (fun s => [m ++ "\"", s, "\"" ++ e]) =
        [m ++ "\"", p, "\"" ++ e] := by
      rw [hp]
      exact if_neg hne
    rw [hgiven, join_quoted, List.append_assoc, List.cons_append, List.cons_append,
      List.singleton_append, join_quoted]
    exact ⟨e ++ String.join behind, by simp [String.append_assoc]⟩
  clean := by
    simp only [List.forall_mem_cons] at hclean
    obtain ⟨ha, hb, hm, -⟩ := hclean
    constructor
    · exact notMem_join (List.forall_mem_append.2 ⟨hfront, by simpa using ha⟩)
    · exact notMem_join (List.forall_mem_append.2
        ⟨List.forall_mem_cons.2 ⟨hb, hmiddle⟩, by simpa using hm⟩)
  named := by
    rw [toList_join_concat]
    exact hnamed.trans (List.suffix_append ..)
  other := by
    rw [toList_join_concat]
    exact not_suffix_append hlength hother
  passwordNamed := by
    rw [toList_join_concat]
    exact hpassword.trans (List.suffix_append ..)

theorem notMem_text_address (x : Address) : '"' ∉ x.text.toList := fun h =>
  Address.forall_mem_text (p := (· ≠ '"')) (by decide) (by decide) (by decide) x _ h rfl

theorem notMem_natText (n : Nat) : '"' ∉ (natText n).toList := by
  rw [toList_natText]
  exact notMem_digits (by decide) n

section Bird

open Shipped.Bird

variable {a : Arguments} {g : General} {x : Client}

/-- What a block says about the two sides of a session. -/
def partiesText (x : Client) : List String :=
  [x.ip.text, " as ", x.asn.text, ";\n\trs client;\n"] ++
  (if x.cfg.passive then ["\tpassive on;\n"] else []) ++
  (if x.cfg.gtsm then ["\tttl security on;\n"] else [])

/-- What it says about the routes. -/
def channelText (f : Family) (g : General) (x : Client) : List String :=
  ["\tipv", natText f.number, " \x7b\n\t\timport limit ", natText (x.limit g f).toNat, " action ",
   actionWord (x.limitAction g), ";\n\t\timport filter receive_from_", x.id,
   ";\n\t\texport filter announce_to_", x.id, ";\n"] ++
  (if x.cfg.addPath then ["\t\tadd paths tx;\n"] else []) ++ ["\t\x7d;\n\x7d\n\n"]

theorem bird_block : Target.bird.block a g x =
    String.join (["protocol bgp ", x.id] ++ (" \x7b\n\tdescription " ++ "\"") :: x.called ::
      ("\"" ++ ";\n\tlocal as rs_as;\n\tneighbor ") ::
      (partiesText x ++ given x.password (fun s => ["\tpassword " ++ "\"", s, "\"" ++ ";\n"]) ++
        channelText x.ip.family g x)) := by
  have hopen : " \x7b\n\tdescription " ++ "\"" = " \x7b\n\tdescription \"" := rfl
  have hclose : "\"" ++ ";\n\tlocal as rs_as;\n\tneighbor " =
    "\";\n\tlocal as rs_as;\n\tneighbor " := rfl
  have hbegin : "\tpassword " ++ "\"" = "\tpassword \"" := rfl
  have hend : "\"" ++ ";\n" = "\";\n" := rfl
  simp only [hopen, hclose, hbegin, hend, Target.block, protocolText, partiesText, channelText,
    List.append_assoc, List.cons_append, List.nil_append, String.join_cons]

theorem notMem_partiesText : ∀ s ∈ partiesText x, '"' ∉ s.toList := by
  intro s hs
  simp only [partiesText, List.mem_append, List.mem_ite_nil_right, List.mem_cons, List.not_mem_nil,
    or_false] at hs
  rcases hs with ((rfl | rfl | rfl | rfl) | ⟨-, rfl⟩) | ⟨-, rfl⟩
  · exact notMem_text_address x.ip
  · decide
  · exact notMem_natText _
  all_goals decide

theorem bird_quotes (hid : '"' ∉ x.id.toList) :
    ∃ inFront between, Quotes .bird x inFront between (Target.bird.block a g x) := by
  rw [bird_block]
  refine ⟨_, _, quotes_of_parts (by decide) ?_ notMem_partiesText (by decide) (by decide) (by decide)
    (by decide)⟩
  simpa using hid

end Bird

section OpenBgpd

open Shipped.OpenBgpd

variable {a : Arguments} {g : General} {x : Client}

/-- What a block says about the other side of a session. -/
def peerText (g : General) (x : Client) : List String :=
  [x.asn.text, "\n\t\tmax-prefix ", natText (x.limit g x.ip.family).toNat] ++
  (if x.limitAction g = .restart then [" restart 15"] else []) ++ ["\n"] ++
  (if x.cfg.passive then ["\t\tpassive\n"] else []) ++
  (if x.cfg.gtsm then ["\t\tttl-security yes\n"] else [])

theorem openBgpd_block : Target.openBgpd.block a g x =
    String.join (["\n\tneighbor ", x.ip.text] ++ (" \x7b\n\t\tdescr " ++ "\"") :: x.called ::
      ("\"" ++ "\n\t\tremote-as ") ::
      (peerText g x ++
        given x.password (fun s => ["\t\ttcp md5sig password " ++ "\"", s, "\"" ++ "\n"]) ++
        ["\t\t", localText a "client", "\n\t\x7d\n"])) := by
  have hopen : " \x7b\n\t\tdescr " ++ "\"" = " \x7b\n\t\tdescr \"" := rfl
  have hclose : "\"" ++ "\n\t\tremote-as " = "\"\n\t\tremote-as " := rfl
  have hbegin : "\t\ttcp md5sig password " ++ "\"" = "\t\ttcp md5sig password \"" := rfl
  have hend : "\"" ++ "\n" = "\"\n" := rfl
  simp only [hopen, hclose, hbegin, hend, Target.block, neighborText, peerText,
    List.append_assoc, List.cons_append, List.nil_append]

theorem notMem_peerText : ∀ s ∈ peerText g x, '"' ∉ s.toList := by
  intro s hs
  simp only [peerText, List.mem_append, List.mem_ite_nil_right, List.mem_cons, List.not_mem_nil,
    or_false] at hs
  rcases hs with ((((rfl | rfl | rfl) | ⟨-, rfl⟩) | rfl) | ⟨-, rfl⟩) | ⟨-, rfl⟩
  · exact notMem_natText _
  · decide
  · exact notMem_natText _
  all_goals decide

theorem openBgpd_quotes :
    ∃ inFront between, Quotes .openBgpd x inFront between (Target.openBgpd.block a g x) := by
  rw [openBgpd_block]
  refine ⟨_, _, quotes_of_parts (by decide) ?_ notMem_peerText (by decide) (by decide) (by decide)
    (by decide)⟩
  simpa using notMem_text_address x.ip

end OpenBgpd

/-! ### Where the blocks stand -/

section

variable {a : Arguments} {c : Configuration} {x : Client} (hx : x ∈ c.clients)
include hx

open Shipped.Bird in
theorem exists_bird_block {f : Family} (hf : x.ip.family = f) :
    ∃ front back, String.join (fullText f c) =
      front ++ Target.bird.block a c.general x ++ back := by
  subst hf
  have hclient : clientText x.ip.family c.general c.roas x <:+: fullText x.ip.family c := by
    -- the block is a part of the text for its client, and that a part of the whole text
    have hmem := infix_flatMap hx fun y =>
      if y.ip.family = x.ip.family then clientText x.ip.family c.general c.roas y else []
    simp only [if_true] at hmem
    exact hmem.trans ((List.suffix_append _ _).isInfix.trans (List.suffix_append _ _).isInfix)
  have hblock : "\taccept;\n\x7d\n\nprotocol bgp " :: protocolText x.ip.family c.general x <:+:
      clientText x.ip.family c.general c.roas x := by
    rw [clientText, announceText, ← List.append_assoc, List.append_assoc _ [_]]
    exact (List.suffix_append _ _).isInfix
  obtain ⟨front, back, htext⟩ := exists_of_infix (hblock.trans hclient)
  -- the block begins in the middle of a piece
  have hcut : "\taccept;\n\x7d\n\nprotocol bgp " = "\taccept;\n\x7d\n\n" ++ "protocol bgp " := rfl
  have hgroup : ∀ p q r s u : String, p ++ (q ++ r ++ s) ++ u = p ++ q ++ (r ++ s) ++ u := by
    intros
    simp only [String.append_assoc]
  refine ⟨front ++ "\taccept;\n\x7d\n\n", back, ?_⟩
  rw [htext, String.join_cons, hcut, hgroup, Target.block]

open Shipped.OpenBgpd in
theorem exists_openBgpd_block (hbuilt : inBuild a.family x.ip = true) :
    ∃ front back, String.join (fullText a c) =
      front ++ Target.openBgpd.block a c.general x ++ back := by
  have hblock : neighborText a c.general x <:+: fullText a c := by
    have hmem := infix_flatMap hx fun y =>
      if inBuild a.family y.ip then neighborText a c.general y else []
    simp only [hbuilt, if_true] at hmem
    refine hmem.trans (.trans ?_ (List.prefix_append _ _).isInfix)
    exact .trans ⟨_, _, rfl⟩ (List.suffix_append _ _).isInfix
  exact exists_of_infix hblock

end

/-- What a client is called has no quote in it unless its description has one. -/
theorem notMem_called_iff {x : Client} (hid : '"' ∉ x.id.toList) :
    '"' ∉ x.called.toList ↔ ∀ s, x.description = some s → '"' ∉ s.toList := by
  rw [Client.called]
  cases hd : x.description with
  | none => simp [Option.filter, hid]
  | some s => by_cases hs : s = "" <;> simp [Option.filter, hs, hid]

section

variable {t : Target} {a : Arguments} {c : Configuration} {x : Client}

/-- The block of a client of the build stands in the text for a daemon. -/
theorem exists_block (ht : t ≠ .context) (ha : a.check t = .ok ()) {files : Tree} {dir : String}
    (h : Installed files dir t) (hc : Complete c.general) (hx : x ∈ c.clients)
    (hbuilt : inBuild a.family x.ip = true) (liveTests : Bool) :
    ∃ front back, (t.renderer a files dir).render "main.j2" (context c a.family liveTests) =
      .ok (front ++ t.block a c.general x ++ back) := by
  cases t with
  | bird =>
      obtain ⟨f, hf⟩ := family_of_check ha
      have hfamily : x.ip.family = f := by simpa [hf, inBuild] using hbuilt
      obtain ⟨front, back, htext⟩ := exists_bird_block (a := a) hx hfamily
      exact ⟨front, back, by rw [render_bird hf h, hc.bird_outcome_eq_ok, htext]⟩
  | openBgpd =>
      obtain ⟨front, back, htext⟩ := exists_openBgpd_block hx hbuilt
      exact ⟨front, back, by rw [render_openBgpd h, hc.openBgpd_outcome_eq_ok, htext]⟩
  | context => exact absurd rfl ht

theorem block_readsBack_iff (ht : t ≠ .context) (hid : '"' ∉ x.id.toList) (g : General) :
    ReadsBack t (t.block a g x) x ↔
      ∀ s, x.description = some s ∨ x.password = some s → '"' ∉ s.toList := by
  obtain ⟨inFront, between, hquotes⟩ :
      ∃ inFront between, Quotes t x inFront between (t.block a g x) := by
    cases t with
    | bird => exact bird_quotes hid
    | openBgpd => exact openBgpd_quotes
    | context => exact absurd rfl ht
  rw [hquotes.readsBack_iff, notMem_called_iff hid]
  simp only [or_imp, forall_and]

theorem Valid.quote_notMem_id (hc : Valid c) (hx : x ∈ c.clients) : '"' ∉ x.id.toList :=
  notMem_id (hc.isId hx) (by decide) (by decide) (by decide)

/-- **Reading back.**  The block of a client of the build stands in the text for a daemon, and what
the daemon reads in it is the description and the password, exactly when there is no quote in
these. -/
theorem render_readsBack_iff (ht : t ≠ .context) (ha : a.check t = .ok ()) {files : Tree}
    {dir : String} (h : Installed files dir t) (hc : Valid c) (hx : x ∈ c.clients)
    (hbuilt : inBuild a.family x.ip = true) (liveTests : Bool) :
    ∃ front back, (t.renderer a files dir).render "main.j2" (context c a.family liveTests) =
        .ok (front ++ t.block a c.general x ++ back) ∧
      (ReadsBack t (t.block a c.general x) x ↔
        ∀ s, x.description = some s ∨ x.password = some s → '"' ∉ s.toList) := by
  obtain ⟨front, back, htext⟩ := exists_block ht ha h hc.complete hx hbuilt liveTests
  exact ⟨front, back, htext, block_readsBack_iff ht (hc.quote_notMem_id hx) c.general⟩

end

/-! ### Two descriptions -/

/-- One client with a description and a password. -/
def describedInputs (description : String) : Inputs where
  general := .value (.ofFields [("cfg", .ofFields
    [("rs_as", .nat 64500), ("router_id", .string "192.0.2.1")])])
  bogons := .value (.ofFields [("bogons", .list [])])
  clients := .value (.ofFields [("clients", .list [.ofFields
    [("asn", .nat 64501), ("ip", .string "192.0.2.2"), ("description", .string description),
     ("password", .string "secret")]])])
  asns := some (.value (.ofFields [("asns", .ofFields [])]))

theorem exists_described (description : String)
    (h : (answered (describedInputs description)).any fun c => decide
      (c.clients.map (fun x => (x.ip.family, x.description, x.password)) =
        [(.v4, some description, some "secret")])) :
    ∃ c p, (describedInputs description).load {} = .ok c ∧
      runPipeline twoSurroundings ⟨c, emptyCache, []⟩ = ([], p) ∧
      ∃ x ∈ p.configuration.clients, x.ip.family = .v4 ∧ x.description = some description ∧
        x.password = some "secret" := by
  cases hc : answered (describedInputs description) with
  | none => rw [hc] at h; cases h
  | some c =>
      rw [hc] at h
      obtain ⟨loaded, p, hload, hrun, rfl⟩ := runPipeline_of_answered hc
      obtain ⟨x, hx, hclient⟩ := List.map_eq_singleton_iff.1 (of_decide_eq_true h)
      obtain ⟨hip, hrest⟩ := Prod.mk.inj hclient
      exact ⟨loaded, p, hload, hrun, x, hx ▸ List.mem_singleton.2 rfl, hip, Prod.mk.inj hrest⟩

/-- A description with blanks and signs comes back. -/
theorem render_readsBack_iff_plain :
    ∃ c x, Valid c ∧ x ∈ c.clients ∧ x.description = some "Example; Ltd. {1}" ∧
      ∃ front back, (Target.openBgpd.renderer {} Target.openBgpd.tree "t").render "main.j2"
          (context c none false) =
          .ok (front ++ Target.openBgpd.block {} c.general x ++ back) ∧
        (ReadsBack .openBgpd (Target.openBgpd.block {} c.general x) x ↔
          ∀ s, x.description = some s ∨ x.password = some s → '"' ∉ s.toList) := by
  obtain ⟨loaded, p, hload, hrun, x, hx, -, hdescription, -⟩ :=
    exists_described "Example; Ltd. {1}" (by decide +kernel)
  have hvalid := valid_of_run hload hrun
  exact ⟨p.configuration, x, hvalid, hx, hdescription, render_readsBack_iff (a := {}) (by decide)
    rfl (installed_tree .openBgpd) hvalid hx rfl false⟩

/-- A description with a quote does not. -/
theorem not_readsBack_quoted :
    ∃ c p x, (describedInputs "a\"b").load {} = .ok c ∧
      runPipeline twoSurroundings ⟨c, emptyCache, []⟩ = ([], p) ∧ x ∈ p.configuration.clients ∧
      x.description = some "a\"b" ∧
      (∃ front back, (Target.bird.renderer { family := some .v4 } Target.bird.tree "t").render
        "main.j2" (context p.configuration (some .v4) false) =
          .ok (front ++ Target.bird.block { family := some .v4 } p.configuration.general x ++
            back)) ∧
      ¬ ReadsBack .bird (Target.bird.block { family := some .v4 } p.configuration.general x) x := by
  obtain ⟨loaded, p, hload, hrun, x, hx, hip, hdescription, -⟩ :=
    exists_described "a\"b" (by decide +kernel)
  have hvalid := valid_of_run hload hrun
  refine ⟨loaded, p, x, hload, hrun, hx, hdescription, ?_, fun hread => ?_⟩
  · exact exists_block (a := { family := some .v4 }) (by decide) rfl (installed_tree .bird)
      hvalid.complete hx (by simpa [inBuild] using hip) false
  · exact (block_readsBack_iff (by decide) (hvalid.quote_notMem_id hx) _).1 hread _
      (.inl hdescription) (by decide)

end RouteServer.Build
