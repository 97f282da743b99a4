import RouteServer.Proofs.Shipped.Bird.Main

/-!
# Shipped — Bird — the text for a client tells its options

The route options of a client stand in its filters, one behind the other: three numbers, each with a
blank behind it, a line about next hops and one about the path.  Where two texts are the same, they
are cut at the same places, so the options are the same (`eq_of_clientText`).
-/

namespace RouteServer.Shipped.Bird

open RouteServer.Build RouteServer.Net RouteServer.Policy RouteServer.Text

/-- A number with a blank behind it is read off the front of a text. -/
theorem digits_cut {m n : Nat} {us vs : List Char}
    (h : digits m ++ ' ' :: us = digits n ++ ' ' :: vs) : m = n ∧ us = vs := by
  have hsplit := congrArg (splitAt ' ') h
  have hblank : ∀ k, ' ' ∉ digits k := notMem_digits (by decide)
  rw [splitAt_append, splitAt_append, splitAt_of_notMem (hblank m),
    splitAt_of_notMem (hblank n)] at hsplit
  have hdigits : digits m = digits n := (List.cons.inj hsplit).1
  rw [hdigits] at h
  exact ⟨digits_injective hdigits, (List.cons.inj (List.append_cancel_left h)).2⟩

theorem byte_cut {m n : UInt8} {us vs : List Char}
    (h : (byteText m).toList ++ ' ' :: us = (byteText n).toList ++ ' ' :: vs) :
    m = n ∧ us = vs := by
  unfold byteText at h
  rw [toList_natText, toList_natText] at h
  obtain ⟨hn, hrest⟩ := digits_cut h
  exact ⟨UInt8.toNat_inj.1 hn, hrest⟩

/-! ### The parts of the text -/

/-- The first filter of a client, up to the test of the length of paths. -/
def numbersText (c : Client) (o : RouteOptions) : List String :=
  ["filter receive_from_", c.id, "\n\x7b\n\tif !is_blackhole() then \x7b\n\t\tif net.len < ",
   byteText o.lengths.min, " || net.len > ", byteText o.lengths.max,
   " then reject;\n\t\x7d\n\tif is_bogon() then reject;\n\tif bgp_path.len > ",
   byteText o.maxAsPathLen, " then reject;\n"]

/-- The line about next hops. -/
def strictText (p : NextHopPolicy) : List String :=
  if p = .strict then ["\tif bgp_next_hop != from then reject;\n"] else []

/-- The line that puts the route server in front of paths. -/
def prependText (b : Bool) : List String := if b then ["\tbgp_path.prepend(rs_as);\n"] else []

/-- What stands between the line about next hops and the one about paths. -/
def betweenText (g : General) (roas : Option (List Roa)) (c : Client) : List String :=
  ["\tif bgp_path.first != ", c.asn.text, " then reject;\n"] ++
  (if c.cfg.filtering.rejectInvalidAs then ["\treject_invalid_asns();\n"] else []) ++
  ["\treject_transit_free();\n"] ++ irrText g c ++ roaTestText g roas c ++
  ["\tif is_blackhole() then apply_blackhole_policy();\n\taccept;\n\x7d\n\n" ++
    "filter announce_to_", c.id, "\n\x7b\n"] ++
  (if !c.cfg.announceBlackhole then ["\tif is_blackhole() then reject;\n"] else [])

/-- What stands behind the line about paths. -/
def behindText (f : Family) (g : General) (c : Client) : List String :=
  ["\taccept;\n\x7d\n\nprotocol bgp "] ++ protocolText f g c

section

variable {f : Family} {g : General} {roas : Option (List Roa)} {c : Client}

theorem clientText_retune (hf : c.family = f) (o : RouteOptions) :
    clientText f g roas (c.retune o) =
      numbersText c o ++ strictText o.nextHopPolicy ++ betweenText g roas c ++
        prependText o.prependRsAs ++ behindText f g c := by
  have hlengths : (c.retune o).lengths f = o.lengths := by
    rw [← hf]
    exact congrArg RouteOptions.lengths (c.routeOptions_retune o)
  simp only [clientText, receiveText, checksText, announceText, hlengths, numbersText, strictText,
    betweenText, prependText, behindText, List.append_assoc, List.cons_append, List.nil_append]
  rfl

theorem strict_cut {p q : NextHopPolicy} {us vs : List Char}
    (h : (String.join (strictText p)).toList ++ ("\tif bgp_path.first != ".toList ++ us) =
      (String.join (strictText q)).toList ++ ("\tif bgp_path.first != ".toList ++ vs)) :
    p = q ∧ us = vs := by
  cases p <;> cases q <;> simp [strictText, String.join] at h ⊢ <;> exact h

theorem prepend_cut {b c : Bool} {us vs : List Char}
    (h : (String.join (prependText b)).toList ++ ("\taccept;\n\x7d\n\nprotocol bgp ".toList ++ us) =
      (String.join (prependText c)).toList ++ ("\taccept;\n\x7d\n\nprotocol bgp ".toList ++ vs)) :
    b = c := by
  cases b <;> cases c <;> simp [prependText, String.join] at h ⊢

theorem toList_join_append (ps qs : List String) :
    (String.join (ps ++ qs)).toList = (String.join ps).toList ++ (String.join qs).toList := by
  simp [String.toList_join]

/-- The numbers are read off one after the other. -/
theorem numbers_cut {o p : RouteOptions} {us vs : List Char}
    (h : (String.join (numbersText c o)).toList ++ us =
      (String.join (numbersText c p)).toList ++ vs) :
    o.lengths = p.lengths ∧ o.maxAsPathLen = p.maxAsPathLen ∧ us = vs := by
  have hmin : " || net.len > ".toList = ' ' :: "|| net.len > ".toList := by decide
  have hmax : " then reject;\n\t\x7d\n\tif is_bogon() then reject;\n\tif bgp_path.len > ".toList =
      ' ' :: "then reject;\n\t\x7d\n\tif is_bogon() then reject;\n\tif bgp_path.len > ".toList := by
    decide
  have hlen : " then reject;\n".toList = ' ' :: "then reject;\n".toList := by decide
  simp only [numbersText, String.toList_join, List.flatMap_cons, List.flatMap_nil, hmin, hmax, hlen,
    List.append_assoc, List.cons_append, List.append_cancel_left_eq, List.nil_append] at h
  obtain ⟨hmin, h⟩ := byte_cut h
  obtain ⟨hmax, h⟩ := byte_cut (List.append_cancel_left h)
  obtain ⟨hlen, h⟩ := byte_cut (List.append_cancel_left h)
  refine ⟨?_, hlen, List.append_cancel_left h⟩
  cases ho : o.lengths
  cases hp : p.lengths
  simp only [ho, hp] at hmin hmax
  rw [hmin, hmax]

/-- **The text for a client tells its route options.** -/
theorem eq_of_clientText (hf : c.family = f) {o p : RouteOptions}
    (h : String.join (clientText f g roas (c.retune o)) =
      String.join (clientText f g roas (c.retune p))) : o = p := by
  have hchars := congrArg String.toList h
  rw [clientText_retune hf, clientText_retune hf] at hchars
  simp only [toList_join_append, List.append_assoc] at hchars
  -- the text is cut from its front: numbers, the line about next hops, the line about paths
  obtain ⟨hlengths, hmax, hchars⟩ := numbers_cut hchars
  have hbetween : ∃ bs : List Char, (String.join (betweenText g roas c)).toList =
      "\tif bgp_path.first != ".toList ++ bs := by
    simp [betweenText, String.toList_join]
  have hbehind : ∃ bs : List Char, (String.join (behindText f g c)).toList =
      "\taccept;\n\x7d\n\nprotocol bgp ".toList ++ bs := by
    simp [behindText, String.toList_join]
  obtain ⟨bs, hbs⟩ := hbetween
  obtain ⟨es, hes⟩ := hbehind
  rw [hbs, hes] at hchars
  simp only [List.append_assoc] at hchars
  obtain ⟨hpolicy, hchars⟩ := strict_cut hchars
  have hprepend := prepend_cut (List.append_cancel_left hchars)
  cases o
  cases p
  simp_all

end

end RouteServer.Shipped.Bird
