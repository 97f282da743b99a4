import RouteServer.Enrich.Query
import RouteServer.Proofs.Cache.Store

/-!
# Enrich — the answer under the key of a question

Questions that differ have different keys (`Query.key_injective`), so the right payload for a key is
the encoded answer to the one question that has it (`Kept`).  Every codec gives an answer back, an
absent record of a network among them, and so a look-up of a question is transparent
(`lookup_query`): asking through a cache that holds right payloads is asking outside.

The files of questions that differ are apart, too (`files_apart`).
-/

namespace RouteServer.Enrich

open RouteServer.Cache RouteServer.Files RouteServer.Lookup RouteServer.Net RouteServer.Policy
open RouteServer.Text RouteServer.Time

/-! ### Keys -/

namespace Query

/-- What a key starts with: the kind of the question. -/
def lead : Query → String
  | .origins _ => "irr:origins:"
  | .prefixes _ .v4 => "irr:prefixes4:"
  | .prefixes _ .v6 => "irr:prefixes6:"
  | .net _ => "peeringdb:net:"

/-- What follows the lead: what the question is about. -/
def subject : Query → String
  | .origins name | .prefixes name _ => name
  | .net asn => Asn.text asn

theorem key_eq (q : Query) : q.key = q.lead ++ q.subject := by
  have hfour : natText 4 = "4" := by rw [natText, digits_of_lt (by omega)]; rfl
  have hsix : natText 6 = "6" := by rw [natText, digits_of_lt (by omega)]; rfl
  rcases q with name | ⟨name, _ | _⟩ | asn
  · rfl
  · simp only [key, Family.number, hfour]; rfl
  · simp only [key, Family.number, hsix]; rfl
  · rfl

theorem text_injective : Function.Injective Asn.text := fun _ _ h =>
  UInt32.toNat_inj.1 (natText_injective h)

/-- **Questions that differ have different keys.**  No lead is in front of another. -/
theorem key_injective : Function.Injective key := by
  intro p q h
  have hc := congrArg String.toList ((key_eq p).symm.trans (h.trans (key_eq q)))
  rcases p with a | ⟨a, _ | _⟩ | a <;> rcases q with b | ⟨b, _ | _⟩ | b <;>
    simp [lead, subject] at hc
  all_goals first
    | rw [String.toList_injective hc]
    | rw [text_injective (String.toList_injective hc)]

theorem codec_faithful (q : Query) : q.codec.Faithful 2 := by
  cases q with
  | origins name => exact (Codec.list_faithful Codec.uint32_faithful).mono (by omega)
  | prefixes name family => exact Codec.list_faithful Codec.setPrefix_faithful
  | net asn =>
      exact (Codec.option_faithful Codec.netRecord_faithful fun _ => Json.noConfusion).mono
        (by omega)

end Query

/-- **Files apart.**  Escapes, records and temporary files say which key they are for, and temporary
files who writes them; no temporary file is a record, and the probe is neither.  So no two files of
caches in one directory are at the same path.  Questions that differ in their kind, their family, or
the set or network they are about have keys that differ, and so their files are apart. -/
theorem files_apart :
    (∀ key key', escape key = escape key' ↔ key = key') ∧
    (∀ key key', recordName key = recordName key' ↔ key = key') ∧
    (∀ key key' writer writer',
      temporaryName key writer = temporaryName key' writer' ↔ key = key' ∧ writer = writer') ∧
    (∀ key key' writer, temporaryName key writer ≠ recordName key') ∧
    (∀ key writer, recordName key ≠ probeName ∧ temporaryName key writer ≠ probeName) ∧
    (∀ (dir : String) (f f' : CacheFile), f.path dir = f'.path dir ↔ f = f') ∧
    ∀ q q' : Query, q.key = q'.key ↔ q = q' := by
  refine ⟨fun _ _ => escape_injective.eq_iff, fun _ _ => recordName_injective.eq_iff,
    fun _ _ _ _ => temporaryName_inj, temporaryName_ne_recordName, fun key writer => ⟨?_, ?_⟩,
    fun _ _ _ => CacheFile.path_inj, fun _ _ => Query.key_injective.eq_iff⟩
  · exact recordName_ne_probeName key
  · exact temporaryName_ne_probeName key writer

/-! ### What is right for a key -/

/-- The payload is what is kept of the answer to the question with the key. -/
def Kept (sources : Sources) (writer : Nat) : Right := fun key payload =>
  Fits writer key ∧
    ∃ q : Query, q.key = key ∧ ∃ x, q.ask sources = .ok x ∧ payload = (q.codec.encode x).canonical

theorem keepable_encode (q : Query) (x : q.Answer) :
    Record.Keepable (q.codec.encode x).canonical := by
  have hf := q.codec_faithful
  rw [hf.canonical_encode x]
  exact ⟨hf.canonical_encode x, hf.isKept x, Nat.lt_of_le_of_lt (hf.depth_le x) (by decide)⟩

/-- What is right for the key of a question holds its answer. -/
theorem answers_kept (sources : Sources) (s : Store) (q : Query) :
    Store.Answers (Kept sources s.writer) s q.codec q.key (q.ask sources) where
  of_right payload := by
    rintro ⟨hfits, p, hp, x, hx, rfl⟩
    cases Query.key_injective hp
    have hf := q.codec_faithful
    exact ⟨hfits, x, hx, by rw [hf.canonical_encode x, hf.decode_encode x]⟩
  right_of x hx hfits := ⟨⟨hfits, q, rfl, x, hx, rfl⟩, keepable_encode q x⟩

end RouteServer.Enrich
