import RouteServer.Cache.Key
import RouteServer.Proofs.Files.Path
import RouteServer.Proofs.Text.Numeral
import RouteServer.Proofs.Text.Split

/-!
# Cache — every key has a file of its own

The escape of a byte starts with an underscore just when the byte does not stand for itself, so
escapes can be taken apart again, and keys that differ have records in files that differ
(`recordName_injective`).  A temporary name says which key it is for and who writes it
(`temporaryName_inj`), as no escape has a dot in it.  The names that a cache uses are names of
entries, and records, temporary files and the probe are never the same file (`CacheFile.path_inj`).
-/

namespace RouteServer.Cache

open RouteServer.Files RouteServer.Text

theorem keyBytes_injective : Function.Injective keyBytes := by
  intro a b h
  have hbytes : a.toList.utf8Encode = b.toList.utf8Encode :=
    congrArg List.toByteArray h
  rw [String.utf8Encode_toList, String.utf8Encode_toList] at hbytes
  exact String.toByteArray_inj.1 hbytes

/-! ### The escape of a byte -/

theorem toNat_ofNat_byte (b : UInt8) : (Char.ofNat b.toNat).toNat = b.toNat := by
  have hb := b.toNat_lt
  have hvalid : b.toNat.isValidChar := .inl (by omega)
  rw [Char.ofNat, dif_pos hvalid]
  rfl

theorem hexDigit?_upperHexDigit : ∀ d < 16, hexDigit? (upperHexDigit d) = some d := by decide

theorem upperHexDigit_injective {d e : Nat} (hd : d < 16) (he : e < 16)
    (h : upperHexDigit d = upperHexDigit e) : d = e := by
  have hr := hexDigit?_upperHexDigit d hd
  rw [h, hexDigit?_upperHexDigit e he] at hr
  exact (Option.some.inj hr).symm

theorem ne_underscore_of_isPlain {b : UInt8} (h : isPlain b) : Char.ofNat b.toNat ≠ '_' := by
  intro he
  rw [isPlain, he] at h
  exact absurd h (by decide)

/-- Escapes that stand in front of other characters can be taken off. -/
theorem escapeByte_append {a b : UInt8} {xs ys : List Char}
    (h : escapeByte a ++ xs = escapeByte b ++ ys) : a = b ∧ xs = ys := by
  have ha := a.toNat_lt
  have hb := b.toNat_lt
  unfold escapeByte at h
  split at h <;> split at h
  case isTrue.isTrue =>
      obtain ⟨hc, hx⟩ := List.cons.inj h
      have hn := congrArg Char.toNat hc
      rw [toNat_ofNat_byte, toNat_ofNat_byte] at hn
      exact ⟨UInt8.toNat_inj.1 hn, hx⟩
  case isTrue.isFalse hp _ => exact absurd (List.cons.inj h).1 (ne_underscore_of_isPlain hp)
  case isFalse.isTrue _ hp => exact absurd (List.cons.inj h).1.symm (ne_underscore_of_isPlain hp)
  case isFalse.isFalse =>
      simp only [List.cons_append, List.nil_append, List.cons.injEq, true_and] at h
      obtain ⟨h₁, h₂, hx⟩ := h
      have e₁ := upperHexDigit_injective (by omega) (by omega) h₁
      have e₂ := upperHexDigit_injective (by omega) (by omega) h₂
      exact ⟨UInt8.toNat_inj.1 (by omega), hx⟩

theorem escapeByte_ne_nil (b : UInt8) : escapeByte b ≠ [] := by
  unfold escapeByte; split <;> simp

theorem flatMap_escapeByte_injective : ∀ {as bs : List UInt8},
    as.flatMap escapeByte = bs.flatMap escapeByte → as = bs
  | [], [], _ => rfl
  | [], b :: bs, h => by
      rw [List.flatMap_nil, List.flatMap_cons] at h
      exact absurd (List.append_eq_nil_iff.1 h.symm).1 (escapeByte_ne_nil b)
  | a :: as, [], h => by
      rw [List.flatMap_nil, List.flatMap_cons] at h
      exact absurd (List.append_eq_nil_iff.1 h).1 (escapeByte_ne_nil a)
  | a :: as, b :: bs, h => by
      rw [List.flatMap_cons, List.flatMap_cons] at h
      obtain ⟨rfl, hrest⟩ := escapeByte_append h
      rw [flatMap_escapeByte_injective hrest]

theorem escape_injective : Function.Injective escape := fun _ _ h =>
  keyBytes_injective (flatMap_escapeByte_injective (String.ofList_injective h))

/-- **Every key has a file of its own.** -/
theorem recordName_injective : Function.Injective recordName := fun _ _ h =>
  escape_injective ((String.append_left_inj _).1 ((String.append_left_inj _).1 h))

/-! ### The names of a cache -/

/-- An escape has only characters that stand for themselves, underscores and digits. -/
theorem notMem_escape {c : Char} (hplain : ∀ b, Char.ofNat b.toNat = c → ¬ isPlain b)
    (hmark : c ≠ '_') (hdigit : ∀ d < 16, c ≠ upperHexDigit d) (key : String) :
    c ∉ (escape key).toList := by
  rw [escape, String.toList_ofList]
  intro h
  obtain ⟨b, -, hb⟩ := List.mem_flatMap.1 h
  have hlt := b.toNat_lt
  unfold escapeByte at hb
  split at hb
  case isTrue hp => exact hplain b (List.mem_singleton.1 hb).symm hp
  case isFalse =>
      simp only [List.mem_cons, List.not_mem_nil, or_false] at hb
      rcases hb with hb | hb | hb
      · exact hmark hb
      · exact hdigit _ (by omega) hb
      · exact hdigit _ (by omega) hb

theorem noSlash_escape (key : String) : '/' ∉ (escape key).toList :=
  notMem_escape (fun b hb => by rw [isPlain, hb]; decide) (by decide) (by decide) key

theorem noDot_escape (key : String) : '.' ∉ (escape key).toList :=
  notMem_escape (fun b hb => by rw [isPlain, hb]; decide) (by decide) (by decide) key

/-- A name that ends in an extension of its own. -/
theorem isName_append {base ext : String} (hb : '/' ∉ base.toList) (he : '/' ∉ ext.toList)
    (hl : 2 < ext.length) : IsName (base ++ ext) where
  noSlash := by simp [hb, he]
  ne_empty h := by
    have := congrArg String.length h
    rw [String.length_append, show "".length = 0 from rfl] at this
    omega
  ne_dot h := by
    have := congrArg String.length h
    rw [String.length_append, show ".".length = 1 from rfl] at this
    omega
  ne_dots h := by
    have := congrArg String.length h
    rw [String.length_append, show "..".length = 2 from rfl] at this
    omega

theorem recordName_eq (key : String) : recordName key = escape key ++ ".json" := by
  rw [recordName, String.append_assoc]; rfl

theorem isName_recordName (key : String) : IsName (recordName key) := by
  rw [recordName_eq]
  exact isName_append (noSlash_escape key) (by decide) (by decide)

/-- The name of a record ends as such names do, but for that of the record without a key: there
the dot is the first character. -/
theorem extension_recordName (key : String) :
    (Path.splitExtension (recordName key)).2 =
      if key = "" then none else some recordExtension := by
  have hempty : escape key = "" ↔ key = "" :=
    ⟨fun h => escape_injective (h.trans rfl), fun h => by rw [h]; rfl⟩
  rw [recordName, Path.splitExtension_append (noDot_escape key) (by decide)]
  by_cases h : key = ""
  · rw [if_pos h, if_pos (hempty.2 h)]
  · rw [if_neg h, if_neg fun he => h (hempty.1 he)]

/-- A temporary name is the name of a record, or what it was made from, with an ending behind it. -/
theorem temporaryName_eq (key : String) (writer : Nat) :
    ∃ base, '/' ∉ base.toList ∧ temporaryName key writer = base ++ ".tmp" ∧
      (recordName key).utf8ByteSize ≤ base.utf8ByteSize := by
  have hn : '/' ∉ (natText writer).toList := by
    rw [toList_natText]
    intro h
    exact absurd (digit?_of_mem_digits h) (by decide)
  have hr := (isName_recordName key).noSlash
  refine ⟨_, ?_, rfl, ?_⟩
  · split <;> simp_all [recordExtension, noSlash_escape]
  · split
    · simp only [String.utf8ByteSize_append]; omega
    · simp only [String.utf8ByteSize_append, recordName]; omega

theorem isName_temporaryName (key : String) (writer : Nat) : IsName (temporaryName key writer) := by
  obtain ⟨base, hb, he, -⟩ := temporaryName_eq key writer
  rw [he]
  exact isName_append hb (by decide) (by decide)

theorem isName_probeName : IsName probeName := ⟨by decide, by decide, by decide, by decide⟩

theorem size_recordName_le (key : String) (writer : Nat) :
    (recordName key).utf8ByteSize ≤ (temporaryName key writer).utf8ByteSize := by
  obtain ⟨base, -, he, hs⟩ := temporaryName_eq key writer
  rw [he, String.utf8ByteSize_append]
  omega

theorem getLast?_append (base : String) {ext : String} (h : ext.toList ≠ []) :
    (base ++ ext).toList.getLast? = ext.toList.getLast? := by
  rw [String.toList_append, List.getLast?_append, List.getLast?_eq_some_getLast h]
  rfl

theorem temporaryName_ne_recordName (key key' : String) (writer : Nat) :
    temporaryName key writer ≠ recordName key' := by
  obtain ⟨base, -, he, -⟩ := temporaryName_eq key writer
  rw [he, recordName_eq]
  intro h
  have hlast := congrArg (fun s => s.toList.getLast?) h
  have htmp : ".tmp".toList ≠ [] := by decide
  have hjson : ".json".toList ≠ [] := by decide
  simp only [getLast?_append _ htmp, getLast?_append _ hjson] at hlast
  exact absurd hlast (by decide)

theorem dot_mem_recordName (key : String) : '.' ∈ (recordName key).toList := by
  rw [recordName_eq]
  simp

/-- In front of the first dot of a temporary name is the escape; what is behind it is the same for
all keys, but that the record without a key leaves its own ending there. -/
theorem splitOnce_temporaryName (key : String) (writer : Nat) :
    splitOnce ['.'] (temporaryName key writer).toList =
      some ((escape key).toList, (if key = "" then "json." else "").toList ++
        ("json.".toList ++ (digits writer ++ ".tmp".toList))) := by
  refine splitOnce_singleton.2 ⟨?_, noDot_escape key⟩
  by_cases h : key = ""
  · simp [temporaryName, recordName, recordExtension, toList_natText, h]
  · simp [temporaryName, recordExtension, toList_natText, h]

/-- **Every key has a temporary file of its own, and so has every writer.** -/
theorem temporaryName_inj {key key' : String} {writer writer' : Nat} :
    temporaryName key writer = temporaryName key' writer' ↔ key = key' ∧ writer = writer' := by
  refine ⟨fun h => ?_, fun h => h.1 ▸ h.2 ▸ rfl⟩
  have hcut := congrArg (fun s => splitOnce ['.'] s.toList) h
  simp only [splitOnce_temporaryName, Option.some.injEq, Prod.mk.injEq] at hcut
  obtain ⟨hescape, hrest⟩ := hcut
  obtain rfl := escape_injective (String.toList_injective hescape)
  rw [List.append_right_inj, List.append_right_inj, List.append_left_inj] at hrest
  exact ⟨rfl, digits_injective hrest⟩

theorem recordName_ne_probeName (key : String) : recordName key ≠ probeName := fun h =>
  absurd (h ▸ dot_mem_recordName key) (by decide)

theorem temporaryName_ne_probeName (key : String) (writer : Nat) :
    temporaryName key writer ≠ probeName := by
  obtain ⟨base, -, he, -⟩ := temporaryName_eq key writer
  intro h
  have hdot : '.' ∈ (temporaryName key writer).toList := by
    rw [he]
    simp
  exact absurd (h ▸ hdot) (by decide)

/-- A file that a cache uses. -/
inductive CacheFile where
  | record (key : String)
  /-- The file in which a writer prepares the record of a key. -/
  | temporary (key : String) (writer : Nat)
  | probe
  deriving DecidableEq

namespace CacheFile

/-- The name of the file. -/
def name : CacheFile → String
  | .record key => recordName key
  | .temporary key writer => temporaryName key writer
  | .probe => probeName

theorem isName : ∀ f : CacheFile, IsName f.name
  | .record key => isName_recordName key
  | .temporary key writer => isName_temporaryName key writer
  | .probe => isName_probeName

theorem name_injective : Function.Injective name := by
  rintro (k | ⟨k, w⟩ | _) (l | ⟨l, v⟩ | _) h
  case record.record => rw [recordName_injective h]
  case record.temporary => exact absurd h.symm (temporaryName_ne_recordName l k v)
  case record.probe => exact absurd h (recordName_ne_probeName k)
  case temporary.record => exact absurd h (temporaryName_ne_recordName k l w)
  case temporary.temporary =>
      obtain ⟨rfl, rfl⟩ := temporaryName_inj.1 h
      rfl
  case temporary.probe => exact absurd h (temporaryName_ne_probeName k w)
  case probe.record => exact absurd h.symm (recordName_ne_probeName l)
  case probe.temporary => exact absurd h.symm (temporaryName_ne_probeName l v)
  case probe.probe => rfl

/-- The path of the file in the directory of a cache. -/
def path (dir : String) (f : CacheFile) : String := Path.join dir f.name

/-- **No two files of a cache are at the same path.** -/
theorem path_inj {dir : String} {f f' : CacheFile} : f.path dir = f'.path dir ↔ f = f' :=
  (Path.join_inj f.isName f'.isName).trans name_injective.eq_iff

end CacheFile

end RouteServer.Cache
