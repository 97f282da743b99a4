import RouteServer.Json.Skim
import RouteServer.Proofs.Binary64.Decimal
import RouteServer.Proofs.Json.RoundTrip

/-!
# Json — what is skimmed

Skimming accepts more than reading.  A text that is read is skimmed to the same value
(`skim_of_read`): the lexemes are then the tokens, and what is open stays within any limit that the
text cannot pass.

**Every value that is written can be skimmed** (`skim_pretty`), however deep it is and whatever its
numbers are, since each of them has the form of a number (`isWritten_chars`).  What is left of the
value has the same tokens but for the numbers (`skimmed`).
-/

namespace RouteServer.Json

open RouteServer.Text

/-! ### A text that is read -/

theorem scan_lexemes {n : Nat} {cs : List Char} {ts : List Token}
    (h : Token.scan Token.next? n cs = some ts) :
    Token.scan Lexeme.next? n cs = some (ts.map .token) := by
  induction n generalizing cs ts with
  | zero =>
      rw [Token.scan] at h ⊢
      split at h
      case isTrue hgap => cases h; rw [if_pos hgap]; rfl
      case isFalse => cases h
  | succ n ih =>
      rw [Token.scan] at h ⊢
      cases hcs : cs.dropWhile Token.isGap with
      | nil => rw [hcs] at h; cases h; rfl
      | cons c cs' =>
          rw [hcs] at h
          obtain ⟨⟨t, rest⟩, hnext, h⟩ := Option.bind_eq_some_iff.1 h
          obtain ⟨us, hscan, h⟩ := Option.bind_eq_some_iff.1 h
          cases h
          have hlexeme : Lexeme.next? (c :: cs') = some (.token t, rest) := by
            simp only [Lexeme.next?, hnext]
          simp only [hlexeme, Option.bind_eq_bind, Option.bind_some, ih hscan, List.map_cons]

namespace Progress

theorem put_length {stack : List Frame} {v : Json} {q : Progress} (h : put stack v = some q) :
    q.stack.length ≤ stack.length := by
  unfold put at h
  split at h <;> cases h <;> simp

/-- A step opens at most one array or object, and only that asks for the limit. -/
theorem step_within {limit limit' : Nat} {p q : Progress} {t : Token}
    (h : p.step limit t = some q) (hlimit : p.stack.length < limit') :
    p.step limit' t = some q ∧ q.stack.length ≤ p.stack.length + 1 := by
  have hpush : ∀ {f e}, push limit p.stack f e = some q →
      push limit' p.stack f e = some q ∧ q.stack.length ≤ p.stack.length + 1 := by
    intro f e hp
    unfold push at hp ⊢
    split at hp
    · cases hp
      exact ⟨if_pos hlimit, le_rfl⟩
    · cases hp
  unfold step at h ⊢
  split at h
  · cases h
  case isFalse hdone =>
      rw [if_neg hdone]
      cases t with
      | openArray | openObject =>
          simp only at h ⊢
          split at h
          · rw [if_pos ‹_›]; exact hpush h
          · cases h
      | closeArray | closeObject =>
          refine ⟨h, ?_⟩
          simp only at h
          split at h
          case h_1 rest hstack =>
              split at h
              · have := put_length h
                rw [hstack, List.length_cons]
                omega
              · cases h
          case h_2 => cases h
      | comma =>
          refine ⟨h, ?_⟩
          simp only at h
          split at h
          case h_1 hstack => cases h; rw [hstack]; simp
          case h_2 hstack => cases h; rw [hstack]; simp
          case h_3 => cases h
      | colon =>
          refine ⟨h, ?_⟩
          simp only at h
          split at h
          · cases h; simp
          · cases h
      | null | bool _ | number _ =>
          refine ⟨h, ?_⟩
          simp only at h
          split at h
          · exact (put_length h).trans (Nat.le_succ _)
          · cases h
      | string _ =>
          refine ⟨h, ?_⟩
          simp only at h
          split at h
          · exact (put_length h).trans (Nat.le_succ _)
          · split at h
            case h_1 hstack => cases h; rw [hstack]; simp
            case h_2 hstack => cases h; rw [hstack]; simp
            case h_3 => cases h

theorem foldlM_within {limit limit' : Nat} {ts : List Token} :
    ∀ {p q : Progress}, ts.foldlM (step limit) p = some q →
      p.stack.length + ts.length ≤ limit' → ts.foldlM (step limit') p = some q := by
  induction ts with
  | nil => exact fun h _ => h
  | cons t ts ih =>
      intro p q h hlimit
      rw [List.length_cons] at hlimit
      rw [List.foldlM_cons] at h ⊢
      obtain ⟨r, hstep, h⟩ := Option.bind_eq_some_iff.1 h
      have hroom : p.stack.length < limit' := by omega
      obtain ⟨hstep', hlength⟩ := step_within hstep hroom
      rw [hstep']
      exact ih h (by omega)

/-- Lexemes that stand for tokens wherever they stand are taken like these. -/
theorem foldlM_skim {limit : Nat} {f : Token → Lexeme} {g : Token → Token}
    (h : ∀ t p, (f t).token? p = some (g t)) (ts : List Token) (p : Progress) :
    (ts.map f).foldlM (skim limit) p = (ts.map g).foldlM (step limit) p := by
  induction ts generalizing p with
  | nil => rfl
  | cons t ts ih =>
      rw [List.map_cons, List.map_cons, List.foldlM_cons, List.foldlM_cons, skim, h t p,
        Option.bind_some]
      cases p.step limit (g t) with
      | none => rfl
      | some q => exact ih q

end Progress

/-- **A text that is read is skimmed to the same value.** -/
theorem skim_of_read {s : String} {v : Json} (h : read s = some v) : skim s = some v := by
  obtain ⟨ts, hscan, h⟩ := Option.bind_eq_some_iff.1 h
  obtain ⟨p, hfold, hdone⟩ := Option.bind_eq_some_iff.1 h
  have hlength : Progress.start.stack.length + ts.length ≤ (ts.map Lexeme.token).length := by
    simp [Progress.start]
  rw [skim, scan_lexemes hscan, Option.bind_some, ofLexemes?,
    Progress.foldlM_skim (g := id) fun _ _ => rfl, List.map_id,
    Progress.foldlM_within hfold hlength, Option.bind_some, hdone]

/-! ### The form of a number -/

/-- There is a character, and all are digits. -/
def IsDigits (cs : List Char) : Prop := cs ≠ [] ∧ ∀ c ∈ cs, (digit? c).isSome

theorem isDigits_digits (n : Nat) : IsDigits (digits n) :=
  ⟨digits_ne_nil n, fun _ hc => digit?_of_mem_digits hc⟩

theorem isDigits_zero : IsDigits ['0'] := by
  refine ⟨List.cons_ne_nil _ _, fun c hc => ?_⟩
  rw [List.mem_singleton.1 hc]
  rfl

theorem IsDigits.append {cs ds : List Char} (h : IsDigits cs) (hd : ∀ c ∈ ds, (digit? c).isSome) :
    IsDigits (cs ++ ds) :=
  ⟨by simp [h.1], fun c hc => (List.mem_append.1 hc).elim (h.2 c) (hd c)⟩

/-- The parts of a number: digits in front of the point, of which a zero is the only one if it is
the first; a point with digits; and an exponent. -/
structure IsParted (whole fraction exponent : List Char) : Prop where
  isDigits : IsDigits whole
  zero_alone : ∀ cs, whole = '0' :: cs → cs = []
  isFraction : fraction = [] ∨ ∃ ds, IsDigits ds ∧ fraction = '.' :: ds
  isExponent : exponent = [] ∨ ∃ ds, IsDigits ds ∧ (exponent = 'e' :: ds ∨ exponent = 'e' :: '-' :: ds)

/-- Characters have the form of a number. -/
inductive IsWritten : List Char → Prop where
  | plain {whole fraction exponent : List Char} : IsParted whole fraction exponent →
      IsWritten (whole ++ (fraction ++ exponent))
  | negative {whole fraction exponent : List Char} : IsParted whole fraction exponent →
      IsWritten ('-' :: (whole ++ (fraction ++ exponent)))

namespace Lexeme

theorem passDigits_append {ds rest : List Char} (h : IsDigits ds)
    (hr : ∀ c ∈ rest.head?, digit? c = none) : passDigits (ds ++ rest) = some rest := by
  have hrest : rest.takeWhile (fun c => (digit? c).isSome) = [] ∧
      rest.dropWhile (fun c => (digit? c).isSome) = rest := by
    cases rest with
    | nil => exact ⟨rfl, rfl⟩
    | cons c rest => simp [hr c rfl]
  obtain ⟨c, cs, rfl⟩ := List.exists_cons_of_ne_nil h.1
  rw [passDigits, List.span_eq_takeWhile_dropWhile, List.takeWhile_append_of_pos h.2,
    List.dropWhile_append_of_pos h.2, hrest.1, hrest.2, List.append_nil]

theorem passDigits_self {ds : List Char} (h : IsDigits ds) : passDigits ds = some [] := by
  have := @passDigits_append ds [] h nofun
  rwa [List.append_nil] at this

theorem ne_of_isDigits {ds : List Char} (h : IsDigits ds) {c : Char} (hc : digit? c = none)
    (cs : List Char) : ds ≠ c :: cs := by
  rintro rfl
  have := h.2 c List.mem_cons_self
  rw [hc] at this
  cases this

theorem passSign_of_isDigits {ds : List Char} (h : IsDigits ds) : passSign ds = ds := by
  unfold passSign
  split
  · exact absurd rfl (ne_of_isDigits h (by decide) _)
  · exact absurd rfl (ne_of_isDigits h (by decide) _)
  · rfl

theorem passWhole_append {whole rest : List Char} (h : IsDigits whole)
    (hzero : ∀ cs, whole = '0' :: cs → cs = []) (hr : ∀ c ∈ rest.head?, digit? c = none) :
    passWhole (whole ++ rest) = some rest := by
  obtain ⟨c, cs, rfl⟩ := List.exists_cons_of_ne_nil h.1
  by_cases hc : c = '0'
  · subst hc
    rw [hzero cs rfl]
    rfl
  · have hpass : passWhole (c :: cs ++ rest) = passDigits (c :: cs ++ rest) := by
      rw [passWhole]
      exact fun _ he => hc (List.cons.inj he).1
    rw [hpass, passDigits_append h hr]

theorem passFraction_append {fraction rest : List Char}
    (h : fraction = [] ∨ ∃ ds, IsDigits ds ∧ fraction = '.' :: ds)
    (hr : ∀ c ∈ rest.head?, digit? c = none ∧ c ≠ '.') :
    passFraction (fraction ++ rest) = some rest := by
  rcases h with rfl | ⟨ds, hds, rfl⟩
  · rw [List.nil_append]
    cases rest with
    | nil => rfl
    | cons c rest =>
        rw [passFraction]
        exact fun _ he => (hr c rfl).2 (List.cons.inj he).1
  · exact passDigits_append hds fun c hc => (hr c hc).1

theorem passExponent_self {exponent : List Char}
    (h : exponent = [] ∨ ∃ ds, IsDigits ds ∧ (exponent = 'e' :: ds ∨ exponent = 'e' :: '-' :: ds)) :
    passExponent exponent = some [] := by
  rcases h with rfl | ⟨ds, hds, rfl | rfl⟩
  · rfl
  · rw [passExponent, if_pos (.inl rfl), passSign_of_isDigits hds, passDigits_self hds]
  · exact passDigits_self hds

theorem pass_of_isParted {whole fraction exponent : List Char}
    (h : IsParted whole fraction exponent) :
    ((passWhole (whole ++ (fraction ++ exponent))).bind passFraction).bind passExponent =
      some [] := by
  have hexponent : ∀ c ∈ exponent.head?, digit? c = none ∧ c ≠ '.' := by
    rcases h.isExponent with rfl | ⟨ds, -, rfl | rfl⟩
    · nofun
    all_goals
      intro c hc
      cases hc
      decide
  have hfraction : ∀ c ∈ (fraction ++ exponent).head?, digit? c = none := by
    rcases h.isFraction with rfl | ⟨ds, -, rfl⟩
    · exact fun c hc => (hexponent c hc).1
    · intro c hc
      cases hc
      decide
  rw [passWhole_append h.isDigits h.zero_alone hfraction, Option.bind_some,
    passFraction_append h.isFraction hexponent, Option.bind_some, passExponent_self h.isExponent]

theorem isNumeral_of_isWritten {cs : List Char} (h : IsWritten cs) : isNumeral cs = true := by
  refine decide_eq_true ?_
  cases h with
  | @plain whole fraction exponent h =>
      have hminus : passMinus (whole ++ (fraction ++ exponent)) = whole ++ (fraction ++ exponent) := by
        obtain ⟨c, ds, hw⟩ := List.exists_cons_of_ne_nil h.isDigits.1
        rw [hw, passMinus]
        intro _ he
        exact ne_of_isDigits h.isDigits (c := '-') (by decide) ds
          (hw.trans (by rw [(List.cons.inj he).1]))
      rw [hminus, pass_of_isParted h]
  | negative h => exact pass_of_isParted h

end Lexeme

theorem inNumber_of_isDigits {ds : List Char} (h : IsDigits ds) :
    ∀ c ∈ ds, Token.inNumber c = true := fun c hc => by simp [Token.inNumber, h.2 c hc]

theorem IsParted.inNumber {whole fraction exponent : List Char}
    (h : IsParted whole fraction exponent) :
    ∀ c ∈ whole ++ (fraction ++ exponent), Token.inNumber c = true := by
  intro c hc
  rcases List.mem_append.1 hc with hc | hc
  · exact inNumber_of_isDigits h.isDigits c hc
  rcases List.mem_append.1 hc with hc | hc
  · rcases h.isFraction with rfl | ⟨ds, hds, rfl⟩
    · cases hc
    · rcases List.mem_cons.1 hc with rfl | hc
      · rfl
      · exact inNumber_of_isDigits hds c hc
  · rcases h.isExponent with rfl | ⟨ds, hds, rfl | rfl⟩
    · cases hc
    · rcases List.mem_cons.1 hc with rfl | hc
      · rfl
      · exact inNumber_of_isDigits hds c hc
    · rcases List.mem_cons.1 hc with rfl | hc
      · rfl
      rcases List.mem_cons.1 hc with rfl | hc
      · rfl
      · exact inNumber_of_isDigits hds c hc

theorem IsWritten.inNumber {cs : List Char} (h : IsWritten cs) :
    ∀ c ∈ cs, Token.inNumber c = true := by
  cases h with
  | plain h => exact h.inNumber
  | negative h =>
      intro c hc
      rcases List.mem_cons.1 hc with rfl | hc
      · rfl
      · exact h.inNumber c hc

theorem IsWritten.ne_nil {cs : List Char} (h : IsWritten cs) : cs ≠ [] := by
  cases h with
  | plain h => simp [h.isDigits.1]
  | negative h => simp

/-! ### Numbers that are written -/

/-- A number of which there are digits only. -/
theorem isParted_of_isDigits {ds : List Char} (h : IsDigits ds)
    (hzero : ∀ cs, ds = '0' :: cs → cs = []) : IsParted ds [] [] :=
  ⟨h, hzero, .inl rfl, .inl rfl⟩

theorem zero_digits (n : Nat) : ∀ cs, digits n = '0' :: cs → cs = [] := by
  intro cs h
  have hlength := Token.digits_length_eq_one (n := n) (by rw [h]; rfl)
  rw [h, List.length_cons] at hlength
  exact List.length_eq_zero_iff.1 (Nat.succ.inj hlength)

theorem isWritten_intText (i : Int) : IsWritten (intText i).toList := by
  have hparted : IsParted (digits i.natAbs) [] [] :=
    isParted_of_isDigits (isDigits_digits _) (zero_digits _)
  unfold intText
  split
  · rw [String.toList_append, toList_natText]
    have := IsWritten.negative hparted
    simpa using this
  · rw [toList_natText]
    have := IsWritten.plain hparted
    simpa using this

theorem isDigits_zeros_append {n : Nat} {ds : List Char} (h : IsDigits ds) :
    IsDigits (Binary64.zeros n ++ ds) :=
  ⟨by simp [h.1], fun c hc => (List.mem_append.1 hc).elim
    (fun hc => List.eq_of_mem_replicate hc ▸ rfl) (h.2 c)⟩

theorem isDigits_append_zeros {n : Nat} {ds : List Char} (h : IsDigits ds) :
    IsDigits (ds ++ Binary64.zeros n) :=
  h.append fun _ hc => List.eq_of_mem_replicate hc ▸ rfl

/-- The characters of an exponent. -/
theorem exponent_intText (i : Int) : ∃ ds, IsDigits ds ∧
    ('e' :: (intText i).toList = 'e' :: ds ∨ 'e' :: (intText i).toList = 'e' :: '-' :: ds) := by
  refine ⟨digits i.natAbs, isDigits_digits _, ?_⟩
  unfold intText
  split
  · rw [String.toList_append, toList_natText]
    exact .inr rfl
  · rw [toList_natText]
    exact .inl rfl

/-- Digits that do not begin with a zero have none too many. -/
theorem noZero_of_head? {ds : List Char} (h : ds.head? ≠ some '0') (cs : List Char)
    (hcs : ds = '0' :: cs) : cs = [] :=
  absurd (by rw [hcs]; rfl) h

theorem isParted_point {whole ds : List Char} (hwhole : IsDigits whole)
    (hzero : ∀ cs, whole = '0' :: cs → cs = []) (hds : IsDigits ds) :
    IsParted whole ('.' :: ds) [] :=
  ⟨hwhole, hzero, .inr ⟨ds, hds, rfl⟩, .inl rfl⟩

/-- A point may stand between any two digits when the first is not zero. -/
theorem isParted_take {ds : List Char} (hds : IsDigits ds) (hne : ds.head? ≠ some '0') {k : Nat}
    (hpos : 0 < k) (hlt : k < ds.length) : IsParted (ds.take k) ('.' :: ds.drop k) [] := by
  refine isParted_point ⟨?_, fun c hc => hds.2 c (List.mem_of_mem_take hc)⟩ (noZero_of_head? ?_)
    ⟨?_, fun c hc => hds.2 c (List.mem_of_mem_drop hc)⟩
  · exact fun hnil => (List.take_eq_nil_iff.1 hnil).elim (Nat.ne_of_gt hpos) hds.1
  · rwa [List.head?_take, if_neg (Nat.ne_of_gt hpos)]
  · exact fun hnil => absurd (List.drop_eq_nil_iff.1 hnil) (Nat.not_le.2 hlt)

/-- A digit may be followed by others behind a point, and by an exponent. -/
theorem exists_isParted_exponent {c : Char} {cs : List Char} (hds : IsDigits (c :: cs)) (i : Int) :
    ∃ fraction, IsParted [c] fraction ('e' :: (intText i).toList) ∧
      (cs = [] ∧ fraction = [] ∨ cs ≠ [] ∧ fraction = '.' :: cs) := by
  have hone : IsDigits [c] := ⟨List.cons_ne_nil c [], fun a ha => hds.2 a (by simp_all)⟩
  have hzero : ∀ as, [c] = '0' :: as → as = [] := fun _ he => (List.cons.inj he).2.symm
  have hexponent := exponent_intText i
  by_cases hcs : cs = []
  · exact ⟨[], ⟨hone, hzero, .inl rfl, .inr hexponent⟩, .inl ⟨hcs, rfl⟩⟩
  · have hrest : IsDigits cs := ⟨hcs, fun a ha => hds.2 a (List.mem_cons_of_mem c ha)⟩
    exact ⟨'.' :: cs, ⟨hone, hzero, .inr ⟨cs, hrest, rfl⟩, .inr hexponent⟩, .inr ⟨hcs, rfl⟩⟩

/-- A floating-point number is written in parts behind its sign. -/
theorem scientific_parts {x : Binary64} {d : Binary64.Digits} (h : x.shortest = some d) :
    ∃ whole fraction exponent, IsParted whole fraction exponent ∧
      x.scientific = x.signText ++ String.ofList (whole ++ (fraction ++ exponent)) := by
  have hspec := Binary64.shortest_spec h
  have hcount : (digits d.value).length = d.count := by
    rcases hspec with rfl | hd
    · exact congrArg List.length (digits_of_lt (n := 0) (by decide))
    · exact hd.2
  -- only zero starts with a zero, and its point stands right behind it
  have hfirst : (digits d.value).head? ≠ some '0' ∨ d = ⟨0, 1, 1⟩ :=
    hspec.elim .inr fun hd => .inl (head?_digits hd.1)
  have hpadded : padded d.count d.value = digits d.value := by
    rw [padded, hcount, Nat.sub_self]
    rfl
  have hds := isDigits_digits d.value
  unfold Binary64.scientific
  simp only [h, hpadded]
  by_cases hpoint : 0 < d.place ∧ d.place ≤ 16
  · rw [if_pos hpoint]
    by_cases hle : (d.count : Int) ≤ d.place
    · rw [if_pos hle]
      refine ⟨digits d.value ++ Binary64.zeros (d.place.toNat - d.count), ['.', '0'], [],
        isParted_point (isDigits_append_zeros hds) ?_ isDigits_zero, by simp⟩
      rcases hfirst with hne | rfl
      · obtain ⟨c, ds, hc⟩ := List.exists_cons_of_ne_nil hds.1
        rw [hc] at hne ⊢
        exact noZero_of_head? hne
      · intro cs hcs
        rw [digits_of_lt (by decide)] at hcs
        exact ((List.cons.inj hcs).2).symm
    · rw [if_neg hle]
      have hne : (digits d.value).head? ≠ some '0' :=
        hfirst.elim id fun hd => absurd (by rw [hd]; decide) hle
      exact ⟨_, _, [], isParted_take hds hne (k := d.place.toNat) (by omega) (by omega), by simp⟩
  · rw [if_neg hpoint]
    by_cases hsmall : -5 < d.place ∧ d.place ≤ 0
    · rw [if_pos hsmall]
      have hone : ∀ cs, ['0'] = '0' :: cs → cs = [] := fun _ hcs => (List.cons.inj hcs).2.symm
      exact ⟨['0'], '.' :: (Binary64.zeros (-d.place).toNat ++ digits d.value), [],
        isParted_point isDigits_zero hone (isDigits_zeros_append hds), by simp⟩
    · rw [if_neg hsmall]
      obtain ⟨c, cs, hcs⟩ := List.exists_cons_of_ne_nil hds.1
      rw [hcs] at hds ⊢
      obtain ⟨fraction, hparted, hcase⟩ := exists_isParted_exponent hds (d.place - 1)
      refine ⟨[c], fraction, _, hparted, ?_⟩
      rcases hcase with ⟨rfl, rfl⟩ | ⟨hne, rfl⟩
      · rfl
      · obtain ⟨c', cs, rfl⟩ := List.exists_cons_of_ne_nil hne
        simp

theorem isWritten_scientific {x : Binary64} (h : x.isFinite = true) :
    IsWritten x.scientific.toList := by
  obtain ⟨d, hd⟩ : ∃ d, x.shortest = some d := by
    simp only [Binary64.isFinite, decide_eq_true_eq] at h
    simp only [Binary64.shortest, Binary64.magnitude?, if_neg h]
    split <;> exact ⟨_, rfl⟩
  obtain ⟨whole, fraction, exponent, hparted, hx⟩ := scientific_parts hd
  rw [hx, String.toList_append, String.toList_ofList, Binary64.signText]
  split
  · have := IsWritten.negative hparted
    simpa using this
  · have := IsWritten.plain hparted
    simpa using this

/-! ### What is left of a value -/

/-- What is left of a token that is written and skimmed: a number that cannot be read is null. -/
def Token.left (t : Token) : Token := t.reread.getD .null

/-- The lexeme of a token that is written. -/
def Lexeme.ofToken (t : Token) : Lexeme :=
  match t.reread with
  | some u => .token u
  | none => if Token.chars t = Token.chars .null then .token .null else .number

theorem Lexeme.token?_ofToken (t : Token) (p : Progress) :
    (Lexeme.ofToken t).token? p = some t.left := by
  unfold Lexeme.ofToken Token.left
  cases t.reread with
  | some u => rfl
  | none => dsimp only; split <;> rfl

theorem Lexeme.next?_of_token {cs rest : List Char} {t : Token}
    (h : Token.next? cs = some (t, rest)) : Lexeme.next? cs = some (.token t, rest) := by
  simp only [Lexeme.next?, h]

/-- What is written for a number is null, or has the form of one. -/
theorem isWritten_chars (n : Number) :
    Token.chars (.number n) = Token.chars .null ∨ IsWritten (Token.chars (.number n)) := by
  cases n with
  | int i => exact .inr (isWritten_intText i)
  | float x =>
      by_cases hx : x.isFinite
      · refine .inr ?_
        rw [Token.chars, if_pos hx]
        exact isWritten_scientific hx
      · exact .inl (if_neg hx)

theorem finds_of_isWritten {n : Number} (h : IsWritten (Token.chars (.number n))) :
    Finds Lexeme.next? (some ∘ Lexeme.ofToken) (.number n) := by
  obtain ⟨c, cs, hc⟩ := List.exists_cons_of_ne_nil h.ne_nil
  have hin : Token.inNumber c = true := h.inNumber c (hc ▸ List.mem_cons_self)
  have hnull : Token.chars (.number n) ≠ Token.chars .null := fun hnull => by
    rw [hc] at hnull
    rw [(List.cons.inj hnull).1] at hin
    exact absurd hin (by decide)
  refine ⟨⟨c, cs, hc, isGap_of_inNumber hin⟩, fun rest hrest => ?_⟩
  have hspan := Token.span_inNumber h.inNumber hrest
  have hnumeral := Lexeme.isNumeral_of_isWritten h
  have hnext := @Token.next?_of_inNumber c (cs ++ rest) hin
  rw [Function.comp_apply, Option.map_some, Lexeme.ofToken, if_neg hnull, Token.reread]
  rw [hc] at hspan hnumeral ⊢
  rw [List.cons_append] at hspan ⊢
  rw [hspan] at hnext
  cases hread : Token.readNumber (c :: cs) with
  | some m =>
      rw [hread] at hnext
      exact Lexeme.next?_of_token hnext
  | none =>
      rw [hread] at hnext
      have hquote : c ≠ '"' := by
        rintro rfl
        exact absurd hin (by decide)
      simp only [Lexeme.next?, hnext, Option.map_none]
      split
      case h_1 heq => exact absurd (List.cons.inj heq).1 hquote
      case h_2 => rw [hspan, if_pos hnumeral]

theorem finds_ofToken (t : Token) : Finds Lexeme.next? (some ∘ Lexeme.ofToken) t := by
  have hother : ∀ {u}, Token.IsWhole u → u.reread = some u → ∀ rest, Token.Delimited rest →
      Lexeme.next? (Token.chars u ++ rest) = some (.token u, rest) := by
    intro u hwhole hu rest hrest
    refine Lexeme.next?_of_token ?_
    rw [Token.next?_chars hwhole hrest, hu]
    rfl
  by_cases hnumber : ∃ n, t = .number n
  · obtain ⟨n, rfl⟩ := hnumber
    rcases isWritten_chars n with hnull | hwritten
    · refine ⟨hnull ▸ chars_ne_nil (t := .null) trivial, fun rest hrest => ?_⟩
      have hreread : Token.reread (.number n) = none := by
        rw [Token.reread, hnull]
        decide
      rw [Function.comp_apply, Lexeme.ofToken, hreread, hnull,
        hother (u := .null) trivial rfl rest hrest]
      rfl
    · exact finds_of_isWritten hwritten
  · have hne : ∀ n, t ≠ .number n := fun n hn => hnumber ⟨n, hn⟩
    have hreread : t.reread = some t := by
      cases t with
      | number n => exact absurd rfl (hne n)
      | _ => rfl
    refine ⟨chars_ne_nil (isWhole_of_ne_number hne), fun rest hrest => ?_⟩
    rw [hother (isWhole_of_ne_number hne) hreread rest hrest, Function.comp_apply,
      Lexeme.ofToken, hreread]
    rfl

mutual

/-- What is left of a value that is written and skimmed. -/
def skimmed : Json → Json
  | .number n => ((Token.readNumber (Token.chars (.number n))).map .number).getD .null
  | .array items => .array (skimmedItems items)
  | .object ms => .object (skimmedMembers ms)
  | v => v

/-- What is left of items. -/
def skimmedItems : List Json → List Json
  | [] => []
  | v :: vs => skimmed v :: skimmedItems vs

/-- What is left of members. -/
def skimmedMembers : List (String × Json) → List (String × Json)
  | [] => []
  | (name, v) :: ms => (name, skimmed v) :: skimmedMembers ms

end

mutual

theorem tokens_skimmed : ∀ v : Json, v.skimmed.tokens = v.tokens.map Token.left
  | .null | .bool _ | .string _ => rfl
  | .number n => by
      rw [skimmed, tokens, List.map_singleton, Token.left, Token.reread]
      cases Token.readNumber (Token.chars (.number n)) <;> rfl
  | .array items => by
      simp [skimmed, tokens, itemTokens_skimmed items, Token.left, Token.reread]
  | .object ms => by
      simp [skimmed, tokens, memberTokens_skimmed ms, Token.left, Token.reread]

theorem itemTokens_skimmed : ∀ vs, itemTokens (skimmedItems vs) = (itemTokens vs).map Token.left
  | [] => rfl
  | [v] => tokens_skimmed v
  | v :: w :: ws => by
      have := itemTokens_skimmed (w :: ws)
      simp only [skimmedItems] at this ⊢
      simp [itemTokens, tokens_skimmed v, this, Token.left, Token.reread]

theorem memberTokens_skimmed :
    ∀ ms, memberTokens (skimmedMembers ms) = (memberTokens ms).map Token.left
  | [] => rfl
  | [(name, v)] => by
      simp [skimmedMembers, memberTokens, tokens_skimmed v, Token.left, Token.reread]
  | (name, v) :: (name', w) :: ks => by
      have := memberTokens_skimmed ((name', w) :: ks)
      simp only [skimmedMembers] at this ⊢
      simp [memberTokens, tokens_skimmed v, this, Token.left, Token.reread]

end

mutual

/-- Each array and object that stands within another has a token of its own. -/
theorem depth_le_tokens : ∀ v : Json, depth v ≤ v.tokens.length
  | .null | .bool _ | .number _ | .string _ => Nat.zero_le _
  | .array items => by
      have := itemsDepth_le_tokens items
      simp only [depth, tokens, List.length_append, List.length_cons, List.length_nil]
      omega
  | .object ms => by
      have := membersDepth_le_tokens ms
      simp only [depth, tokens, List.length_append, List.length_cons, List.length_nil]
      omega

theorem itemsDepth_le_tokens : ∀ vs, itemsDepth vs ≤ (itemTokens vs).length
  | [] => Nat.zero_le _
  | [v] => by simpa [itemsDepth, itemTokens] using depth_le_tokens v
  | v :: w :: ws => by
      have := depth_le_tokens v
      have := itemsDepth_le_tokens (w :: ws)
      rw [itemsDepth]
      simp only [itemTokens, List.length_append, List.length_cons] at *
      omega

theorem membersDepth_le_tokens : ∀ ms, membersDepth ms ≤ (memberTokens ms).length
  | [] => Nat.zero_le _
  | [(name, v)] => by
      have := depth_le_tokens v
      simp only [membersDepth, memberTokens, List.length_cons]
      omega
  | (name, v) :: k :: ks => by
      have := depth_le_tokens v
      have := membersDepth_le_tokens (k :: ks)
      rw [membersDepth]
      simp only [memberTokens, List.length_append, List.length_cons] at *
      omega

end

/-- **Every value that is written can be skimmed.** -/
theorem skim_pretty (v : Json) : skim v.pretty = some v.skimmed := by
  have hscan : Token.scan Lexeme.next? v.pretty.toList.length v.pretty.toList =
      some (v.tokens.map Lexeme.ofToken) := by
    rw [scan_pretty (fun t _ => finds_ofToken t) fun n _ => finds_ofToken (.number n)]
    exact List.mapM_pure
  have hdepth : Progress.start.stack.length + depth v.skimmed ≤
      (v.tokens.map Lexeme.ofToken).length := by
    have := depth_le_tokens v.skimmed
    rw [tokens_skimmed, List.length_map] at this
    rw [List.length_map]
    simpa [Progress.start] using this
  rw [skim, hscan, Option.bind_some, ofLexemes?, Progress.foldlM_skim Lexeme.token?_ofToken,
    ← tokens_skimmed, Progress.start, foldlM_tokens v.skimmed [] .value rfl hdepth]
  rfl

end RouteServer.Json
