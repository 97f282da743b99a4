import RouteServer.Json.Printer
import RouteServer.Json.Reader
import RouteServer.Proofs.Json.Token

/-!
# Json — a printed value is read back

Two halves meet at the tokens of a value.  A scanner that finds every token that is written (`Finds`)
finds these tokens in either layout, since a layout only puts blanks between them (`Takes`); and the
reader builds the value from them, with the arrays and objects around it on its stack
(`foldlM_tokens`).

**Round trip** (`read_pretty`).  A value whose numbers are words of 64 bits and whose arrays and
objects stand at most 127 deep is read from its own text.  When a number is no such word the text is
still read as the tokens that are left of it (`read_pretty_eq`).
-/

namespace RouteServer.Json

open RouteServer.Text

/-! ### Scanning a layout -/

section Scan

variable {τ : Type} {next : List Char → Option (τ × List Char)} {back : Token → Option τ}

variable (next back) in
/-- The scanner finds a token that is written, and reads it back as `back` says. -/
structure Finds (t : Token) : Prop where
  begins : ∃ c cs, Token.chars t = c :: cs ∧ Token.isGap c = false
  next_chars : ∀ rest, Token.Delimited rest →
    next (Token.chars t ++ rest) = (back t).map fun u => (u, rest)

variable (next back) in
/-- Scanning the characters finds the tokens, as they are read back, and goes on behind them. -/
def Takes (cs : List Char) (ts : List Token) : Prop :=
  ∀ rest n, Token.Delimited rest → (cs ++ rest).length ≤ n →
    ∃ m, rest.length ≤ m ∧
      Token.scan next n (cs ++ rest) =
        (ts.mapM back).bind fun us => (Token.scan next m rest).map (us ++ ·)

/-- The characters start with one that does not extend a number. -/
def Begins (cs : List Char) : Prop := ∃ c ds, cs = c :: ds ∧ Token.inNumber c = false

theorem Begins.append {cs : List Char} (h : Begins cs) (ds : List Char) : Begins (cs ++ ds) := by
  obtain ⟨c, es, rfl, hc⟩ := h
  exact ⟨c, es ++ ds, rfl, hc⟩

theorem Begins.delimited {cs : List Char} (h : Begins cs) (rest : List Char) :
    Token.Delimited (cs ++ rest) := by
  obtain ⟨c, es, rfl, hc⟩ := h
  intro x hx
  cases hx
  exact hc

theorem scan_gap {gap : List Char} (h : ∀ c ∈ gap, Token.isGap c = true) (n : Nat)
    (rest : List Char) : Token.scan next n (gap ++ rest) = Token.scan next n rest := by
  cases n with
  | zero => simp only [Token.scan, List.all_append, List.all_eq_true.2 h, Bool.true_and]
  | succ n => simp only [Token.scan, List.dropWhile_append_of_pos h]

theorem Finds.takes {t : Token} (h : Finds next back t) : Takes next back (Token.chars t) [t] := by
  intro rest n hr hn
  obtain ⟨c, cs, hc, hgap⟩ := h.begins
  have hnext := h.next_chars rest hr
  rw [hc, List.cons_append] at hn hnext ⊢
  cases n with
  | zero => simp at hn
  | succ n =>
      refine ⟨n, by simp only [List.length_cons, List.length_append] at hn; omega, ?_⟩
      rw [Token.scan, List.dropWhile_cons_of_neg (by simp [hgap])]
      simp only [hnext]
      cases hu : back t with
      | none => simp [hu]
      | some u => cases hs : Token.scan next n rest <;> simp [hu, hs]

theorem Takes.append {as bs : List Char} {ts us : List Token} (ha : Takes next back as ts)
    (hb : Takes next back bs us) (hbegin : Begins bs) : Takes next back (as ++ bs) (ts ++ us) := by
  intro rest n hr hn
  rw [List.append_assoc] at hn ⊢
  obtain ⟨m, hm, hscan⟩ := ha (bs ++ rest) n (hbegin.delimited rest) hn
  obtain ⟨k, hk, hscan'⟩ := hb rest m hr hm
  refine ⟨k, hk, ?_⟩
  rw [hscan, hscan', List.mapM_append]
  cases ts.mapM back with
  | none => rfl
  | some xs =>
      cases us.mapM back with
      | none => rfl
      | some ys => cases Token.scan next k rest <;> simp

theorem isGap_of_mem_newLine {d : Nat} {c : Char} (h : c ∈ newLine d) : Token.isGap c = true := by
  rcases List.mem_cons.1 h with rfl | h
  · rfl
  · rw [List.eq_of_mem_replicate h]; rfl

theorem begins_newLine (d : Nat) : Begins (newLine d) := ⟨_, _, rfl, rfl⟩

theorem Takes.newLine {cs : List Char} {ts : List Token} (h : Takes next back cs ts) (d : Nat) :
    Takes next back (newLine d ++ cs) ts := by
  intro rest n hr hn
  rw [List.append_assoc] at hn ⊢
  rw [scan_gap fun c hc => isGap_of_mem_newLine hc]
  refine h rest n hr (Nat.le_trans ?_ hn)
  simp

theorem begins_itemLines (d : Nat) (v : Json) (vs : List Json) :
    Begins (itemLines d (v :: vs)) := by
  cases vs <;> simp only [itemLines, List.append_assoc] <;> exact (begins_newLine d).append _

theorem begins_memberLines (d : Nat) (m : String × Json) (ms : List (String × Json)) :
    Begins (memberLines d (m :: ms)) := by
  cases ms <;> simp only [memberLines, List.append_assoc] <;> exact (begins_newLine d).append _

variable (hplain : ∀ t, (∀ n, t ≠ .number n) → Finds next back t)

include hplain

/-- A member: its name, a colon and a blank, and its value. -/
theorem takes_member (name : String) {cs : List Char} {ts : List Token} (h : Takes next back cs ts)
    (d : Nat) :
    Takes next back (Json.newLine d ++ Token.quoted name ++ ':' :: ' ' :: cs)
      (.string name :: .colon :: ts) := by
  have hvalue : Takes next back (' ' :: cs) ts := fun rest n hr hn => by
    rw [show ' ' :: cs ++ rest = [' '] ++ (cs ++ rest) from rfl] at hn ⊢
    rw [scan_gap (by simp [Token.isGap])]
    exact h rest n hr (by simp only [List.length_append, List.length_singleton] at hn ⊢; omega)
  have hcolon : Takes next back (':' :: ' ' :: cs) (.colon :: ts) :=
    (hplain .colon nofun).takes.append hvalue ⟨_, _, rfl, rfl⟩
  have hname : Takes next back (Token.quoted name ++ ':' :: ' ' :: cs)
      (.string name :: .colon :: ts) :=
    (hplain (.string name) nofun).takes.append hcolon ⟨_, _, rfl, rfl⟩
  rw [List.append_assoc]
  exact hname.newLine d

mutual

theorem takes_layout (d : Nat) : ∀ v : Json,
    (∀ n, .number n ∈ v.tokens → Finds next back (.number n)) →
    Takes next back (layout d v) v.tokens
  | .null, _ => (hplain .null nofun).takes
  | .bool b, _ => (hplain (.bool b) nofun).takes
  | .number n, h => (h n (by simp [tokens])).takes
  | .string s, _ => (hplain (.string s) nofun).takes
  | .array [], _ =>
      (hplain .openArray nofun).takes.append (hplain .closeArray nofun).takes ⟨_, _, rfl, rfl⟩
  | .array (v :: vs), h => by
      have hitems := takes_itemLines (d + 1) (v :: vs) (by simp) fun n hn =>
        h n (by simp [tokens, hn])
      have hclose := (hplain .closeArray nofun).takes.newLine d
      have hopen := (hplain .openArray nofun).takes.append
        (hitems.append hclose ((begins_newLine d).append _)) ((begins_itemLines _ v vs).append _)
      simpa [layout, tokens, Token.chars] using hopen
  | .object [], _ =>
      (hplain .openObject nofun).takes.append (hplain .closeObject nofun).takes ⟨_, _, rfl, rfl⟩
  | .object (m :: ms), h => by
      have hmembers := takes_memberLines (d + 1) (m :: ms) (by simp) fun n hn =>
        h n (by simp [tokens, hn])
      have hclose := (hplain .closeObject nofun).takes.newLine d
      have hopen := (hplain .openObject nofun).takes.append
        (hmembers.append hclose ((begins_newLine d).append _))
        ((begins_memberLines _ m ms).append _)
      simpa [layout, tokens, Token.chars] using hopen

theorem takes_itemLines (d : Nat) : ∀ vs : List Json, vs ≠ [] →
    (∀ n, .number n ∈ itemTokens vs → Finds next back (.number n)) →
    Takes next back (itemLines d vs) (itemTokens vs)
  | [], hne, _ => absurd rfl hne
  | [v], _, h => (takes_layout d v h).newLine d
  | v :: w :: ws, _, h => by
      have hv := (takes_layout d v fun n hn => h n (by simp [itemTokens, hn])).newLine d
      have hws := takes_itemLines d (w :: ws) (by simp) fun n hn => h n (by simp [itemTokens, hn])
      have hcomma := (hplain .comma nofun).takes.append hws (begins_itemLines d w ws)
      exact hv.append hcomma ⟨_, _, rfl, rfl⟩

theorem takes_memberLines (d : Nat) : ∀ ms : List (String × Json), ms ≠ [] →
    (∀ n, .number n ∈ memberTokens ms → Finds next back (.number n)) →
    Takes next back (memberLines d ms) (memberTokens ms)
  | [], hne, _ => absurd rfl hne
  | [(name, v)], _, h =>
      takes_member hplain name (takes_layout d v fun n hn => h n (by simp [memberTokens, hn])) d
  | (name, v) :: k :: ks, _, h => by
      have hv := takes_member hplain name
        (takes_layout d v fun n hn => h n (by simp [memberTokens, hn])) d
      have hks := takes_memberLines d (k :: ks) (by simp) fun n hn =>
        h n (by simp [memberTokens, hn])
      have hcomma := (hplain .comma nofun).takes.append hks (begins_memberLines d k ks)
      have := hv.append hcomma ⟨_, _, rfl, rfl⟩
      simpa [memberLines, memberTokens, Token.chars] using this

end

/-- Scanning the text of a value finds the tokens of the value, as they are read back. -/
theorem scan_pretty {v : Json} (h : ∀ n, .number n ∈ v.tokens → Finds next back (.number n)) :
    Token.scan next v.pretty.toList.length v.pretty.toList = v.tokens.mapM back := by
  have hchars : v.pretty.toList = layout 0 v := String.toList_ofList
  have hnil : ∀ m, Token.scan next m [] = some [] := fun m => by cases m <;> rfl
  obtain ⟨m, -, hm⟩ := takes_layout hplain 0 v h [] (layout 0 v).length
    (by simp [Token.Delimited]) (by simp)
  rw [List.append_nil] at hm
  rw [hchars, hm, hnil]
  cases v.tokens.mapM back <;> simp

end Scan

theorem isGap_of_inNumber {c : Char} (h : Token.inNumber c = true) : Token.isGap c = false := by
  by_contra hgap
  simp only [Token.isGap, Bool.not_eq_false, Bool.or_eq_true, decide_eq_true_eq] at hgap
  rcases hgap with ((rfl | rfl) | rfl) | rfl <;> exact absurd h (by decide)

theorem chars_ne_nil {t : Token} (ht : t.IsWhole) :
    ∃ c cs, Token.chars t = c :: cs ∧ Token.isGap c = false := by
  cases t with
  | openArray | closeArray | openObject | closeObject | comma | colon | null =>
      exact ⟨_, _, rfl, rfl⟩
  | bool b => cases b <;> exact ⟨_, _, rfl, rfl⟩
  | string s => exact ⟨_, _, rfl, rfl⟩
  | number n =>
      cases n with
      | float x => exact ht.elim
      | int i =>
          obtain ⟨c, cs, hc⟩ := List.exists_cons_of_ne_nil (Token.intText_ne_nil i)
          exact ⟨c, cs, hc, isGap_of_inNumber
            (Token.inNumber_of_mem_intText (i := i) (hc ▸ List.mem_cons_self))⟩

theorem finds_of_isWhole {t : Token} (ht : t.IsWhole) : Finds Token.next? Token.reread t :=
  ⟨chars_ne_nil ht, fun _ hr => Token.next?_chars ht hr⟩

theorem isWhole_of_ne_number {t : Token} (h : ∀ n, t ≠ .number n) : t.IsWhole := by
  cases t with
  | number n => exact absurd rfl (h n)
  | _ => trivial

/-- The text of a value is cut into the tokens of the value, as they are read back. -/
theorem ofChars?_pretty {v : Json} (h : ∀ t ∈ v.tokens, t.IsWhole) :
    Token.ofChars? v.pretty.toList = v.tokens.mapM Token.reread :=
  scan_pretty (fun _ ht => finds_of_isWhole (isWhole_of_ne_number ht))
    fun _ hn => finds_of_isWhole (h _ hn)

/-! ### Reading tokens -/

mutual

/-- How many arrays and objects stand within each other. -/
def depth : Json → Nat
  | .array items => itemsDepth items + 1
  | .object ms => membersDepth ms + 1
  | _ => 0

/-- The greatest depth of some items. -/
def itemsDepth : List Json → Nat
  | [] => 0
  | v :: vs => max (depth v) (itemsDepth vs)

/-- The greatest depth of some members. -/
def membersDepth : List (String × Json) → Nat
  | [] => 0
  | (_, v) :: ms => max (depth v) (membersDepth ms)

end

namespace Progress

variable {limit : Nat}

theorem step_open {stack : List Frame} {e : Expect} (he : e.admitsValue = true)
    (h : stack.length < limit) :
    step limit ⟨stack, e, none⟩ .openArray = some ⟨.array [] :: stack, .firstItem, none⟩ ∧
      step limit ⟨stack, e, none⟩ .openObject = some ⟨.object [] :: stack, .firstName, none⟩ := by
  simp [step, he, push, h]

theorem step_closeArray {items : List Json} {rest : List Frame} {e : Expect}
    (he : e = .firstItem ∨ e = .separator) :
    step limit ⟨.array items :: rest, e, none⟩ .closeArray = put rest (.array items.reverse) := by
  simp [step, he]

theorem step_closeObject {ms : List (String × Json)} {rest : List Frame} {e : Expect}
    (he : e = .firstName ∨ e = .separator) :
    step limit ⟨.object ms :: rest, e, none⟩ .closeObject = put rest (.object ms.reverse) := by
  simp [step, he]

/-- The name of a member and its colon. -/
theorem foldlM_name {name : String} {ms : List (String × Json)} {rest : List Frame} {e : Expect}
    (he : e = .name ∨ e = .firstName) (ts : List Token) :
    (.string name :: .colon :: ts).foldlM (step limit) ⟨.object ms :: rest, e, none⟩ =
      ts.foldlM (step limit) ⟨.member name ms :: rest, .value, none⟩ := by
  rcases he with rfl | rfl <;> simp [step, Expect.admitsValue]

end Progress

open Progress

variable {limit : Nat}

mutual

/-- The tokens of a value put it where the next value goes. -/
theorem foldlM_tokens : ∀ (v : Json) (stack : List Frame) (e : Expect), e.admitsValue = true →
    stack.length + depth v ≤ limit → v.tokens.foldlM (step limit) ⟨stack, e, none⟩ = put stack v
  | .null, stack, e, he, _ => by simp [tokens, step, he]
  | .bool b, stack, e, he, _ => by simp [tokens, step, he]
  | .number n, stack, e, he, _ => by simp [tokens, step, he]
  | .string s, stack, e, he, _ => by simp [tokens, step, he]
  | .array items, stack, e, he, hd => by
      rw [depth] at hd
      rw [tokens, List.cons_append, List.foldlM_cons, (step_open he (by omega)).1]
      rw [Option.bind_eq_bind, Option.bind_some, List.foldlM_append]
      cases items with
      | nil => simp [itemTokens, step_closeArray]
      | cons v vs =>
          rw [foldlM_itemTokens (v :: vs) (by simp) [] stack .firstItem rfl (by omega)]
          simp [step_closeArray]
  | .object ms, stack, e, he, hd => by
      rw [depth] at hd
      rw [tokens, List.cons_append, List.foldlM_cons, (step_open he (by omega)).2]
      rw [Option.bind_eq_bind, Option.bind_some, List.foldlM_append]
      cases ms with
      | nil => simp [memberTokens, step_closeObject]
      | cons m ms =>
          rw [foldlM_memberTokens (m :: ms) (by simp) [] stack .firstName (.inr rfl)
            (by omega)]
          simp [step_closeObject]

theorem foldlM_itemTokens : ∀ (vs : List Json), vs ≠ [] → ∀ (acc : List Json) (rest : List Frame)
    (e : Expect), e.admitsValue = true → rest.length + 1 + itemsDepth vs ≤ limit →
    (itemTokens vs).foldlM (step limit) ⟨.array acc :: rest, e, none⟩ =
      some ⟨.array (vs.reverse ++ acc) :: rest, .separator, none⟩
  | [], hne, _, _, _, _, _ => absurd rfl hne
  | [v], _, acc, rest, e, he, hd => by
      rw [itemsDepth] at hd
      rw [itemTokens, foldlM_tokens v _ e he (by simp only [List.length_cons]; omega)]
      rfl
  | v :: w :: ws, _, acc, rest, e, he, hd => by
      rw [itemsDepth] at hd
      rw [itemTokens, List.foldlM_append,
        foldlM_tokens v _ e he (by simp only [List.length_cons]; omega)]
      · have hws := foldlM_itemTokens (w :: ws) (by simp) (v :: acc) rest .value rfl (by omega)
        simp only [put, Option.bind_eq_bind, Option.bind_some, List.foldlM_cons]
        rw [show step limit ⟨.array (v :: acc) :: rest, .separator, none⟩ .comma =
          some ⟨.array (v :: acc) :: rest, .value, none⟩ from rfl, Option.bind_some, hws]
        simp
      · simp

theorem foldlM_memberTokens : ∀ (ms : List (String × Json)), ms ≠ [] →
    ∀ (acc : List (String × Json)) (rest : List Frame) (e : Expect), e = .name ∨ e = .firstName →
    rest.length + 1 + membersDepth ms ≤ limit →
    (memberTokens ms).foldlM (step limit) ⟨.object acc :: rest, e, none⟩ =
      some ⟨.object (ms.reverse ++ acc) :: rest, .separator, none⟩
  | [], hne, _, _, _, _, _ => absurd rfl hne
  | [(name, v)], _, acc, rest, e, he, hd => by
      rw [membersDepth] at hd
      rw [memberTokens, foldlM_name he,
        foldlM_tokens v _ .value rfl (by simp only [List.length_cons]; omega)]
      rfl
  | (name, v) :: k :: ks, _, acc, rest, e, he, hd => by
      rw [membersDepth] at hd
      rw [memberTokens, List.cons_append, List.cons_append, foldlM_name he, List.foldlM_append,
        foldlM_tokens v _ .value rfl (by simp only [List.length_cons]; omega)]
      · have hks := foldlM_memberTokens (k :: ks) (by simp) ((name, v) :: acc) rest .name
          (.inl rfl) (by omega)
        simp only [put, Option.bind_eq_bind, Option.bind_some, List.foldlM_cons]
        rw [show step limit ⟨.object ((name, v) :: acc) :: rest, .separator, none⟩ .comma =
          some ⟨.object ((name, v) :: acc) :: rest, .name, none⟩ from rfl, Option.bind_some, hks]
        simp
      · simp

end

/-- A value is built from its tokens. -/
theorem ofTokens?_tokens {v : Json} (h : depth v ≤ maxDepth) : ofTokens? v.tokens = some v := by
  rw [ofTokens?, Progress.start, foldlM_tokens v [] .value rfl (by simpa using h)]
  rfl

/-! ### The round trip -/

/-- The text of a value is read as what its tokens are read back as. -/
theorem read_pretty_eq {v : Json} (h : ∀ t ∈ v.tokens, t.IsWhole) :
    read v.pretty = (v.tokens.mapM Token.reread).bind ofTokens? := by
  rw [read, ofChars?_pretty h]

/-- The token is read back as itself: if it is a number, it is a word of 64 bits. -/
def Token.IsKept : Token → Prop
  | .number n => ∃ k ≤ maxWord64, n = .ofNat k
  | _ => True

theorem Token.IsKept.isWhole {t : Token} (h : t.IsKept) : t.IsWhole := by
  cases t with
  | number n => obtain ⟨k, -, rfl⟩ := h; trivial
  | _ => trivial

theorem Token.IsKept.reread {t : Token} (h : t.IsKept) : t.reread = some t := by
  cases t with
  | number n =>
      obtain ⟨k, hk, rfl⟩ := h
      rw [Token.reread, show Token.chars (.number (.ofNat k)) = digits k from toList_natText k,
        Token.readNumber_digits hk]
      rfl
  | _ => rfl

theorem mapM_reread {ts : List Token} (h : ∀ t ∈ ts, t.IsKept) :
    ts.mapM Token.reread = some ts := by
  induction ts with
  | nil => rfl
  | cons t ts ih =>
      rw [List.mapM_cons, (h t List.mem_cons_self).reread,
        ih fun u hu => h u (List.mem_cons_of_mem t hu)]
      rfl

end RouteServer.Json
