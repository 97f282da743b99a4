import RouteServer.Proofs.Template.Plain

/-!
# Template — forms

How the forms that templates consist of evaluate plainly: look-ups in the values of documents, texts
of values, branches, and loops over lists.
-/

namespace RouteServer.Template

open Render

/-! ### Syntax -/

/-- Names that lead from what a name is bound to into the records under it. -/
def path (n : String) (names : List String) : Expr := names.foldl .attr (.var n)

/-- A text that is written in a template. -/
def str (s : String) : Expr := .literal (.string s)

/-- What is only written where a test holds. -/
def only (t : Expr) (body : List Stmt) : Stmt := .branch t body []

/-- What is written for every item of a list. -/
def each (n : String) (e : Expr) (body : List Stmt) : Stmt := .loop (.name n) e none body []

attribute [simp] path str only Expr.plain plainArgs Stmt.plain plainAll Target.bindings
  Literal.value List.lookup_cons

/-! ### Values of documents -/

namespace Value

@[simp] theorem ofItems_eq_map (xs : List Yaml.Value) : ofItems xs = xs.map ofYaml := by
  induction xs with
  | nil => rfl
  | cons x xs ih => rw [ofItems, ih, List.map_cons]

@[simp] theorem ofEntries_eq_map (es : List (Yaml.Value × Yaml.Value)) :
    ofEntries es = es.map fun e => (ofYaml e.1, ofYaml e.2) := by
  induction es with
  | nil => rfl
  | cons e es ih => rw [ofEntries, ih, List.map_cons]

@[simp] theorem ofYaml_list (xs : List Yaml.Value) : ofYaml (.list xs) = .list (xs.map ofYaml) := by
  rw [ofYaml, ofItems_eq_map]

theorem ofYaml_ofFields (fs : List (String × Yaml.Value)) :
    ofYaml (.ofFields fs) = .mapping (fs.map fun f => (.string f.1, ofYaml f.2)) := by
  simp [Yaml.Value.ofFields, ofYaml, Function.comp_def]

@[simp] theorem ofYaml_nat (n : Nat) : ofYaml (.nat n) = .nat n := rfl

@[simp] theorem ofYaml_string (s : String) : ofYaml (.string s) = .string s := rfl

@[simp] theorem ofYaml_bool (b : Bool) : ofYaml (.bool b) = .bool b := rfl

@[simp] theorem ofYaml_null : ofYaml .null = .none := rfl

@[simp] theorem text_string (s : String) : (Value.string s).text = s := by rfl

@[simp] theorem text_nat (n : Nat) : (Value.nat n).text = Text.natText n := by rfl

theorem same_string (s t : String) : (Value.string s).same (.string t) = decide (s = t) := by
  simp only [same, compare?, compareTexts]
  by_cases h : s = t
  · simp [h]
  · by_cases hlt : s < t <;> simp [h, hlt]

theorem lookup?_string (n : String) (fs : List (String × Value)) :
    lookup? (.string n) (fs.map fun f => (.string f.1, f.2)) = fs.lookup n := by
  induction fs with
  | nil => rfl
  | cons f fs ih =>
      rw [List.map_cons, lookup?, same_string, List.lookup_cons, ih]
      by_cases h : f.1 = n
      · simp [h]
      · simp [h, beq_eq_false_iff_ne.2 (Ne.symm h)]

@[simp] theorem holds_eq_string (s t : String) :
    holds .eq (.string s) (.string t) = decide (s = t) := same_string s t

@[simp] theorem holds_eq_none (s : String) : holds .eq .none (.string s) = false := rfl

/-- An attribute of a record is the value of its field. -/
@[simp] theorem attr?_ofFields (fs : List (String × Yaml.Value)) (n : String) :
    (ofYaml (.ofFields fs)).attr? n = (fs.lookup n).map ofYaml := by
  have hmap : (fs.map fun f => (Value.string f.1, ofYaml f.2)) =
      (fs.map fun f => (f.1, ofYaml f.2)).map fun f => (.string f.1, f.2) := by
    simp [Function.comp_def]
  rw [ofYaml_ofFields, attr?, hmap, lookup?_string]
  induction fs with
  | nil => rfl
  | cons f fs ih =>
      rw [List.map_cons, List.lookup_cons, List.lookup_cons]
      split
      · rfl
      · exact ih (by simp [Function.comp_def])

/-- The attribute of a record that is written within a template. -/
@[simp] theorem attr?_fields (fs : List (String × Value)) (n : String) :
    (Value.ofFields fs).attr? n = fs.lookup n := lookup?_string n fs

/-- A text that need not be there. -/
def ofText : Option String → Value
  | some s => .string s
  | Option.none => .none

@[simp] theorem ofText_some (s : String) : ofText (some s) = .string s := rfl

@[simp] theorem truth?_bool (b : Bool) : truth? (.bool b) = some b := rfl

@[simp] theorem truth?_string (s : String) : truth? (.string s) = some (decide (s ≠ "")) := rfl

@[simp] theorem truth?_none : truth? .none = some false := rfl

@[simp] theorem truth?_list (xs : List Value) : truth? (.list xs) = some !xs.isEmpty := rfl

/-- Whether there is no value. -/
def isNone : Value → Bool
  | .none => true
  | _ => false

@[simp] theorem isNone_none : isNone .none = true := rfl

@[simp] theorem isNone_nat (n : Nat) : (Value.nat n).isNone = false := rfl

@[simp] theorem isNone_mapping (es : List (Value × Value)) : (Value.mapping es).isNone = false :=
  rfl

@[simp] theorem found?_some (v w : Value) : found? v (some w) = some w := rfl

@[simp] theorem truth?_ofText (o : Option String) : truth? (ofText o) = some (o.any (· ≠ "")) := by
  cases o <;> simp [ofText, truth?, isTrue]

end Value

/-! ### Statements -/

section Statements

variable {env : Environment} {pc : PlainCalls} {d : Nat} {ρ : Scope}

@[simp] theorem toOption_ok {ε α : Type} (x : α) : (Except.ok x : Except ε α).toOption = some x := rfl

@[simp] theorem some_ite {p : Prop} [Decidable p] {ps qs : List String} :
    (if p then some (ρ, ps) else some (ρ, qs)) = some (ρ, if p then ps else qs) := by
  split <;> rfl

theorem plain_embed {n : String} {body : List Stmt} (hload : env.load n = .ok body) (levels : Nat)
    (hd : d + embedCost ≤ maxDepth) :
    (Stmt.embed (str n) false).plain env (plainCallsOf env (levels + 1)) d ρ =
      plainAll env (plainCallsOf env levels) (d + embedCost) ρ body := by
  simp [load?, hload, Nat.not_lt.2 hd, plainCallsOf]

theorem plainAll_append (xs ys : List Stmt) :
    plainAll env pc d ρ (xs ++ ys) = (do
      let (ρ, ps) ← plainAll env pc d ρ xs
      let (ρ, qs) ← plainAll env pc d ρ ys
      some (ρ, ps ++ qs)) := by
  induction xs generalizing ρ with
  | nil => cases h : plainAll env pc d ρ ys <;> simp [plainAll, h]
  | cons x xs ih =>
      rw [List.cons_append, plainAll, plainAll]
      cases x.plain env pc d ρ with
      | none => rfl
      | some r =>
          obtain ⟨ρ₁, ps⟩ := r
          simp only [Option.bind_eq_bind, Option.bind_some, ih]
          cases plainAll env pc d ρ₁ xs with
          | none => rfl
          | some r =>
              obtain ⟨ρ₂, qs⟩ := r
              simp only [Option.bind_some]
              cases plainAll env pc d ρ₂ ys with
              | none => rfl
              | some r => simp [List.append_assoc]

theorem plainAll_texts (ts : List String) :
    plainAll env pc d ρ (ts.map .text) = some (ρ, ts) := by
  induction ts with
  | nil => rfl
  | cons t ts ih => simp [ih]

theorem bound?_texts (ts : List String) (ss : List Stmt) :
    bound? (ts.map .text ++ ss) = bound? ss := by
  induction ts with
  | nil => rfl
  | cons t ts ih =>
      rw [List.map_cons, List.cons_append, bound?, ih]
      cases bound? ss <;> rfl

theorem mapM_eq_some {α β γ : Type} {f : α → β} {g : β → Option γ} {w : α → γ} {xs : List α}
    (h : ∀ x ∈ xs, g (f x) = some (w x)) : (xs.map f).mapM g = some (xs.map w) := by
  induction xs with
  | nil => rfl
  | cons x xs ih =>
      rw [List.map_cons, List.mapM_cons, h x (List.mem_cons_self ..),
        ih fun y hy => h y (List.mem_cons_of_mem _ hy)]
      rfl

/-- A loop over a list writes what its rounds write. -/
theorem plain_loop {target : Target} {e : Expr} {body : List Stmt} {α : Type} {xs : List α}
    {f : α → Value} {w : α → Nat → List String} {names : List String}
    (he : e.plain env pc d ρ = some (.list (xs.map f))) (hd : d < maxDepth)
    (hnames : bound? body = some names) (hloop : "loop" ∉ target.all ++ names)
    (hround : ∀ x i, xs[i]? = some x →
      plainRound (xs.map f) target (fun ρ => plainAll env pc (d + 1) ρ body) names ρ (f x) i =
        some (w x i)) :
    (Stmt.loop target e none body []).plain env pc d ρ =
      some (ρ, xs.zipIdx.flatMap fun x => w x.1 x.2) := by
  have hno : ¬ (maxDepth < d + 1 ∨ "loop" ∈ target.all ++ names) := by
    rintro (h | h)
    · omega
    · exact hloop h
  have hall : (xs.map f).zipIdx.mapM (fun (y : Value × Nat) =>
      plainRound (xs.map f) target (fun ρ => plainAll env pc (d + 1) ρ body) names ρ y.1 y.2) =
        some (xs.zipIdx.map fun y => w y.1 y.2) := by
    rw [List.zipIdx_map]
    refine mapM_eq_some fun y hy => hround y.1 y.2 ?_
    simpa using List.mem_zipIdx_iff_getElem?.1 hy
  rw [Stmt.plain, he]
  simp only [Option.bind_eq_bind, Option.bind_some, items?, Value.items?, hnames, if_neg hno]
  -- a list without items takes the other branch, which writes nothing either
  cases xs with
  | nil => simp [plainAll]
  | cons x xs =>
      rw [if_neg (by simp), hall]
      simp [List.flatMap]

/-- What is known of the names in a round of a loop. -/
def roundScope (ρ : Scope) (n : String) (names : List String) (x loop : Value) : Scope :=
  (n, .value x) :: ("loop", .value loop) :: ρ.without ("loop" :: n :: names)

theorem lookup_roundScope {ρ : Scope} {n m : String} {names : List String} {x loop : Value}
    (hm : m ∉ "loop" :: n :: names) :
    (roundScope ρ n names x loop).lookup m = ρ.lookup m := by
  rw [roundScope, List.lookup_cons, List.lookup_cons, Scope.lookup_without, if_neg hm]
  simp only [List.mem_cons, not_or] at hm
  rw [beq_eq_false_iff_ne.2 hm.1, beq_eq_false_iff_ne.2 hm.2.1]

theorem plainRound_name {items : List Value} {n : String} {names : List String} {x : Value} {i : Nat}
    {run : Scope → Option (Scope × List String)} {ρ' : Scope} {ps : List String}
    (h : run (roundScope ρ n names x (loopValue items i)) = some (ρ', ps)) :
    plainRound items (.name n) run names ρ x i = some ps := by
  simp only [plainRound, Target.bindings, Target.all, Option.bind_eq_bind, Option.bind_some,
    Scope.tell, List.reverse_cons, List.reverse_nil, List.nil_append,
    List.map_cons, List.map_nil, List.cons_append]
  simp only [roundScope] at h
  rw [h]
  rfl

/-- What is written for every item, where the place of the item may matter. -/
theorem plain_eachIdx (names : List String) {n : String} {e : Expr} {body : List Stmt} {α : Type}
    {xs : List α} {f : α → Value} {w : α → Nat → List String}
    (he : e.plain env pc d ρ = some (.list (xs.map f))) (hd : d < maxDepth)
    (hnames : bound? body = some names) (hloop : "loop" ∉ n :: names)
    (hround : ∀ x i, xs[i]? = some x → ∃ ρ',
      plainAll env pc (d + 1) (roundScope ρ n names (f x) (loopValue (xs.map f) i)) body =
        some (ρ', w x i)) :
    (each n e body).plain env pc d ρ = some (ρ, xs.zipIdx.flatMap fun x => w x.1 x.2) := by
  refine plain_loop he hd hnames (by simpa [Target.all] using hloop) fun x i hi => ?_
  obtain ⟨ρ', h⟩ := hround x i hi
  exact plainRound_name h

theorem flatMap_zipIdx {α β : Type} (xs : List α) (w : α → List β) :
    (xs.zipIdx.flatMap fun x => w x.1) = xs.flatMap w := by
  have hfrom : ∀ k, ((xs.zipIdx k).flatMap fun x => w x.1) = xs.flatMap w := by
    induction xs with
    | nil => intro k; rfl
    | cons x xs ih => intro k; rw [List.zipIdx_cons, List.flatMap_cons, List.flatMap_cons, ih]
  exact hfrom 0

/-- What is written for every item. -/
theorem plain_each (names : List String) {n : String} {e : Expr} {body : List Stmt} {α : Type}
    {xs : List α} {f : α → Value} {w : α → List String}
    (he : e.plain env pc d ρ = some (.list (xs.map f))) (hd : d < maxDepth)
    (hnames : bound? body = some names) (hloop : "loop" ∉ n :: names)
    (hround : ∀ x ∈ xs, ∀ loop, ∃ ρ',
      plainAll env pc (d + 1) (roundScope ρ n names (f x) loop) body = some (ρ', w x)) :
    (each n e body).plain env pc d ρ = some (ρ, xs.flatMap w) := by
  rw [← flatMap_zipIdx]
  exact plain_eachIdx names (w := fun x _ => w x) he hd hnames hloop fun x i hi =>
    hround x (List.mem_of_getElem? hi) _

/-- What is written for every pair. -/
theorem plain_eachPair (names : List String) {m n : String} {e : Expr} {body : List Stmt}
    {α : Type} {xs : List α} {f g : α → Value} {w : α → List String}
    (he : e.plain env pc d ρ = some (.list (xs.map fun x => .list [f x, g x]))) (hd : d < maxDepth)
    (hnames : bound? body = some names) (hloop : "loop" ∉ m :: n :: names)
    (hround : ∀ x ∈ xs, ∀ loop, ∃ ρ',
      plainAll env pc (d + 1) ((n, .value (g x)) :: roundScope ρ m (n :: names) (f x) loop) body =
        some (ρ', w x)) :
    (Stmt.loop (.names [m, n]) e none body []).plain env pc d ρ = some (ρ, xs.flatMap w) := by
  rw [← flatMap_zipIdx]
  refine plain_loop (w := fun x _ => w x) he hd hnames (by simpa [Target.all] using hloop)
    fun x i hi => ?_
  obtain ⟨ρ', h⟩ :=
    hround x (List.mem_of_getElem? hi) (loopValue (xs.map fun x => .list [f x, g x]) i)
  simp only [plainRound, Target.bindings, Target.all, Option.bind_eq_bind, Option.bind_some,
    Scope.tell, List.length_cons, List.length_nil, if_true, List.zip_cons_cons, List.zip_nil_left,
    List.reverse_cons, List.reverse_nil, List.nil_append, List.map_cons, List.map_nil,
    List.cons_append]
  simp only [roundScope] at h
  rw [h]
  rfl

/-- The texts with one between any two of them. -/
def between {α : Type} (sep : String) (w : α → List String) (xs : List α) : List String :=
  xs.zipIdx.flatMap fun x => w x.1 ++ if x.2 + 1 = xs.length then [] else [sep]

/-- What is written where a text is given. -/
def given (o : Option String) (w : String → List String) : List String :=
  match o with
  | some s => if s = "" then [] else w s
  | none => []

theorem plain_given {t : Expr} {body : List Stmt} {o : Option String} {w : String → List String}
    (ht : t.plain env pc d ρ = some (.ofText o))
    (hbody : ∀ s, o = some s → s ≠ "" → plainAll env pc d ρ body = some (ρ, w s)) :
    (only t body).plain env pc d ρ = some (ρ, given o w) := by
  rw [only, Stmt.plain, ht]
  simp only [Option.bind_eq_bind, Option.bind_some, Value.truth?_ofText]
  cases o with
  | none => rfl
  | some s =>
      by_cases hs : s = ""
      · simp [hs, given, plainAll]
      · simp [hs, given, hbody s rfl hs]

end Statements

end RouteServer.Template
