import RouteServer.Template.Expr
import RouteServer.Template.Token

/-!
# Template — Parser

Statements from tokens.  Filters and tests bind closest, then arithmetic, concatenation,
comparisons, `not`, `and`, `or`, and last the choice between two values.
-/

namespace RouteServer.Template

namespace Parser

/-- The tokens behind a mark. -/
def mark (m : Mark) : List Token → Option (List Token)
  | .mark n :: ts => if n = m then some ts else none
  | _ => none

/-- The tokens behind a word. -/
def word (s : String) : List Token → Option (List Token)
  | .word t :: ts => if t = s then some ts else none
  | _ => none

/-- Words that cannot be bound. -/
def reserved : List String :=
  ["true", "True", "false", "False", "none", "None", "loop", "self", "super"]

/-- A word that can be bound. -/
def name : List Token → Option (String × List Token)
  | .word s :: ts => if reserved.contains s then none else some (s, ts)
  | _ => none

/-- The value of a word that is written for itself. -/
def constant? (s : String) : Option Literal :=
  if s = "true" ∨ s = "True" then some (.bool true)
  else if s = "false" ∨ s = "False" then some (.bool false)
  else if s = "none" ∨ s = "None" then some .none
  else none

/-- A comparison by its mark. -/
def comparison? : Mark → Option Comparison
  | .eq => some .eq
  | .ne => some .ne
  | .lt => some .lt
  | .le => some .le
  | .gt => some .gt
  | .ge => some .ge
  | _ => none

/-- Whether the argument of a test may start here without brackets around it. -/
def startsArgument : List Token → Bool
  | .word s :: _ => !(["and", "or", "else", "is", "if", "in", "not"].contains s)
  | .string _ :: _ | .number _ :: _ => true
  | .mark m :: _ => [Mark.plus, .minus, .openSquare, .openCurly].contains m
  | _ => false

mutual
/-- An expression: a value, or a choice. -/
def expr : Nat → List Token → Option (Expr × List Token)
  | 0, _ => none
  | fuel + 1, ts => do
    let (e, ts) ← orExpr fuel ts
    choice fuel e ts

/-- The choices behind a value. -/
def choice : Nat → Expr → List Token → Option (Expr × List Token)
  | 0, _, _ => none
  | fuel + 1, yes, ts =>
    match word "if" ts with
    | none => some (yes, ts)
    | some ts => do
      let (test, ts) ← orExpr fuel ts
      match word "else" ts with
      | some ts => do
        let (no, ts) ← expr fuel ts
        choice fuel (.choose test yes no) ts
      | none => choice fuel (.guard test yes) ts

/-- Values with `or` between them. -/
def orExpr : Nat → List Token → Option (Expr × List Token)
  | 0, _ => none
  | fuel + 1, ts => do
    let (a, ts) ← andExpr fuel ts
    orRest fuel a ts

/-- What follows a value that `or` may join. -/
def orRest : Nat → Expr → List Token → Option (Expr × List Token)
  | 0, _, _ => none
  | fuel + 1, a, ts =>
    match word "or" ts with
    | none => some (a, ts)
    | some ts => do
      let (b, ts) ← andExpr fuel ts
      orRest fuel (.or a b) ts

/-- Values with `and` between them. -/
def andExpr : Nat → List Token → Option (Expr × List Token)
  | 0, _ => none
  | fuel + 1, ts => do
    let (a, ts) ← notExpr fuel ts
    andRest fuel a ts

/-- What follows a value that `and` may join. -/
def andRest : Nat → Expr → List Token → Option (Expr × List Token)
  | 0, _, _ => none
  | fuel + 1, a, ts =>
    match word "and" ts with
    | none => some (a, ts)
    | some ts => do
      let (b, ts) ← notExpr fuel ts
      andRest fuel (.and a b) ts

/-- A value that may be negated. -/
def notExpr : Nat → List Token → Option (Expr × List Token)
  | 0, _ => none
  | fuel + 1, ts =>
    match word "not" ts with
    | some ts => (notExpr fuel ts).map fun (e, ts) => (.not e, ts)
    | none => do
      let (a, ts) ← sum fuel ts
      comparisons fuel a ts

/-- The comparisons behind a value. -/
def comparisons : Nat → Expr → List Token → Option (Expr × List Token)
  | 0, _, _ => none
  | fuel + 1, a, ts =>
    match ts with
    | .mark m :: rest =>
      match comparison? m with
      | some op => do
        let (b, ts) ← sum fuel rest
        comparisons fuel (.compare op a b) ts
      | none => some (a, ts)
    | .word "in" :: rest => do
      let (b, ts) ← sum fuel rest
      comparisons fuel (.contains a b) ts
    | .word "not" :: .word "in" :: rest => do
      let (b, ts) ← sum fuel rest
      comparisons fuel (.not (.contains a b)) ts
    | ts => some (a, ts)

/-- Sums and differences. -/
def sum : Nat → List Token → Option (Expr × List Token)
  | 0, _ => none
  | fuel + 1, ts => do
    let (a, ts) ← concatenation fuel ts
    sumRest fuel a ts

/-- What is added to a value. -/
def sumRest : Nat → Expr → List Token → Option (Expr × List Token)
  | 0, _, _ => none
  | fuel + 1, a, ts =>
    match ts with
    | .mark .plus :: rest => do
      let (b, ts) ← concatenation fuel rest
      sumRest fuel (.add a b) ts
    | .mark .minus :: rest => do
      let (b, ts) ← concatenation fuel rest
      sumRest fuel (.subtract a b) ts
    | ts => some (a, ts)

/-- Values joined as texts. -/
def concatenation : Nat → List Token → Option (Expr × List Token)
  | 0, _ => none
  | fuel + 1, ts => do
    let (a, ts) ← product fuel ts
    concatenationRest fuel a ts

/-- What is joined to a value. -/
def concatenationRest : Nat → Expr → List Token → Option (Expr × List Token)
  | 0, _, _ => none
  | fuel + 1, a, ts =>
    match ts with
    | .mark .tilde :: rest => do
      let (b, ts) ← product fuel rest
      concatenationRest fuel (.concat a b) ts
    | ts => some (a, ts)

/-- Products. -/
def product : Nat → List Token → Option (Expr × List Token)
  | 0, _ => none
  | fuel + 1, ts => do
    let (a, ts) ← unary fuel ts
    productRest fuel a ts

/-- What a value is multiplied with. -/
def productRest : Nat → Expr → List Token → Option (Expr × List Token)
  | 0, _, _ => none
  | fuel + 1, a, ts =>
    match ts with
    | .mark .times :: rest => do
      let (b, ts) ← unary fuel rest
      productRest fuel (.multiply a b) ts
    | ts => some (a, ts)

/-- A value with its look-ups, filters and tests. -/
def unary : Nat → List Token → Option (Expr × List Token)
  | 0, _ => none
  | fuel + 1, ts => do
    let (e, ts) ← operand fuel ts
    applied fuel e ts

/-- A value with its sign and its look-ups. -/
def operand : Nat → List Token → Option (Expr × List Token)
  | 0, _ => none
  | fuel + 1, ts => do
    let (e, ts) ← signed fuel ts
    lookups fuel e ts

/-- A value with its sign. -/
def signed : Nat → List Token → Option (Expr × List Token)
  | 0, _ => none
  | fuel + 1, ts =>
    match ts with
    | .mark .minus :: rest => (signed fuel rest).map fun (e, ts) => (.negate e, ts)
    | ts => primary fuel ts

/-- A value that stands for itself. -/
def primary : Nat → List Token → Option (Expr × List Token)
  | 0, _ => none
  | fuel + 1, ts =>
    match ts with
    | .word s :: ts =>
      match constant? s with
      | some c => some (.literal c, ts)
      | none => some (.var s, ts)
    | .string s :: ts => some (.literal (.string s), ts)
    | .number n :: ts => some (.literal (.number n), ts)
    | .mark .openRound :: ts =>
      match mark .closeRound ts with
      | some ts => some (.list [], ts)
      | none => do
        let (e, ts) ← expr fuel ts
        match mark .closeRound ts with
        | some ts => some (e, ts)
        | none => do
          let ts ← mark .comma ts
          let (es, ts) ← exprs .closeRound fuel ts
          some (.list (e :: es), ts)
    | .mark .openSquare :: ts => (exprs .closeSquare fuel ts).map fun (es, ts) => (.list es, ts)
    | .mark .openCurly :: ts => (entries fuel ts).map fun (es, ts) => (.dict es, ts)
    | _ => none

/-- The look-ups and calls behind a value. -/
def lookups : Nat → Expr → List Token → Option (Expr × List Token)
  | 0, _, _ => none
  | fuel + 1, e, ts =>
    match ts with
    | .mark .dot :: .word n :: ts => lookups fuel (.attr e n) ts
    | .mark .dot :: _ => none
    | .mark .openSquare :: ts => do
      let (i, ts) ← expr fuel ts
      let ts ← mark .closeSquare ts
      lookups fuel (.item e i) ts
    | .mark .openRound :: ts => do
      let (args, ts) ← exprs .closeRound fuel ts
      lookups fuel (.call e args) ts
    | ts => some (e, ts)

/-- The filters and tests behind a value. -/
def applied : Nat → Expr → List Token → Option (Expr × List Token)
  | 0, _, _ => none
  | fuel + 1, e, ts =>
    match ts with
    | .mark .bar :: .word n :: ts => do
      let (args, ts) ← match mark .openRound ts with
        | some ts => exprs .closeRound fuel ts
        | none => some ([], ts)
      applied fuel (.filter n e args) ts
    | .mark .bar :: _ => none
    | .word "is" :: ts => do
      let (negated, ts) := match word "not" ts with
        | some ts => (true, ts)
        | none => (false, ts)
      match ts with
      | .word n :: ts => do
        let (args, ts) ← match mark .openRound ts with
          | some ts => exprs .closeRound fuel ts
          | none =>
            if startsArgument ts then (operand fuel ts).map fun (a, ts) => ([a], ts)
            else some ([], ts)
        let t : Expr := .test n e args
        applied fuel (if negated then .not t else t) ts
      | _ => none
    | ts => some (e, ts)

/-- Expressions with commas between them, up to a mark; a comma may stand in front of it. -/
def exprs (close : Mark) : Nat → List Token → Option (List Expr × List Token)
  | 0, _ => none
  | fuel + 1, ts =>
    match mark close ts with
    | some ts => some ([], ts)
    | none => do
      let (e, ts) ← expr fuel ts
      match mark close ts with
      | some ts => some ([e], ts)
      | none => do
        let ts ← mark .comma ts
        let (es, ts) ← exprs close fuel ts
        some (e :: es, ts)

/-- The entries of a dictionary up to its end. -/
def entries : Nat → List Token → Option (List (Expr × Expr) × List Token)
  | 0, _ => none
  | fuel + 1, ts =>
    match mark .closeCurly ts with
    | some ts => some ([], ts)
    | none => do
      let (k, ts) ← expr fuel ts
      let ts ← mark .colon ts
      let (v, ts) ← expr fuel ts
      match mark .closeCurly ts with
      | some ts => some ([(k, v)], ts)
      | none => do
        let ts ← mark .comma ts
        let (es, ts) ← entries fuel ts
        some ((k, v) :: es, ts)
end

/-! ### Statements -/

/-- Names with commas between them. -/
def names : Nat → List Token → Option (List String × List Token)
  | 0, _ => none
  | fuel + 1, ts => do
    let (n, ts) ← name ts
    match mark .comma ts with
    | some ts =>
      match name ts with
      | some _ => (names fuel ts).map fun (ns, ts) => (n :: ns, ts)
      | none => some ([n], ts)
    | none => some ([n], ts)

/-- What is bound: a name, or several, with or without brackets around them. -/
def target (fuel : Nat) (ts : List Token) : Option (Target × List Token) :=
  match mark .openRound ts with
  | some ts => do
    let (ns, ts) ← names fuel ts
    let ts ← mark .closeRound ts
    some (.names ns, ts)
  | none => do
    let (ns, rest) ← names fuel ts
    match ns, ts with
    | [n], _ :: .mark .comma :: _ => some (.names [n], rest)
    | [n], _ => some (.name n, rest)
    | ns, _ => some (.names ns, rest)

/-- The names a snippet is called with, up to the closing bracket. -/
def params : Nat → List Token → Option (List String × List Token)
  | 0, _ => none
  | fuel + 1, ts =>
    match mark .closeRound ts with
    | some ts => some ([], ts)
    | none => do
      let (n, ts) ← name ts
      match mark .closeRound ts with
      | some ts => some ([n], ts)
      | none => do
        let ts ← mark .comma ts
        let (ns, ts) ← params fuel ts
        some (n :: ns, ts)

/-- The names taken from another template, each with the name it is bound to. -/
def takenNames : Nat → List Token → Option (List (String × String) × List Token)
  | 0, _ => none
  | fuel + 1, ts => do
    let (n, ts) ← name ts
    let ((n, alias_), ts) ← match word "as" ts with
      | some ts => (name ts).map fun (a, ts) => ((n, a), ts)
      | none => some ((n, n), ts)
    match mark .comma ts with
    | some ts =>
      match ts with
      | .closeTag :: _ => some ([(n, alias_)], ts)
      | ts => (takenNames fuel ts).map fun (ns, ts) => ((n, alias_) :: ns, ts)
    | none => some ([(n, alias_)], ts)

/-- The tokens behind the end of a tag. -/
def endTag : List Token → Option (List Token)
  | .closeTag :: ts => some ts
  | _ => none

/-- The tokens behind a tag that is only a word. -/
def bareTag (s : String) : List Token → Option (List Token)
  | .openTag :: .word t :: .closeTag :: ts => if t = s then some ts else none
  | _ => none

mutual
/-- Statements up to the end of the template or to a tag that no statement starts with. -/
def stmts : Nat → List Token → Option (List Stmt × List Token)
  | 0, _ => none
  | fuel + 1, ts =>
    match ts with
    | .text s :: ts => (stmts fuel ts).map fun (rest, ts) => (.text s :: rest, ts)
    | .openPrint :: ts => do
      let (e, ts) ← expr fuel ts
      match ts with
      | .closePrint :: ts => (stmts fuel ts).map fun (rest, ts) => (.print e :: rest, ts)
      | _ => none
    | .openTag :: .word w :: ts' =>
      match tag fuel w ts' with
      | none => none
      | some none => some ([], ts)
      | some (some (s, ts)) => (stmts fuel ts).map fun (rest, ts) => (s :: rest, ts)
    | .openTag :: _ => none
    | ts => some ([], ts)

/-- The statement of a tag behind its first word; no statement when a tag around it ends here. -/
def tag : Nat → String → List Token → Option (Option (Stmt × List Token))
  | 0, _, _ => none
  | fuel + 1, w, ts =>
    if w = "if" then (branch fuel ts).map some
    else if w = "for" then do
      let (t, ts) ← target fuel ts
      let ts ← word "in" ts
      let (items, ts) ← orExpr fuel ts
      let (pass, ts) ← match word "if" ts with
        | some ts => (expr fuel ts).map fun (e, ts) => (some e, ts)
        | none => some (none, ts)
      let ts ← endTag ts
      let (body, ts) ← stmts fuel ts
      let (otherwise, ts) ← match bareTag "else" ts with
        | some ts => stmts fuel ts
        | none => some ([], ts)
      let ts ← bareTag "endfor" ts
      some (some (.loop t items pass body otherwise, ts))
    else if w = "set" then do
      let (t, ts) ← target fuel ts
      let ts ← mark .becomes ts
      let (e, ts) ← expr fuel ts
      let ts ← endTag ts
      some (some (.bind t e, ts))
    else if w = "include" then do
      let (e, ts) ← expr fuel ts
      let (opt, ts) := match ts with
        | .word "ignore" :: .word "missing" :: ts => (true, ts)
        | ts => (false, ts)
      let ts ← endTag ts
      some (some (.embed e opt, ts))
    else if w = "from" then do
      let (e, ts) ← expr fuel ts
      let ts ← word "import" ts
      let (ns, ts) ← takenNames fuel ts
      let ts ← endTag ts
      some (some (.take e ns, ts))
    else if w = "macro" then do
      let (n, ts) ← name ts
      let ts ← mark .openRound ts
      let (ps, ts) ← params fuel ts
      let ts ← endTag ts
      let (body, ts) ← stmts fuel ts
      let ts ← bareTag "endmacro" ts
      some (some (.snippet n ps body, ts))
    else if ["elif", "else", "endif", "endfor", "endmacro"].contains w then some none
    else none

/-- A branch behind its first word. -/
def branch : Nat → List Token → Option (Stmt × List Token)
  | 0, _ => none
  | fuel + 1, ts => do
    let (test, ts) ← expr fuel ts
    let ts ← endTag ts
    let (yes, ts) ← stmts fuel ts
    match ts with
    | .openTag :: .word "elif" :: ts =>
      (branch fuel ts).map fun (s, ts) => (.branch test yes [s], ts)
    | ts => do
      let (no, ts) ← match bareTag "else" ts with
        | some ts => stmts fuel ts
        | none => some ([], ts)
      let ts ← bareTag "endif" ts
      some (.branch test yes no, ts)
end

end Parser

/-- The statements of a template, or none when it is not well formed. -/
def parse (source : String) : Option (List Stmt) := do
  let ts ← Token.ofChars? source.toList
  -- every level of the grammar passes its fuel on, and there are fewer than twenty of them
  let (body, rest) ← Parser.stmts (20 * ts.length + 20) ts
  if rest = [] then some body else none

end RouteServer.Template
