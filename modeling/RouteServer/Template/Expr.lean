import RouteServer.Number

/-!
# Template — Expr

The syntax of templates.  A template is text with marks in it: `Expr` is what can be printed or
tested, `Stmt` is a piece of text, a printed expression, or a tag that branches, loops, binds a
name, embeds another template or defines a snippet that is called like a function.
-/

namespace RouteServer.Template

/-- A value that is written in a template. -/
inductive Literal where
  | none
  | bool (b : Bool)
  | number (n : Number)
  | string (s : String)
  deriving DecidableEq, Repr

/-- A comparison of two values. -/
inductive Comparison where
  | eq
  | ne
  | lt
  | le
  | gt
  | ge
  deriving DecidableEq, Repr

/-- An expression. -/
inductive Expr where
  | literal (c : Literal)
  | var (name : String)
  | attr (e : Expr) (name : String)
  | item (e index : Expr)
  | filter (name : String) (e : Expr) (args : List Expr)
  | test (name : String) (e : Expr) (args : List Expr)
  | call (f : Expr) (args : List Expr)
  | list (items : List Expr)
  | dict (entries : List (Expr × Expr))
  | not (e : Expr)
  | negate (e : Expr)
  | and (a b : Expr)
  | or (a b : Expr)
  | compare (op : Comparison) (a b : Expr)
  | contains (a b : Expr)
  | concat (a b : Expr)
  | add (a b : Expr)
  | subtract (a b : Expr)
  | multiply (a b : Expr)
  /-- One of two values. -/
  | choose (test yes no : Expr)
  /-- A value, or nothing. -/
  | guard (test yes : Expr)
  deriving Repr, Inhabited

/-- What a value is bound to: a name, or a name for each of its items. -/
inductive Target where
  | name (n : String)
  | names (ns : List String)
  deriving DecidableEq, Repr

/-- A piece of a template. -/
inductive Stmt where
  | text (s : String)
  | print (e : Expr)
  | branch (test : Expr) (yes no : List Stmt)
  /-- Runs the body for each item that passes, or `otherwise` when there is none. -/
  | loop (target : Target) (items : Expr) (pass : Option Expr) (body otherwise : List Stmt)
  | bind (target : Target) (e : Expr)
  | embed (name : Expr) (optional : Bool)
  /-- Binds names of another template. -/
  | take (name : Expr) (names : List (String × String))
  | snippet (name : String) (params : List String) (body : List Stmt)
  deriving Inhabited

end RouteServer.Template
