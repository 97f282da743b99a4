import RouteServer.Json.Token

/-!
# Json — Reader

Values from tokens.  The reader keeps the arrays and objects that are still open on a stack, so
one pass over the tokens is enough: a finished value goes into the innermost open one, or is the
answer when none is open.  No more than 127 may be open at once.
-/

namespace RouteServer.Json

/-- An array or object that is still open, its items or members in reverse. -/
inductive Frame where
  | array (items : List Json)
  | object (members : List (String × Json))
  /-- A member whose name has been read. -/
  | member (name : String) (members : List (String × Json))

/-- What may come next. -/
inductive Expect where
  /-- A value. -/
  | value
  /-- A value, or the end of the array. -/
  | firstItem
  /-- The name of a member. -/
  | name
  /-- The name of a member, or the end of the object. -/
  | firstName
  /-- A colon behind a name. -/
  | colon
  /-- A comma, or the end of what is open. -/
  | separator
  deriving DecidableEq

/-- The state of the reader: what is open, what may come, and the value once it is complete. -/
structure Progress where
  stack : List Frame
  expect : Expect
  done : Option Json

/-- Nothing read yet. -/
def Progress.start : Progress := ⟨[], .value, none⟩

/-- The number of arrays and objects that may be open at once. -/
def maxDepth : Nat := 127

/-- Puts a finished value in its place. -/
def Progress.put (stack : List Frame) (v : Json) : Option Progress :=
  match stack with
  | [] => some ⟨[], .separator, some v⟩
  | .array items :: rest => some ⟨.array (v :: items) :: rest, .separator, none⟩
  | .member name ms :: rest => some ⟨.object ((name, v) :: ms) :: rest, .separator, none⟩
  | .object _ :: _ => none

/-- Opens an array or object, where no more than `limit` may be open. -/
def Progress.push (limit : Nat) (stack : List Frame) (f : Frame) (expect : Expect) :
    Option Progress :=
  if stack.length < limit then some ⟨f :: stack, expect, none⟩ else none

/-- Whether a value may come next. -/
def Expect.admitsValue (e : Expect) : Bool := e = .value || e = .firstItem

/-- Takes one token. -/
def Progress.step (limit : Nat) (p : Progress) (t : Token) : Option Progress :=
  if p.done.isSome then none
  else match t with
    | .openArray =>
      if p.expect.admitsValue then push limit p.stack (.array []) .firstItem else none
    | .openObject =>
      if p.expect.admitsValue then push limit p.stack (.object []) .firstName else none
    | .closeArray =>
      match p.stack with
      | .array items :: rest =>
        if p.expect = .firstItem ∨ p.expect = .separator then put rest (.array items.reverse)
        else none
      | _ => none
    | .closeObject =>
      match p.stack with
      | .object ms :: rest =>
        if p.expect = .firstName ∨ p.expect = .separator then put rest (.object ms.reverse)
        else none
      | _ => none
    | .comma =>
      match p.expect, p.stack with
      | .separator, .array items :: rest => some ⟨.array items :: rest, .value, none⟩
      | .separator, .object ms :: rest => some ⟨.object ms :: rest, .name, none⟩
      | _, _ => none
    | .colon => if p.expect = .colon then some { p with expect := .value } else none
    | .null => if p.expect.admitsValue then put p.stack .null else none
    | .bool b => if p.expect.admitsValue then put p.stack (.bool b) else none
    | .number n => if p.expect.admitsValue then put p.stack (.number n) else none
    | .string s =>
      if p.expect.admitsValue then put p.stack (.string s)
      else match p.expect, p.stack with
        | .name, .object ms :: rest => some ⟨.member s ms :: rest, .colon, none⟩
        | .firstName, .object ms :: rest => some ⟨.member s ms :: rest, .colon, none⟩
        | _, _ => none

/-- The value that the tokens spell. -/
def ofTokens? (ts : List Token) : Option Json :=
  (ts.foldlM (Progress.step maxDepth) Progress.start).bind (·.done)

/-- Reads one value; nothing but blanks may stand around it. -/
def read (s : String) : Option Json := (Token.ofChars? s.toList).bind ofTokens?

end RouteServer.Json
