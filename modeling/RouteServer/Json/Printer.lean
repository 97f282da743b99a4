import RouteServer.Json.Token

/-!
# Json — Printer

Two layouts of a value: `compact` puts nothing between the tokens, `pretty` gives every item and
member a line of its own, indented by two blanks for each array or object around it, and a blank
behind the colon.  An empty array or object stays on one line.
-/

namespace RouteServer.Json

mutual
/-- The tokens of a value. -/
def tokens : Json → List Token
  | .null => [.null]
  | .bool b => [.bool b]
  | .number n => [.number n]
  | .string s => [.string s]
  | .array items => .openArray :: itemTokens items ++ [.closeArray]
  | .object ms => .openObject :: memberTokens ms ++ [.closeObject]

/-- The tokens of items with commas between them. -/
def itemTokens : List Json → List Token
  | [] => []
  | [v] => tokens v
  | v :: vs => tokens v ++ .comma :: itemTokens vs

/-- The tokens of members with commas between them. -/
def memberTokens : List (String × Json) → List Token
  | [] => []
  | [(name, v)] => .string name :: .colon :: tokens v
  | (name, v) :: ms => .string name :: .colon :: tokens v ++ .comma :: memberTokens ms
end

/-- The text of a value without blanks. -/
def compact (v : Json) : String := String.ofList (v.tokens.flatMap Token.chars)

/-- A new line at a depth. -/
def newLine (depth : Nat) : List Char := '\n' :: List.replicate (2 * depth) ' '

mutual
/-- The characters of a value whose lines stand at `depth`. -/
def layout (depth : Nat) : Json → List Char
  | .null => Token.chars .null
  | .bool b => Token.chars (.bool b)
  | .number n => Token.chars (.number n)
  | .string s => Token.quoted s
  | .array [] => ['[', ']']
  | .array items => '[' :: itemLines (depth + 1) items ++ newLine depth ++ [']']
  | .object [] => ['{', '}']
  | .object ms => '{' :: memberLines (depth + 1) ms ++ newLine depth ++ ['}']

/-- Items, each on a line of its own. -/
def itemLines (depth : Nat) : List Json → List Char
  | [] => []
  | [v] => newLine depth ++ layout depth v
  | v :: vs => newLine depth ++ layout depth v ++ ',' :: itemLines depth vs

/-- Members, each on a line of its own. -/
def memberLines (depth : Nat) : List (String × Json) → List Char
  | [] => []
  | [(name, v)] => newLine depth ++ Token.quoted name ++ ':' :: ' ' :: layout depth v
  | (name, v) :: ms =>
    newLine depth ++ Token.quoted name ++ ':' :: ' ' :: layout depth v ++
      ',' :: memberLines depth ms
end

/-- The text of a value with every item and member on its own line. -/
def pretty (v : Json) : String := String.ofList (layout 0 v)

end RouteServer.Json
