import RouteServer.Yaml.Value
import RouteServer.Text.Message

/-!
# Yaml — Describe

How messages speak of a value.  `describe` names a scalar by its text and anything else by its
kind.  `spell` shows all of a value, each part with the name of its kind; the keys of a mapping
that are truth values, numbers or strings are shown bare.
-/

namespace RouteServer.Yaml.Value

open RouteServer.Text

/-- A value as the object of "got". -/
def describe : Value → String
  | .null => "null"
  | .bool b => if b then "true" else "false"
  | .number n => n.text
  | .string s => "'" ++ s ++ "'"
  | .list _ => "a list"
  | .mapping _ => "a mapping"
  | .tagged _ _ => "an unsupported value"

mutual
/-- All of a value. -/
def spell : Value → String
  | .null => "Null"
  | .bool b => "Bool(" ++ (if b then "true" else "false") ++ ")"
  | .number n => "Number(" ++ n.text ++ ")"
  | .string s => "String(" ++ quoted s ++ ")"
  | .list xs => "Sequence [" ++ ", ".intercalate (spellItems xs) ++ "]"
  | .mapping es => "Mapping \x7b" ++ ", ".intercalate (spellEntries es) ++ "\x7d"
  | .tagged tag v => "TaggedValue \x7b tag: " ++ tag ++ ", value: " ++ spell v ++ " \x7d"

/-- The values of a list. -/
def spellItems : List Value → List String
  | [] => []
  | x :: xs => spell x :: spellItems xs

/-- The entries of a mapping, a colon behind each key. -/
def spellEntries : List (Value × Value) → List String
  | [] => []
  | (.bool b, v) :: es => ((if b then "true: " else "false: ") ++ spell v) :: spellEntries es
  | (.number n, v) :: es => (n.text ++ ": " ++ spell v) :: spellEntries es
  | (.string s, v) :: es => (quoted s ++ ": " ++ spell v) :: spellEntries es
  | (k, v) :: es => (spell k ++ ": " ++ spell v) :: spellEntries es
end

end RouteServer.Yaml.Value
