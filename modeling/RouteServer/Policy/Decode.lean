import RouteServer.Yaml.Value
import RouteServer.Dictionary
import RouteServer.Net.Address

/-!
# Policy — Decode

Typed values from documents in normal form.  What the schemas accept has the right shape already,
save for one thing: a choice may carry a tag, and the tag then counts as the choice.
-/

namespace RouteServer.Policy

open RouteServer.Yaml

/-- Why a value in normal form has no typed counterpart. -/
inductive DecodeFault where
  /-- A tag that is none of the choices. -/
  | unknownChoice (got : String) (choices : List String)
  /-- A tag that is a choice, on a value of its own. -/
  | unwantedValue (got : String)
  /-- A value of another shape than the schema gives it. -/
  | misshapen
  deriving DecidableEq, Repr

/-- Names between backquotes, as in "expected". -/
def choicesText (choices : List String) : String :=
  let ticked := choices.map fun c => "`" ++ c ++ "`"
  match ticked with
  | [a, b] => a ++ " or " ++ b
  | [a] => a
  | _ => "one of " ++ ", ".intercalate ticked

/-- The wording of a fault. -/
def DecodeFault.message : DecodeFault → String
  | .unknownChoice got choices =>
    "unknown variant `" ++ got ++ "`, expected " ++ choicesText choices
  | .unwantedValue got => "invalid type: string \"" ++ got ++ "\", expected unit"
  | .misshapen => "invalid value"

/-- A typed value, or why there is none. -/
abbrev Decoded (α : Type) := Except DecodeFault α

namespace Decoded

/-- The value of a shape that the schema gives. -/
def require : Option α → Decoded α
  | some x => .ok x
  | none => .error .misshapen

/-- A truth value. -/
def bool : Value → Decoded Bool
  | .bool b => .ok b
  | _ => .error .misshapen

/-- A string. -/
def string : Value → Decoded String
  | .string s => .ok s
  | _ => .error .misshapen

/-- A natural number, whatever its tag. -/
def natural (v : Value) : Decoded Nat := require v.natural?

/-- A number of eight bits. -/
def uint8 (v : Value) : Decoded UInt8 := do
  let n ← natural v
  if n < 256 then .ok (UInt8.ofNat n) else .error .misshapen

/-- A number of thirty-two bits. -/
def uint32 (v : Value) : Decoded UInt32 := do
  let n ← natural v
  if n < 4294967296 then .ok (UInt32.ofNat n) else .error .misshapen

/-- An address. -/
def address (v : Value) : Decoded Net.Address := do
  let s ← string v
  require (Net.Address.read s)

/-- An IPv4 address. -/
def ipv4 (v : Value) : Decoded (BitVec 32) := do
  match ← address v with
  | .v4 bits => .ok bits
  | .v6 _ => .error .misshapen

/-- An IPv6 address. -/
def ipv6 (v : Value) : Decoded (BitVec 128) := do
  match ← address v with
  | .v6 bits => .ok bits
  | .v4 _ => .error .misshapen

/-- A value that may be null. -/
def optional (decode : Value → Decoded α) : Value → Decoded (Option α)
  | .null => .ok none
  | v => (decode v).map some

/-- The text of a tag without its mark. -/
def tagName (tag : String) : String :=
  match tag.toList with
  | '!' :: cs => String.ofList cs
  | _ => tag

/-- One of some choices, known by their texts. -/
def choice (all : List α) (text : α → String) : Value → Decoded α
  | .string s => pick s
  | .tagged tag v => do
    let _ ← pick (tagName tag)
    .error (.unwantedValue (v.text?.getD ""))
  | _ => .error .misshapen
where
  /-- The choice with the text `s`. -/
  pick (s : String) : Decoded α :=
    match all.find? fun x => text x == s with
    | some x => .ok x
    | none => .error (.unknownChoice s (all.map text))

/-- The items of a list. -/
def list (decode : Value → Decoded α) : Value → Decoded (List α)
  | .list xs => xs.mapM decode
  | _ => .error .misshapen

/-- The value of a field. -/
def field (name : String) (decode : Value → Decoded α) (v : Value) : Decoded α :=
  decode (v.getD name)

/-- The entries of a mapping whose keys are names. -/
def dictionary (decode : Value → Decoded α) : Value → Decoded (Dictionary α)
  | .mapping es => do
    let entries ← es.mapM fun (k, v) => do
      let name ← string k
      let x ← decode v
      .ok (name, x)
    .ok (.ofList entries)
  | _ => .error .misshapen

end Decoded

end RouteServer.Policy
