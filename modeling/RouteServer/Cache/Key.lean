import RouteServer.Text.Numeral

/-!
# Cache — Key

The names of the files of a cache.  A record stands in a file that is named for its key: letters,
digits and hyphens stand for themselves, and every other byte of the key becomes an underscore with
two hexadecimal digits (`irr:AS-FOO` becomes `irr_3AAS-FOO.json`).  A record is first written to a
temporary file, whose name also tells the writer.
-/

namespace RouteServer.Cache

open RouteServer.Text

/-- Whether a byte stands for itself in the name of a file. -/
def isPlain (b : UInt8) : Bool :=
  let c := Char.ofNat b.toNat
  ('0' ≤ c && c ≤ '9') || ('a' ≤ c && c ≤ 'z') || ('A' ≤ c && c ≤ 'Z') || c = '-'

/-- The digit of value `d` in base 16, in upper case. -/
def upperHexDigit (d : Nat) : Char :=
  if d < 10 then digitChar d else Char.ofNat ('A'.toNat + (d - 10))

/-- A byte of a key as it stands in the name of a file. -/
def escapeByte (b : UInt8) : List Char :=
  if isPlain b then [Char.ofNat b.toNat]
  else ['_', upperHexDigit (b.toNat / 16), upperHexDigit (b.toNat % 16)]

/-- The bytes of a key. -/
def keyBytes (key : String) : List UInt8 := key.toList.flatMap String.utf8EncodeChar

/-- A key as it stands in the name of a file. -/
def escape (key : String) : String := String.ofList ((keyBytes key).flatMap escapeByte)

/-- The ending of the names of records. -/
def recordExtension : String := "json"

/-- The name of the file of a record. -/
def recordName (key : String) : String := escape key ++ "." ++ recordExtension

/-- The name of the file in which a writer prepares a record.  The record without a key has a name
without an ending, to which another is added. -/
def temporaryName (key : String) (writer : Nat) : String :=
  (if key = "" then recordName key else escape key) ++ "." ++ recordExtension ++ "." ++
    natText writer ++ ".tmp"

/-- The name of the file that is written to see whether the cache can be written to. -/
def probeName : String := "write_test"

end RouteServer.Cache
