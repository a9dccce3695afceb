import SecretsGateway.Decimal.Digits
import SecretsGateway.Text.Utf8

/-!
# Writing a document

A value is written without blanks and its members in their order. Inside a text only quotes, backslashes and control
characters are escaped, so escaping works on the bytes of the text.
-/

namespace SecretsGateway.Json

/-- A value to be written. -/
inductive Value where
  | null
  | bool (b : Bool)
  | int (i : Int)
  | text (s : String)
  /-- A value that is already written. -/
  | written (bs : Bytes)
  | list (items : List Value)
  | object (members : List (String × Value))

/-- How one byte of a text is written. -/
def escape (b : UInt8) : Bytes :=
  if b = 34 then [92, 34]
  else if b = 92 then [92, 92]
  else if b = 8 then [92, 98]
  else if b = 9 then [92, 116]
  else if b = 10 then [92, 110]
  else if b = 12 then [92, 102]
  else if b = 13 then [92, 114]
  else if b < 32 then
    let low := b.toNat % 16
    [92, 117, 48, 48, UInt8.ofNat (48 + b.toNat / 16), UInt8.ofNat (if low < 10 then 48 + low else 87 + low)]
  else [b]

/-- A text between quotes. -/
def writeText (s : String) : Bytes := 34 :: ((Utf8.encode s).flatMap escape ++ [34])

namespace Value

mutual

def write : Value → Bytes
  | null => [110, 117, 108, 108]
  | bool true => [116, 114, 117, 101]
  | bool false => [102, 97, 108, 115, 101]
  | int i => Decimal.ofInt i
  | text s => writeText s
  | written bs => bs
  | list items => 91 :: (writeItems items ++ [93])
  | object members => 123 :: (writeMembers members ++ [125])

/-- Values with commas between them. -/
def writeItems : List Value → Bytes
  | [] => []
  | [v] => v.write
  | v :: vs => v.write ++ 44 :: writeItems vs

/-- Members with commas between them. -/
def writeMembers : List (String × Value) → Bytes
  | [] => []
  | [(name, v)] => writeText name ++ 58 :: v.write
  | (name, v) :: ms => writeText name ++ 58 :: (v.write ++ 44 :: writeMembers ms)

end

end Value

end SecretsGateway.Json
