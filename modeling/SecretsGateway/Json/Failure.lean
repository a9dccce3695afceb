import SecretsGateway.Decimal.Shortest
import SecretsGateway.Text.Quoted

/-!
# Why a document is refused

A refusal has a cause and a place. Readers work on what is left of the document, so a place is told by how many bytes
follow it; `Json.Error.locate` turns this into a line and a column. A cause that concerns a whole value (a missing
member, a text that its own type refuses) is raised `loose` and gets its place from the enclosing value.
-/

namespace SecretsGateway.Json

/-- What stands in a document where something else is wanted. -/
inductive Found where
  | null
  | bool (b : Bool)
  | int (i : Int)
  | float (negative : Bool) (magnitude : Binary64)
  | text (s : String)
  | sequence
  | map
  deriving DecidableEq, Repr

/-- The wording of what was found. -/
def Found.message : Found → String
  | .null => "null"
  | .bool b => s!"boolean `{b}`"
  | .int i => s!"integer `{i}`"
  | .float negative magnitude => "floating point `" ++ (if negative then "-" else "") ++ magnitude.text ++ "`"
  | .text s => "string " ++ Text.quoted s
  | .sequence => "sequence"
  | .map => "map"

/-- The cause of a refusal. -/
inductive Cause where
  /-- The document ends inside a list, an object, a string, or where a value is wanted. -/
  | endInList
  | endInObject
  | endInText
  | endForValue
  | wantsColon
  | wantsListEnd
  | wantsObjectEnd
  | wantsWord
  | wantsValue
  | badEscape
  | badNumber
  | numberTooLarge
  | notUnicode
  | controlCharacter
  | keyNotText
  | loneSurrogate
  | trailingComma
  | trailingCharacters
  | escapeCutShort
  /-- A value of another kind stands where `wanted` should. -/
  | wrongKind (found : Found) (wanted : String)
  /-- A value of the right kind is outside the range of `wanted`. -/
  | wrongValue (found : Found) (wanted : String)
  | missing (member : String)
  | duplicate (member : String)
  /-- An array holds too few elements for a record. -/
  | tooShort (length : Nat) (record : String) (members : Nat)
  /-- A text names none of the known alternatives. -/
  | unknownName (name : String) (known : List String)
  /-- A text is refused by its own type, for the given reason. -/
  | refused (reason : String)
  deriving DecidableEq, Repr

/-- The wording of a cause. -/
def Cause.message : Cause → String
  | .endInList => "EOF while parsing a list"
  | .endInObject => "EOF while parsing an object"
  | .endInText => "EOF while parsing a string"
  | .endForValue => "EOF while parsing a value"
  | .wantsColon => "expected `:`"
  | .wantsListEnd => "expected `,` or `]`"
  | .wantsObjectEnd => "expected `,` or `\x7d`"
  | .wantsWord => "expected ident"
  | .wantsValue => "expected value"
  | .badEscape => "invalid escape"
  | .badNumber => "invalid number"
  | .numberTooLarge => "number out of range"
  | .notUnicode => "invalid unicode code point"
  | .controlCharacter => "control character (\\u0000-\\u001F) found while parsing a string"
  | .keyNotText => "key must be a string"
  | .loneSurrogate => "lone leading surrogate in hex escape"
  | .trailingComma => "trailing comma"
  | .trailingCharacters => "trailing characters"
  | .escapeCutShort => "unexpected end of hex escape"
  | .wrongKind found wanted => "invalid type: " ++ found.message ++ ", expected " ++ wanted
  | .wrongValue found wanted => "invalid value: " ++ found.message ++ ", expected " ++ wanted
  | .missing member => s!"missing field `{member}`"
  | .duplicate member => s!"duplicate field `{member}`"
  | .tooShort length record members => s!"invalid length {length}, expected {record} with {members} elements"
  | .unknownName name known =>
    s!"unknown variant `{name}`, expected one of " ++ ", ".intercalate (known.map fun k => s!"`{k}`")
  | .refused reason => reason

/-- The kinds of cause: a break of the grammar, a document that ends early, data of the wrong shape. -/
inductive Category where
  | grammar
  | ending
  | data
  deriving DecidableEq, Repr

/-- The kind of a cause. -/
def Cause.category : Cause → Category
  | .endInList | .endInObject | .endInText | .endForValue => .ending
  | .wrongKind .. | .wrongValue .. | .missing .. | .duplicate .. | .tooShort .. | .unknownName .. | .refused .. => .data
  | _ => .grammar

/-- A refusal while reading. -/
inductive Failure where
  /-- The place is known: `left` bytes of the document follow it. -/
  | placed (cause : Cause) (left : Nat)
  /-- The place is still to be given; reading stopped before `rest`. -/
  | loose (cause : Cause) (rest : Bytes)
  deriving DecidableEq, Repr

/-- The outcome of a reader: a value and what is left of the document, or a refusal. -/
abbrev Result (α : Type) := Except Failure (α × Bytes)

/-- Goes on with a value and what is left, unless there was a refusal. -/
def Result.andThen {α β : Type} (r : Result α) (next : α → Bytes → Result β) : Result β :=
  match r with
  | .error e => .error e
  | .ok (a, rest) => next a rest

@[simp] theorem Result.andThen_ok {α β : Type} (a : α) (rest : Bytes) (next : α → Bytes → Result β) :
    Result.andThen (.ok (a, rest)) next = next a rest := rfl

@[simp] theorem Result.andThen_error {α β : Type} (e : Failure) (next : α → Bytes → Result β) :
    Result.andThen (.error e) next = .error e := rfl

/-- A line and a column, both as people count lines; columns count bytes. -/
structure Place where
  line : Nat
  column : Nat
  deriving DecidableEq, Repr

/-- The place after a beginning of a document. -/
def Place.after (beginning : Bytes) : Place :=
  beginning.foldl (fun p b => if b = 10 then ⟨p.line + 1, 0⟩ else ⟨p.line, p.column + 1⟩) ⟨1, 0⟩

/-- The refusal of a document. -/
structure Error where
  cause : Cause
  place : Option Place
  deriving DecidableEq, Repr

/-- The wording of a refusal: the cause, and the place if there is one. -/
def Error.message (e : Error) : String :=
  match e.place with
  | some p => e.cause.message ++ s!" at line {p.line} column {p.column}"
  | none => e.cause.message

/-- A refusal while reading `document`, with its place counted out. -/
def Error.locate (document : Bytes) : Failure → Error
  | .placed cause left => ⟨cause, some (Place.after (document.take (document.length - left)))⟩
  | .loose cause _ => ⟨cause, none⟩

end SecretsGateway.Json
