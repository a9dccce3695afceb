import SecretsGateway.Json.Failure
import SecretsGateway.Text.Utf8

/-!
# Reading a document from the left

The small readers that all others are made of: blanks, words and the two ways to fail, at the byte that was read last or
at the byte that comes next.
-/

namespace SecretsGateway.Json

/-! ### The bytes of the grammar -/

@[match_pattern] abbrev quote : UInt8 := 34
@[match_pattern] abbrev plus : UInt8 := 43
@[match_pattern] abbrev comma : UInt8 := 44
@[match_pattern] abbrev minus : UInt8 := 45
@[match_pattern] abbrev point : UInt8 := 46
@[match_pattern] abbrev slash : UInt8 := 47
@[match_pattern] abbrev zero : UInt8 := 48
@[match_pattern] abbrev colon : UInt8 := 58
@[match_pattern] abbrev openList : UInt8 := 91
@[match_pattern] abbrev backslash : UInt8 := 92
@[match_pattern] abbrev closeList : UInt8 := 93
@[match_pattern] abbrev openObject : UInt8 := 123
@[match_pattern] abbrev closeObject : UInt8 := 125

/-- Space, line feed, carriage return and tab separate the parts of a document. -/
def isBlank (b : UInt8) : Bool := b = 32 || b = 10 || b = 13 || b = 9

/-- What is left after leading blanks. -/
def skipBlank (s : Bytes) : Bytes := s.dropWhile isBlank

/-- A refusal at the place reached, before what is left. -/
def failHere {α : Type} (cause : Cause) (rest : Bytes) : Except Failure α := .error (.placed cause rest.length)

/-- A refusal at the next byte, which is counted; at the end of the document there is none to count. -/
def failNext {α : Type} (cause : Cause) (rest : Bytes) : Except Failure α := .error (.placed cause (rest.length - 1))

/-- A refusal of bytes that should be UTF-8 and were read up to `rest`. The place is counted back from `rest`, by the
bytes from the first wrong one to the last, and the byte there is counted. -/
def failUnicode {α : Type} (bs rest : Bytes) : Except Failure α :=
  .error (.placed .notUnicode (rest.length + (bs.length - Utf8.validLength bs) - 1))

/-- Reads the rest of a word, such as `null` after its first letter. -/
def word : (letters s : Bytes) → Result Unit
  | [], s => .ok ((), s)
  | _ :: _, [] => failHere .endForValue []
  | letter :: letters, b :: s => if b = letter then word letters s else failHere .wantsWord s

/-- The letters of `null` after the first. -/
def nullTail : Bytes := [117, 108, 108]

/-- The letters of `true` after the first. -/
def trueTail : Bytes := [114, 117, 101]

/-- The letters of `false` after the first. -/
def falseTail : Bytes := [97, 108, 115, 101]

/-- Gives a refusal without a place the place `left` bytes before the end. -/
def Failure.settle (left : Bytes → Nat) : Failure → Failure
  | .loose cause rest => .placed cause (left rest)
  | .placed cause n => .placed cause n

/-- Runs a reader over a whole document, which may end in blanks only. -/
def decode {α : Type} (read : Bytes → Result α) (document : Bytes) : Except Error α :=
  match read document with
  | .error e => .error (Error.locate document e)
  | .ok (a, rest) =>
    match skipBlank rest with
    | [] => .ok a
    | rest => .error (Error.locate document (.placed .trailingCharacters (rest.length - 1)))

end SecretsGateway.Json
