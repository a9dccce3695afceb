import SecretsGateway.Json.Text

/-!
# Skipping a value

A value that nobody asks for, or that is kept as it is written, is only checked against the grammar. The check is a
machine that reads one byte at a time and keeps the open brackets on a stack, so it has no limit of depth. It is more
lenient than reading: any four digits make an escape, any digits a number, and a text may hold any bytes.
-/

namespace SecretsGateway.Json

/-- An open bracket. -/
inductive Frame where
  | list
  | object
  deriving DecidableEq

namespace Frame

/-- The byte that closes the bracket. -/
def closer : Frame → UInt8
  | list => closeList
  | object => closeObject

/-- The refusal of a byte after an element. -/
def wantsEnd : Frame → Cause
  | list => .wantsListEnd
  | object => .wantsObjectEnd

/-- The refusal of a document that ends between elements. -/
def ending : Frame → Cause
  | list => .endInList
  | object => .endInObject

end Frame

/-- Where the machine stands. -/
inductive SkipState where
  /-- Before a value. -/
  | value
  /-- After an opening bracket. -/
  | opened
  /-- After a value. -/
  | after
  /-- Before a key. -/
  | key
  /-- After a key. -/
  | colon
  /-- Inside a word, of which these letters are left. -/
  | word (letters : Bytes)
  /-- Inside a text, which may be a key. -/
  | text (isKey : Bool)
  | escape (isKey : Bool)
  | hex (isKey : Bool) (digits : Bytes)
  /-- Inside a number: after its sign, a leading zero, integer digits, the point, fraction digits, the mark of the
  exponent, its sign, its digits. -/
  | minus
  | zero
  | integer
  | point
  | fraction
  | exponentMark
  | exponentSign
  | exponent
  deriving DecidableEq

/-- What the machine does with a byte. -/
inductive SkipStep where
  | next (state : SkipState) (frames : List Frame)
  /-- The value ended, with this byte or before it. -/
  | done (taken : Bool)
  /-- A refusal at this byte, which is counted or not. -/
  | fail (cause : Cause) (counted : Bool)

/-- The value that ends with this byte stood inside `frames`. -/
def endValue : List Frame → SkipStep
  | [] => .done true
  | frames => .next .after frames

/-- A byte where a key is wanted. -/
def stepKey (frames : List Frame) (b : UInt8) : SkipStep :=
  if isBlank b then .next .key frames
  else if b = quote then .next (.text true) frames
  else .fail .keyNotText true

/-- A byte where a value is wanted. -/
def stepValue (frames : List Frame) (b : UInt8) : SkipStep :=
  if isBlank b then .next .value frames
  else if b = quote then .next (.text false) frames
  else if b = openList then .next .opened (.list :: frames)
  else if b = openObject then .next .opened (.object :: frames)
  else if b = Json.minus then .next .minus frames
  else if b = Json.zero then .next .zero frames
  else if Decimal.isDigit b then .next .integer frames
  else if b = 110 then .next (.word nullTail) frames
  else if b = 116 then .next (.word trueTail) frames
  else if b = 102 then .next (.word falseTail) frames
  else .fail .wantsValue true

/-- A byte after a value. -/
def stepAfter (frames : List Frame) (b : UInt8) : SkipStep :=
  match frames with
  | [] => .done false
  | frame :: outer =>
    if isBlank b then .next .after frames
    else if b = comma then .next (match frame with | .list => .value | .object => .key) frames
    else if b = frame.closer then endValue outer
    else .fail frame.wantsEnd true

/-- A byte after an opening bracket. -/
def stepOpened (frames : List Frame) (b : UInt8) : SkipStep :=
  match frames with
  | [] => .done false
  | frame :: outer =>
    if isBlank b then .next .opened frames
    else if b = frame.closer then endValue outer
    else match frame with
      | .list => stepValue frames b
      | .object => stepKey frames b

/-- A byte after the digits of a number, which may go on with a point or an exponent. -/
def stepNumber (state : SkipState) (frames : List Frame) (b : UInt8) : SkipStep :=
  if Decimal.isDigit b then (if state = .zero then .fail .badNumber true else .next state frames)
  else if b = Json.point ∧ (state = .zero ∨ state = .integer) then .next .point frames
  else if (b = 101 ∨ b = 69) ∧ state ≠ .exponent then .next .exponentMark frames
  else stepAfter frames b

/-- What the machine does with a byte. -/
def skipStep (state : SkipState) (frames : List Frame) (b : UInt8) : SkipStep :=
  match state with
  | .value => stepValue frames b
  | .opened => stepOpened frames b
  | .after => stepAfter frames b
  | .key => stepKey frames b
  | .colon =>
    if isBlank b then .next .colon frames
    else if b = Json.colon then .next .value frames
    else .fail .wantsColon true
  | .word letters =>
    match letters with
    | [] => .fail .wantsWord true
    | letter :: letters =>
      if b ≠ letter then .fail .wantsWord true
      else if letters.isEmpty then endValue frames
      else .next (.word letters) frames
  | .text isKey =>
    if b = quote then (if isKey then .next .colon frames else endValue frames)
    else if b = backslash then .next (.escape isKey) frames
    else if b < 32 then .fail .controlCharacter false
    else .next (.text isKey) frames
  | .escape isKey =>
    if (shortEscape? b).isSome then .next (.text isKey) frames
    else if b = escapeU then .next (.hex isKey []) frames
    else .fail .badEscape true
  | .hex isKey digits =>
    let digits := digits ++ [b]
    if digits.length < 4 then .next (.hex isKey digits) frames
    else if (hexNumber? digits).isSome then .next (.text isKey) frames
    else .fail .badEscape true
  | .minus =>
    if b = Json.zero then .next .zero frames
    else if Decimal.isDigit b then .next .integer frames
    else .fail .badNumber true
  | .point => if Decimal.isDigit b then .next .fraction frames else .fail .badNumber true
  | .exponentMark =>
    if b = Json.plus ∨ b = Json.minus then .next .exponentSign frames
    else if Decimal.isDigit b then .next .exponent frames
    else .fail .badNumber true
  | .exponentSign => if Decimal.isDigit b then .next .exponent frames else .fail .badNumber true
  | .zero | .integer | .fraction | .exponent => stepNumber state frames b

/-- What a document that ends in a state lacks; nothing if a number of its own has ended. -/
def skipEnd (state : SkipState) (frames : List Frame) : Option Cause :=
  match state with
  | .value | .word _ => some .endForValue
  | .key | .colon => some .endInObject
  | .text _ | .escape _ | .hex .. => some .endInText
  | .minus | .point | .exponentMark | .exponentSign => some .badNumber
  | .opened | .after | .zero | .integer | .fraction | .exponent => frames.head?.map Frame.ending

/-- Runs the machine to the end of the value. -/
def skip : SkipState → List Frame → Bytes → Result Unit
  | state, frames, [] =>
    match skipEnd state frames with
    | some cause => failHere cause []
    | none => .ok ((), [])
  | state, frames, b :: s =>
    match skipStep state frames b with
    | .next state frames => skip state frames s
    | .done taken => .ok ((), if taken then s else b :: s)
    | .fail cause counted => failHere cause (if counted then s else b :: s)

/-- Skips the next value. -/
def skipValue (s : Bytes) : Result Unit := skip .value [] s

/-- The written form of the next value, without the blanks before it. -/
def written (s : Bytes) : Result Bytes :=
  let s := skipBlank s
  (skipValue s).andThen fun _ rest =>
    let bs := s.take (s.length - rest.length)
    if (Utf8.decode? bs).isSome then .ok (bs, rest) else failUnicode bs rest

end SecretsGateway.Json
