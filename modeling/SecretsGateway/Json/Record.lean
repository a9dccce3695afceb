import SecretsGateway.Json.Scalar
import SecretsGateway.Json.Skip

/-!
# Records and lists

A record is read from an object, whose members may come in any order, or from an array of its members in their own
order. Members of other names are skipped. A `Shape` says what the members are, how each one is read into a draft, and
what a finished draft becomes.
-/

namespace SecretsGateway.Json

/-- A member of a record that is gathered in a draft `δ`. -/
structure Member (δ : Type) where
  name : String
  /-- The draft already holds the member. -/
  given : δ → Bool
  /-- Reads the member into the draft. -/
  read : δ → Bytes → Result δ

/-- The form of a record `α` that is gathered in a draft `δ`. -/
structure Shape (δ α : Type) where
  /-- What is wanted where the record should stand. -/
  name : String
  start : δ
  members : List (Member δ)
  /-- The record of a draft, or the first member that is required and missing. -/
  finish : δ → Except String α

/-- Reads the colon after a key. -/
def colonAfterKey (s : Bytes) : Result Unit :=
  match skipBlank s with
  | [] => failNext .endInObject []
  | b :: rest => if b = colon then .ok ((), rest) else failNext .wantsColon (b :: rest)

/-- Where the next key starts, after its quote; none at the end of the object. -/
def nextKey (first : Bool) (s : Bytes) : Except Failure (Option Bytes) :=
  match skipBlank s with
  | [] => failNext .endInObject []
  | b :: rest =>
    if b = closeObject then .ok none
    else if first then
      if b = quote then .ok (some rest) else failNext .keyNotText (b :: rest)
    else if b = comma then
      match skipBlank rest with
      | [] => failNext .endForValue []
      | c :: rest' =>
        if c = quote then .ok (some rest')
        else if c = closeObject then failNext .trailingComma (c :: rest')
        else failNext .keyNotText (c :: rest')
    else failNext .wantsObjectEnd (b :: rest)

/-- Where the next element starts; none at the end of the list. -/
def nextElement (first : Bool) (s : Bytes) : Except Failure (Option Bytes) :=
  match skipBlank s with
  | [] => failNext .endInList []
  | b :: rest =>
    if b = closeList then .ok none
    else if first then .ok (some (b :: rest))
    else if b = comma then
      match skipBlank rest with
      | [] => failNext .endForValue []
      | c :: rest' => if c = closeList then failNext .trailingComma (c :: rest') else .ok (some (c :: rest'))
    else failNext .wantsListEnd (b :: rest)

/-- Reads a member after the quote that opens its key. -/
def member {δ : Type} (members : List (Member δ)) (draft : δ) (s : Bytes) : Result δ :=
  (text s).andThen fun key s =>
    match members.find? (·.name == key) with
    | some m =>
      if m.given draft then .error (.loose (.duplicate m.name) s)
      else (colonAfterKey s).andThen fun _ s => m.read draft s
    | none => (colonAfterKey s).andThen fun _ s => (skipValue s).andThen fun _ s => .ok (draft, s)

/-- Reads members up to the closing bracket. A member takes up room, so what is left gets shorter each time. -/
def objectMembers {δ : Type} (members : List (Member δ)) (first : Bool) (draft : δ) (s : Bytes) : Result δ :=
  match nextKey first s with
  | .error e => .error e
  | .ok none => .ok (draft, skipBlank s)
  | .ok (some inside) =>
    match member members draft inside with
    | .error e => .error e
    | .ok (draft, rest) =>
      if rest.length < s.length then objectMembers members false draft rest else failHere .wantsValue rest
termination_by s.length

/-- Reads elements as the members in order, as far as there are elements. -/
def arrayMembers {δ : Type} : List (Member δ) → (first : Bool) → δ → Bytes → Result δ
  | [], _, draft, s => .ok (draft, s)
  | m :: members, first, draft, s =>
    match nextElement first s with
    | .error e => .error e
    | .ok none => .ok (draft, skipBlank s)
    | .ok (some element) =>
      match m.read draft element with
      | .error e => .error e
      | .ok (draft, rest) => arrayMembers members false draft rest

/-- Reads the bracket that closes a list. -/
def closeArray (s : Bytes) : Result Unit :=
  match skipBlank s with
  | [] => failNext .endInList []
  | b :: rest =>
    if b = closeList then .ok ((), rest)
    else if b = comma then
      match skipBlank rest with
      | [] => failNext .trailingCharacters []
      | c :: rest' => failNext (if c = closeList then .trailingComma else .trailingCharacters) (c :: rest')
    else failNext .trailingCharacters (b :: rest)

/-- Reads the bracket that closes an object. -/
def closeMap (s : Bytes) : Result Unit :=
  match skipBlank s with
  | [] => failNext .endInObject []
  | b :: rest =>
    if b = closeObject then .ok ((), rest)
    else failNext (if b = comma then .trailingComma else .trailingCharacters) (b :: rest)

/-- What is left after the bracket that closes an object, or as far as reading it gets. -/
def afterMap (s : Bytes) : Bytes :=
  match skipBlank s with
  | closeObject :: rest => rest
  | s => s

/-- What is left after the bracket that closes a list, or as far as reading it gets. -/
def afterArray (s : Bytes) : Bytes :=
  match skipBlank s with
  | closeList :: rest => rest
  | comma :: rest => skipBlank rest
  | s => s

/-- Gives refusals without a place the place where the enclosing value ends. -/
def settledAt {α : Type} (after : Bytes → Bytes) (r : Result α) : Result α :=
  r.mapError (Failure.settle fun rest => (after rest).length)

namespace Shape

variable {δ α : Type}

/-- Reads a record from an object, after the opening bracket. -/
def ofObject (shape : Shape δ α) (s : Bytes) : Result α :=
  settledAt afterMap <| (objectMembers shape.members true shape.start s).andThen fun draft s =>
    match shape.finish draft with
    | .error name => .error (.loose (.missing name) s)
    | .ok a => (closeMap s).andThen fun _ s => .ok (a, s)

/-- Reads a record from an array, after the opening bracket. -/
def ofArray (shape : Shape δ α) (s : Bytes) : Result α :=
  settledAt afterArray <| (arrayMembers shape.members true shape.start s).andThen fun draft s =>
    match shape.finish draft with
    | .error name =>
      let length := shape.members.findIdx (·.name == name)
      .error (.loose (.tooShort length shape.name shape.members.length) s)
    | .ok a => (closeArray s).andThen fun _ s => .ok (a, s)

/-- Reads a record. -/
def read (shape : Shape δ α) (s : Bytes) : Result α :=
  match skipBlank s with
  | [] => failNext .endForValue []
  | b :: rest =>
    if b = openList then shape.ofArray rest
    else if b = openObject then shape.ofObject rest
    else refuseNext shape.name (b :: rest)

end Shape

/-- Reads elements up to the closing bracket. An element takes up room, so what is left gets shorter each time. -/
def elements {α : Type} (read : Bytes → Result α) (first : Bool) (done : List α) (s : Bytes) : Result (List α) :=
  match nextElement first s with
  | .error e => .error e
  | .ok none => .ok (done.reverse, skipBlank s)
  | .ok (some element) =>
    match read element with
    | .error e => .error e
    | .ok (a, rest) =>
      if rest.length < s.length then elements read false (a :: done) rest else failHere .wantsValue rest
termination_by s.length

/-- Reads a list. -/
def list {α : Type} (read : Bytes → Result α) (s : Bytes) : Result (List α) :=
  match skipBlank s with
  | [] => failNext .endForValue []
  | b :: rest =>
    if b = openList then
      settledAt afterArray <| (elements read true [] rest).andThen fun items s =>
        (closeArray s).andThen fun _ s => .ok (items, s)
    else refuseNext "a sequence" (b :: rest)

end SecretsGateway.Json
