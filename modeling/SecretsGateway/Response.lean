import SecretsGateway.Method

/-!
# Responses

Every answer says whether the request succeeded; a failure carries a text, a successful list its rows. Absent texts and
empty lists are left out of the JSON form.
-/

namespace SecretsGateway

/-- The answer to a request to keep a secret. -/
structure SetResponse where
  success : Bool
  error : Option String
  deriving DecidableEq, Repr

/-- The answer to a request to list. -/
structure ListResponse where
  success : Bool
  error : Option String
  rows : List SecretRow
  deriving DecidableEq, Repr

/-- The answer to a request. -/
inductive Response where
  | list (r : ListResponse)
  | set (r : SetResponse)
  deriving DecidableEq, Repr

/-- The member that holds the text of a failure, if there is one. -/
def errorMember (error : Option String) : List (String × Json.Value) :=
  match error with
  | some e => [("error_message", .text e)]
  | none => []

namespace SetResponse

/-- The secret is kept. -/
def ok : SetResponse := ⟨true, none⟩

/-- The secret is not kept, for the given reason. -/
def failure (reason : String) : SetResponse := ⟨false, some reason⟩

def toJson (r : SetResponse) : Json.Value := .object (("success", .bool r.success) :: errorMember r.error)

/-- The members read so far; the outer option of `error` tells whether the member was there. -/
structure Draft where
  success : Option Bool := none
  error : Option (Option String) := none

def shape : Json.Shape Draft SetResponse where
  name := "struct SetResponse"
  start := {}
  members := [
    .of "success" Json.bool Draft.success fun d a => { d with success := some a },
    .of "error_message" (Json.optional (Json.string "a string")) Draft.error fun d a => { d with error := some a }]
  finish d := do return ⟨← Json.required "success" d.success, d.error.getD none⟩

def decode (document : Bytes) : Except Json.Error SetResponse := Json.decode shape.read document

end SetResponse

namespace ListResponse

/-- The rows that were found. -/
def ok (rows : List SecretRow) : ListResponse := ⟨true, none, rows⟩

/-- Nothing was listed, for the given reason. -/
def failure (reason : String) : ListResponse := ⟨false, some reason, []⟩

/-- The member that holds the rows, if there are any. -/
def rowsMember (rows : List SecretRow) : List (String × Json.Value) :=
  if rows.isEmpty then [] else [("rows", .list (rows.map SecretRow.toJson))]

def toJson (r : ListResponse) : Json.Value :=
  .object (("success", .bool r.success) :: (errorMember r.error ++ rowsMember r.rows))

/-- The members read so far; the outer option of `error` tells whether the member was there. -/
structure Draft where
  success : Option Bool := none
  error : Option (Option String) := none
  rows : Option (List SecretRow) := none

def shape : Json.Shape Draft ListResponse where
  name := "struct ListResponse"
  start := {}
  members := [
    .of "success" Json.bool Draft.success fun d a => { d with success := some a },
    .of "error_message" (Json.optional (Json.string "a string")) Draft.error fun d a => { d with error := some a },
    .of "rows" (Json.list SecretRow.shape.read) Draft.rows fun d a => { d with rows := some a }]
  finish d := do return ⟨← Json.required "success" d.success, d.error.getD none, d.rows.getD []⟩

def decode (document : Bytes) : Except Json.Error ListResponse := Json.decode shape.read document

end ListResponse

namespace Response

def isSuccess : Response → Bool
  | list r => r.success
  | set r => r.success

def toJson : Response → Json.Value
  | list r => r.toJson
  | set r => r.toJson

/-- The failure of a method, for the given reason. -/
def failure (method : Method) (reason : String) : Response :=
  match method with
  | .list => .list (.failure reason)
  | .set => .set (.failure reason)

/-- The answer to a payload that does not fit its method. -/
def badRequest (method : Method) (e : RequestError) : Response :=
  failure method <|
    match method with
    | .list => "Bad request to list secrets: " ++ e.message
    | .set => "Bad request to set secret: " ++ e.message

end Response

end SecretsGateway
