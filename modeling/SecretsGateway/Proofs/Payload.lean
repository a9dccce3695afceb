import SecretsGateway.Proofs.Response
import SecretsGateway.Proofs.Secret.Envelope

/-!
# Payloads on the wire

The requests and the answers that messages carry are all read back from their JSON form. In the form of an answer a text
that is absent and a list that is empty have no member at all, and it is the reader that puts them in again
(`payloads_read_back`).
-/

namespace SecretsGateway

/-- The names of the members, one after the other; a value that is no object has none. -/
def Json.Value.names : Json.Value → List String
  | .object ms => ms.map Prod.fst
  | _ => []

@[simp] theorem Json.Value.names_object (ms : List (String × Json.Value)) : names (.object ms) = ms.map Prod.fst := rfl

private theorem map_fst_errorMember (error : Option String) :
    (errorMember error).map Prod.fst = if error = none then [] else ["error_message"] := by
  cases error with
  | none => rfl
  | some e => rfl

private theorem ListResponse.map_fst_rowsMember (rows : List SecretRow) :
    (rowsMember rows).map Prod.fst = if rows = [] then [] else ["rows"] := by
  cases rows with
  | nil => rfl
  | cons row rows => rfl

private theorem SetResponse.names_toJson (r : SetResponse) :
    r.toJson.names = "success" :: if r.error = none then [] else ["error_message"] := by
  rw [toJson, Json.Value.names_object, List.map_cons, map_fst_errorMember]

private theorem ListResponse.names_toJson (r : ListResponse) :
    r.toJson.names =
      "success" :: ((if r.error = none then [] else ["error_message"]) ++ if r.rows = [] then [] else ["rows"]) := by
  rw [toJson, Json.Value.names_object, List.map_cons, List.map_append, map_fst_errorMember, map_fst_rowsMember]

/-- Whatever a message carries is read back from its JSON form: the request to keep a secret by its method, and each answer,
although the form of an answer has no member for an absent text or for an empty list. -/
theorem payloads_read_back :
    (∀ r : SetRequest, Method.set.decode r.toJson.write = .ok (.set r)) ∧
    (∀ r : SetResponse, SetResponse.decode (Response.set r).toJson.write = .ok r ∧
      (Response.set r).toJson.names = "success" :: if r.error = none then [] else ["error_message"]) ∧
    ∀ r : ListResponse, ListResponse.decode (Response.list r).toJson.write = .ok r ∧
      (Response.list r).toJson.names =
        "success" :: ((if r.error = none then [] else ["error_message"]) ++ if r.rows = [] then [] else ["rows"]) :=
  ⟨SetRequest.decode_write, fun r => ⟨r.decode_write, r.names_toJson⟩, fun r => ⟨r.decode_write, r.names_toJson⟩⟩

end SecretsGateway
