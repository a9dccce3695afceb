import SecretsGateway.Proofs.Json.Record
import SecretsGateway.Response

/-!
# Answers on the wire

Rows and answers are read back from their JSON form, although absent texts and empty lists are left out of it.
-/

namespace SecretsGateway

open Json (Reads Gathers reads_string reads_bool reads_unsigned reads_signed reads_optional reads_list reads_record
  write_text_ne_nullText)

namespace SecretRow

private theorem sound_toJson (r : SecretRow) : r.toJson.Sound := ⟨trivial, trivial, trivial, trivial⟩

private theorem reads_toJson (r : SecretRow) : Reads shape.read r.toJson r := by
  have hms : Gathers shape.members shape.start
      [("slot_id", .int r.slot.toNat), ("version", .int r.version.toNat), ("expiration", .int r.expiration.toInt)]
      ⟨some r.slot, some r.version, some r.expiration⟩ :=
    .of rfl rfl (reads_unsigned "u64" r.slot) <| .of rfl rfl (reads_unsigned "u64" r.version) <|
      .of rfl rfl (reads_signed r.expiration) <| .nil _
  exact reads_record hms rfl

end SecretRow

private theorem SetResponse.reads_toJson (r : SetResponse) : Reads shape.read r.toJson r := by
  obtain ⟨success, error⟩ := r
  have hms : Gathers shape.members shape.start (("success", .bool success) :: errorMember error)
      ⟨some success, error.map some⟩ := by
    refine .of rfl rfl (reads_bool success) ?_
    cases error with
    | none => exact .nil _
    | some e => exact .of rfl rfl (reads_optional (reads_string "a string" e) trivial (write_text_ne_nullText e)) (.nil _)
  refine reads_record hms ?_
  cases error <;> rfl

/-- The answer to a request to keep a secret is read back. -/
theorem SetResponse.decode_write (r : SetResponse) : decode r.toJson.write = .ok r := r.reads_toJson.decode

private theorem ListResponse.reads_toJson (r : ListResponse) : Reads shape.read r.toJson r := by
  obtain ⟨success, error, rows⟩ := r
  have hsuccess : Gathers shape.members shape.start [("success", .bool success)] ⟨some success, none, none⟩ :=
    .of rfl rfl (reads_bool success) (.nil _)
  have herror : Gathers shape.members ⟨some success, none, none⟩ (errorMember error)
      ⟨some success, error.map some, none⟩ := by
    cases error with
    | none => exact .nil _
    | some e => exact .of rfl rfl (reads_optional (reads_string "a string" e) trivial (write_text_ne_nullText e)) (.nil _)
  have hrows : Gathers shape.members ⟨some success, error.map some, none⟩ (rowsMember rows)
      ⟨some success, error.map some, if rows.isEmpty then none else some rows⟩ := by
    unfold rowsMember
    cases rows with
    | nil => exact .nil _
    | cons row rows =>
      have hread := reads_list (row :: rows) (fun r _ => r.sound_toJson) (fun r _ => r.reads_toJson)
      exact .of rfl rfl hread (.nil _)
  refine reads_record (hsuccess.append (herror.append hrows)) ?_
  cases error <;> cases rows <;> rfl

/-- The answer to a request to list is read back. -/
theorem ListResponse.decode_write (r : ListResponse) : decode r.toJson.write = .ok r := r.reads_toJson.decode

private theorem soundItems_rows (rows : List SecretRow) : Json.Value.SoundItems (rows.map SecretRow.toJson) := by
  induction rows with
  | nil => trivial
  | cons row rows ih => exact ⟨row.sound_toJson, ih⟩

/-- The JSON form of an answer is an object, and a sound one. -/
theorem Response.exists_toJson_eq_object (r : Response) : ∃ ms, r.toJson = .object ms ∧ (Json.Value.object ms).Sound := by
  cases r with
  | set r =>
    obtain ⟨success, error⟩ := r
    refine ⟨_, rfl, trivial, ?_⟩
    cases error <;> simp [errorMember, Json.Value.SoundMembers, Json.Value.Sound]
  | list r =>
    obtain ⟨success, error, rows⟩ := r
    refine ⟨_, rfl, trivial, ?_⟩
    have hrows := soundItems_rows rows
    cases error <;> cases rows <;>
      simp_all [errorMember, ListResponse.rowsMember, Json.Value.SoundMembers, Json.Value.Sound]

end SecretsGateway
