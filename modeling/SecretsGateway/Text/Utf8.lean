import SecretsGateway.Bytes

/-!
# UTF-8

Texts are strings; on the wire they are their UTF-8 bytes. `Utf8.decode?_encode` says that a text survives
the way there and back, and `encode_injective` that no two texts share their bytes.
-/

namespace SecretsGateway.Utf8

/-- The UTF-8 bytes of a text. -/
def encode (s : String) : Bytes := s.toByteArray.data.toList

/-- The text that the bytes spell, if they are valid UTF-8. -/
def decode? (bs : Bytes) : Option String := String.fromUTF8? ⟨bs.toArray⟩

/-- The length of the longest beginning that is valid UTF-8. -/
def validLength (bs : Bytes) : Nat :=
  ((List.range (bs.length + 1)).reverse.find? fun n => (decode? (bs.take n)).isSome).getD 0

@[simp] theorem decode?_encode (s : String) : decode? (encode s) = some s := by
  simp [decode?, encode, String.fromUTF8?, s.isValidUTF8, String.fromUTF8]

theorem encode_of_decode? {bs : Bytes} {s : String} (h : decode? bs = some s) : encode s = bs := by
  simp only [decode?, String.fromUTF8?] at h
  split at h
  · injection h with h
    subst h
    simp [encode, String.fromUTF8]
  · simp at h

theorem encode_injective {s t : String} (h : encode s = encode t) : s = t := by
  have := congrArg decode? h
  simpa using this

/-- The number of UTF-8 bytes of a text is what the core library counts. -/
theorem length_encode (s : String) : (encode s).length = s.utf8ByteSize := by
  rw [encode, Array.length_toList]
  rfl

end SecretsGateway.Utf8
