import SecretsGateway.Text.Invisible

/-!
# Quoted text

A text between double quotes, as it is shown inside messages: quotes, backslashes and the common control characters
have short escapes, other characters that cannot be shown are written by their code point, all else stands as it is.
-/

namespace SecretsGateway.Text

/-- A code point in lower-case hexadecimal, without leading zeros. -/
def codePoint (c : Char) : List Char := Nat.toDigits 16 c.toNat

/-- How one character is shown. -/
def shown (c : Char) : List Char :=
  match c with
  | '"' => ['\\', '"']
  | '\\' => ['\\', '\\']
  | '\n' => ['\\', 'n']
  | '\r' => ['\\', 'r']
  | '\t' => ['\\', 't']
  | '\x00' => ['\\', '0']
  | c => if isInvisible c then '\\' :: 'u' :: '\x7b' :: (codePoint c ++ ['\x7d']) else [c]

/-- The text between quotes. -/
def quoted (s : String) : String := String.ofList ('"' :: (s.toList.flatMap shown ++ ['"']))

end SecretsGateway.Text
