import AccessTokens.Hash.Crc32c
import AccessTokens.Hash.Sha256
import AccessTokens.Text.Bytes
import AccessTokens.Text.Ends
import AccessTokens.Text.Hex

/-!
# Secrets

A secret is the part of a token that only its holder knows: a label chosen by the issuer, the
hexadecimal digits of random bytes, and a checksum of those digits in eight more. The checksum tells a
mistyped secret from one that was never issued, without a look at any store (`checksumMatches`).

Stores never hold a secret. They hold its digest, the SHA-256 hash in lower-case hexadecimal digits.
-/

namespace AccessTokens.Secret

/-- The number of hexadecimal digits in a digest. -/
def digestLength : Nat := 64

/-- The number of hexadecimal digits in a checksum. -/
def checksumLength : Nat := 8

/-- The hexadecimal digits of the checksum of a text. -/
def checksumText (body : List Char) : List Char :=
  Hex.ofWord (Crc32c.checksum (Text.bytesOf body))

/-- A secret with its label and its body: both, and the checksum of the body. -/
def compose (label body : String) : String :=
  label ++ body ++ String.ofList (checksumText body.toList)

/-- A secret passes when it starts with the label, an ASCII body of at least one character follows,
and the secret ends with the checksum of that body. -/
def checksumMatches (secret label : String) : Bool :=
  match Text.after? label.toList secret.toList with
  | none => false
  | some rest =>
    Text.isAscii rest && checksumLength < rest.length &&
      checksumText (rest.take (rest.length - checksumLength)) ==
        rest.drop (rest.length - checksumLength)

/-- The digest under which a secret is stored. -/
def digest (secret : String) : String :=
  String.ofList ((Sha256.hash (Text.bytes secret)).flatMap Hex.ofWord)

@[simp] theorem length_checksumText (body : List Char) :
    (checksumText body).length = checksumLength :=
  Hex.length_ofWord _

end AccessTokens.Secret
