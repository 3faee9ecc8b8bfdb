import AccessTokens.Text.Decimal
import AccessTokens.Text.Ends
import AccessTokens.Text.Pieces

/-!
# Plain tokens

A plain token is what a client is handed and presents again: the id of its record, a separator, and the
secret. It may be presented with the scheme `Bearer` in front.

Reading drops one scheme and cuts the rest at the separator. Only a text of two parts is a token
(`parse`), and a refusal tells the number of parts. The id is taken as text and is never trusted: it
serves people, not lookups.
-/

namespace AccessTokens

/-- The character between the id and the secret of a token. -/
def tokenSeparator : Char := '|'

/-- The scheme that may stand before a presented token. -/
def bearerScheme : String := "Bearer "

/-- A presented token cut into its two parts. -/
structure PlainToken where
  id : String
  secret : String
  deriving DecidableEq

/-- A presented text does not have two parts. -/
structure PartCountError where
  found : Nat
  deriving DecidableEq

/-- The wording of the error. -/
def PartCountError.message (e : PartCountError) : String :=
  s!"Invalid token format: expected 2 parts separated by '|', found {e.found}"

namespace PlainToken

/-- The token of a record's id and a secret. -/
def format (id : Int64) (secret : String) : String :=
  Decimal.text id ++ String.singleton tokenSeparator ++ secret

/-- What is left of a presented text without one scheme in front. -/
def withoutScheme (raw : List Char) : List Char :=
  (Text.after? bearerScheme.toList raw).getD raw

/-- Reads a presented text as a token. -/
def parse (raw : String) : Except PartCountError PlainToken :=
  match Text.pieces tokenSeparator (withoutScheme raw.toList) with
  | [id, secret] => .ok ⟨String.ofList id, String.ofList secret⟩
  | parts => .error ⟨parts.length⟩

end PlainToken

end AccessTokens
