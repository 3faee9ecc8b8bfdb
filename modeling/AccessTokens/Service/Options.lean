import AccessTokens.Record
import AccessTokens.Text.Decimal

/-!
# What a token is issued for

Whoever asks for a token names its owner, and may give it a name and abilities. `IssueOptions.check`
tells the first thing that is wrong with such a request. An ability with a comma is refused because the
list of abilities is kept as one text, in which the comma would divide it.
-/

namespace AccessTokens

/-- What a token is issued for. -/
structure IssueOptions where
  userId : Int64
  name : Option String := none
  abilities : List String := []
  deriving DecidableEq

/-- What is wrong with a request for a token. -/
inductive OptionsError
  | userIdNotPositive (userId : Int64)
  | nameTooLong
  | emptyAbility
  | abilityWithSeparator (ability : String)
  deriving DecidableEq

/-- The greatest number of characters in the name of a token. -/
def maxNameLength : Nat := 100

/-- The wording of an error. -/
def OptionsError.message : OptionsError → String
  | .userIdNotPositive userId => "user id must be positive, got " ++ Decimal.text userId
  | .nameTooLong => s!"name exceeds {maxNameLength} characters"
  | .emptyAbility => "ability cannot be empty"
  | .abilityWithSeparator ability =>
    s!"ability '{ability}' must not contain '{Ability.listSeparator}'"

namespace IssueOptions

/-- An ability may not be blank and may not hold the separator of lists. -/
def checkAbility (ability : String) : Except OptionsError Unit :=
  if Text.trim ability.toList = [] then .error .emptyAbility
  else if ability.toList.contains Ability.listSeparator then .error (.abilityWithSeparator ability)
  else .ok ()

/-- Tells the first thing that is wrong: the owner, the name, or one of the abilities in order. -/
def check (o : IssueOptions) : Except OptionsError Unit := do
  if o.userId ≤ 0 then
    throw (.userIdNotPositive o.userId)
  if (o.name.getD "").length > maxNameLength then
    throw .nameTooLong
  o.abilities.forM checkAbility

end IssueOptions

end AccessTokens
