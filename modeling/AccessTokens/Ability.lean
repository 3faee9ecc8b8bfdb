import AccessTokens.Text.Blank
import AccessTokens.Text.Ends
import AccessTokens.Text.Pieces

/-!
# Abilities

An ability is a text such as `read:posts`, whose segments are joined by a delimiter. A token has a list
of abilities, which is kept as one text joined by commas (`Ability.join`) and read back by cutting,
trimming and dropping what is empty (`Ability.list`).

A granted ability covers a required one when it is the wildcard, is equal to it, or ends in the
delimiter and the wildcard and the required ability lies below that scope (`Ability.covers`).
-/

namespace AccessTokens.Ability

/-- The character between the abilities of a list that is kept as one text. -/
def listSeparator : Char := ','

/-- The ability that covers every other one. -/
def wildcard : String := "*"

/-- A list of abilities as one text. -/
def join (abilities : List String) : String :=
  (String.singleton listSeparator).intercalate abilities

/-- The abilities in a text: its pieces between commas, trimmed, without the empty ones. -/
def list (joined : String) : List String :=
  (((Text.pieces listSeparator joined.toList).map Text.trim).filter (· ≠ [])).map String.ofList

/-- A granted ability covers a required one when it is the wildcard, equal to it, or a scope followed by
the delimiter and the wildcard while the required one is that scope followed by the delimiter and
anything. -/
def covers (delimiter : String) (granted required : String) : Bool :=
  granted == wildcard || granted == required ||
    match Text.before? (delimiter ++ wildcard).toList granted.toList with
    | none => false
    | some scope =>
      match Text.after? scope required.toList with
      | none => false
      | some rest => delimiter.toList.isPrefixOf rest

/-- A kept list grants a required ability when one of its abilities covers it. -/
def grants (joined delimiter required : String) : Bool :=
  (list joined).any fun granted => covers delimiter granted required

end AccessTokens.Ability
