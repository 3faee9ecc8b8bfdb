import AccessTokens.Json.Value
import AccessTokens.Record
import AccessTokens.Time.Timestamp

/-!
# Records as JSON

A record is written as an object with one member for each of its eight fields, in the order of the
fields, with `null` for what is absent. Instants are written with the zone `Z`.

A record is read from such an object in any order of its members, or from an array of the eight values.
Members with other keys are passed over, a known key may occur once only, and the three fields that may
be absent may also be missing.
-/

namespace AccessTokens.Record

open Json (Value)
open Time (Instant)

/-- The text of a value that may be absent. -/
def optionText {α : Type} (text : α → List Char) : Option α → List Char
  | none => Json.nullText
  | some a => text a

/-- The keys and the texts of the fields in order. -/
def jsonMembers (r : Record) : List (String × List Char) :=
  [("id", Decimal.ofInt r.id.toInt),
    ("user_id", Decimal.ofInt r.userId.toInt),
    ("token", Json.quoted r.digest),
    ("name", optionText Json.quoted r.name),
    ("abilities", Json.quoted r.abilities),
    ("created_at", Json.quoted r.createdAt.zulu),
    ("expires_at", optionText (fun t => Json.quoted t.zulu) r.expiresAt),
    ("last_used_at", optionText (fun t => Json.quoted t.zulu) r.lastUsedAt)]

/-- The JSON text of a record. -/
def toJson (r : Record) : String := String.ofList (Json.objectText r.jsonMembers)

/-! ### Reading -/

/-- An integer of 64 bits. -/
def int64? : Value → Option Int64
  | .integer n =>
    if Int64.minValue.toInt ≤ n ∧ n ≤ Int64.maxValue.toInt then some (Int64.ofInt n) else none
  | _ => none

/-- A text. -/
def text? : Value → Option String
  | .text s => s
  | _ => none

/-- The text of an instant in the loose form. -/
def instant? (v : Value) : Option Instant := do
  Time.readLenient? (← text? v)

/-- A value that has to be there. -/
def required {α : Type} (read : Value → Option α) (v : Option Value) : Option α := v.bind read

/-- A value that may be missing or `null`. -/
def optional {α : Type} (read : Value → Option α) : Option Value → Option (Option α)
  | none => some none
  | some .null => some none
  | some v => (read v).map some

/-- The value of a key, which may be missing but may not repeat. -/
def member? (members : List (Option String × Value)) (key : String) : Option (Option Value) :=
  match members.filter (fun m => m.1 = some key) with
  | [] => some none
  | [m] => some (some m.2)
  | _ => none

/-- The record of the values of a JSON array, or of the members of a JSON object whose keys are all
texts. -/
def ofValue? : Value → Option Record
  | .array [id, userId, digest, name, abilities, createdAt, expiresAt, lastUsedAt] =>
    ofFields id userId digest name abilities createdAt expiresAt lastUsedAt
  | .object members => do
    guard (members.all fun m => m.1.isSome)
    ofFields (← member? members "id") (← member? members "user_id") (← member? members "token")
      (← member? members "name") (← member? members "abilities") (← member? members "created_at")
      (← member? members "expires_at") (← member? members "last_used_at")
  | _ => none
where
  /-- The record of the values of its fields. -/
  ofFields (id userId digest name abilities createdAt expiresAt lastUsedAt : Option Value) :
      Option Record := do
    return {
      id := ← required int64? id
      userId := ← required int64? userId
      digest := ← required text? digest
      name := ← optional text? name
      abilities := ← required text? abilities
      createdAt := ← required instant? createdAt
      expiresAt := ← optional instant? expiresAt
      lastUsedAt := ← optional instant? lastUsedAt }

/-- Reads a record from a JSON text. -/
def ofJson? (s : String) : Option Record := do
  ofValue? (← Value.read? s)

end AccessTokens.Record
