import AccessTokens.Proofs.Json.Written
import AccessTokens.Proofs.Record.Written
import AccessTokens.Proofs.Time.LooseText
import AccessTokens.Record.Json
import Mathlib.Data.Option.Basic

/-!
# The JSON of a record reads back

The text of a record is an object of eight members, and each of them is read as the value of its field
(`jsonMembers_readAs`). Integers of 64 bits and texts are got back from those values, and of an instant what
its text says, so that the record comes back as it was written (`Record.asWritten`, `ofValue?_members`).
That is the record itself, unless it has a leap second within a minute, and no text says one.

Main statement: `json_reads_back`.
-/

namespace AccessTokens.Record

open Json (Value MemberReadsAs)

/-- The value of a field that may be absent. -/
def optionValue {α : Type} (value : α → Value) : Option α → Value
  | none => .null
  | some a => value a

/-- The members of the JSON object of a record. -/
def members (r : Record) : List (Option String × Value) :=
  [(some "id", .integer r.id.toInt),
    (some "user_id", .integer r.userId.toInt),
    (some "token", .text r.digest),
    (some "name", optionValue (fun s => .text (some s)) r.name),
    (some "abilities", .text r.abilities),
    (some "created_at", .text r.createdAt.zulu),
    (some "expires_at", optionValue (fun t => .text t.zulu) r.expiresAt),
    (some "last_used_at", optionValue (fun t => .text t.zulu) r.lastUsedAt)]

theorem optionText_readsAs {α : Type} {text : α → List Char} {value : α → Value}
    (h : ∀ a, Json.ReadsAs (text a) (value a)) (a : Option α) :
    Json.ReadsAs (optionText text a) (optionValue value a) := by
  cases a with
  | none => exact Json.readsAs_null
  | some a => exact h a

/-- Every member is read as the value of its field. -/
theorem jsonMembers_readAs (r : Record) : List.Forall₂ MemberReadsAs r.jsonMembers r.members := by
  have htime (t : Time.Instant) := Json.readsAs_quoted t.zulu
  refine .cons ⟨rfl, Json.readsAs_ofInt _⟩ (.cons ⟨rfl, Json.readsAs_ofInt _⟩
    (.cons ⟨rfl, Json.readsAs_quoted _⟩ (.cons ⟨rfl, optionText_readsAs Json.readsAs_quoted _⟩
    (.cons ⟨rfl, Json.readsAs_quoted _⟩ (.cons ⟨rfl, htime _⟩
    (.cons ⟨rfl, optionText_readsAs htime _⟩ (.cons ⟨rfl, optionText_readsAs htime _⟩ .nil)))))))

/-! ### The fields -/

theorem int64?_toInt (n : Int64) : int64? (.integer n.toInt) = some n := by
  rw [int64?, if_pos ⟨n.minValue_le_toInt, n.toInt_le⟩, Int64.ofInt_toInt]

theorem instant?_zulu (t : Time.Instant) : instant? (.text t.zulu) = some t.asWritten := by
  rw [instant?, text?, Option.bind_eq_bind, Option.bind_some, Time.Instant.readLenient?_zulu]

theorem optional_instant?_zulu (t? : Option Time.Instant) :
    optional instant? (some (optionValue (fun t => .text t.zulu) t?)) =
      some (t?.map Time.Instant.asWritten) := by
  cases t? with
  | none => rfl
  | some t =>
    rw [optionValue, optional, instant?_zulu]
    · rfl
    · exact Value.noConfusion

theorem ofValue?_members (r : Record) : ofValue? (.object r.members) = some r.asWritten := by
  have hname : optional text? (some (optionValue (fun s => .text (some s)) r.name)) = some r.name := by
    cases r.name <;> rfl
  -- every key is there once
  have hkeys : ofValue? (.object r.members) =
      ofValue?.ofFields (some (.integer r.id.toInt)) (some (.integer r.userId.toInt))
        (some (.text r.digest)) (some (optionValue (fun s => .text (some s)) r.name))
        (some (.text r.abilities)) (some (.text r.createdAt.zulu))
        (some (optionValue (fun t => .text t.zulu) r.expiresAt))
        (some (optionValue (fun t => .text t.zulu) r.lastUsedAt)) := by
    simp [ofValue?, members, member?]
  rw [hkeys, ofValue?.ofFields]
  simp only [required, Option.bind_some, int64?_toInt, instant?_zulu, optional_instant?_zulu,
    hname]
  rfl

/-- **A record reads back** from its JSON text as it was written. -/
theorem ofJson?_toJson (r : Record) : ofJson? r.toJson = some r.asWritten := by
  rw [ofJson?, toJson, Value.read?_objectText r.jsonMembers_readAs]
  exact r.ofValue?_members

/-! ### What is read -/

theorem isWritable_of_instant? {v : Value} {t : Time.Instant} (h : instant? v = some t) :
    t.IsWritable := by
  obtain ⟨s, -, hs⟩ := Option.bind_eq_some_iff.1 h
  exact Time.isWritable_of_readLenient? hs

theorem isWritable_of_optional {v : Option Value} {t? : Option Time.Instant}
    (h : optional instant? v = some t?) : ∀ t, t? = some t → t.IsWritable := by
  rintro t rfl
  unfold optional at h
  split at h
  -- a value that is missing or `null` is no instant
  · cases h
  · cases h
  · obtain ⟨t', ht', ht⟩ := Option.map_eq_some_iff.1 h
    cases ht
    exact isWritable_of_instant? ht'

theorem isWritable_of_ofFields {id userId digest name abilities : Option Value}
    {createdAt expiresAt lastUsedAt : Option Value} {r : Record}
    (h : ofValue?.ofFields id userId digest name abilities createdAt expiresAt lastUsedAt = some r) :
    r.IsWritable := by
  unfold ofValue?.ofFields at h
  -- five fields that hold no instant, then the three that do
  obtain ⟨_, -, h⟩ := Option.bind_eq_some_iff.1 h
  obtain ⟨_, -, h⟩ := Option.bind_eq_some_iff.1 h
  obtain ⟨_, -, h⟩ := Option.bind_eq_some_iff.1 h
  obtain ⟨_, -, h⟩ := Option.bind_eq_some_iff.1 h
  obtain ⟨_, -, h⟩ := Option.bind_eq_some_iff.1 h
  obtain ⟨created, hcreated, h⟩ := Option.bind_eq_some_iff.1 h
  obtain ⟨expires, hexpires, h⟩ := Option.bind_eq_some_iff.1 h
  obtain ⟨used, hused, h⟩ := Option.bind_eq_some_iff.1 h
  obtain ⟨v, -, hv⟩ := Option.bind_eq_some_iff.1 hcreated
  cases h
  exact ⟨isWritable_of_instant? hv, isWritable_of_optional hexpires, isWritable_of_optional hused⟩

/-- Whatever text a record is read from, its instants have texts of their own. A leap second that is read is
one at the end of a minute, which is written as it was read. -/
theorem isWritable_of_ofJson? {s : String} {r : Record} (h : ofJson? s = some r) : r.IsWritable := by
  obtain ⟨v, -, hv⟩ := Option.bind_eq_some_iff.1 h
  unfold ofValue? at hv
  split at hv
  · exact isWritable_of_ofFields hv
  · -- the members are looked up one after the other, and then the fields are read
    obtain ⟨_, -, hv⟩ := Option.bind_eq_some_iff.1 hv
    iterate 8 obtain ⟨_, -, hv⟩ := Option.bind_eq_some_iff.1 hv
    exact isWritable_of_ofFields hv
  · cases hv

/-- The JSON text of a record holds that record and nothing else, if its instants have texts of their own,
and not otherwise. Whatever text a record was read from, writing it and reading it again changes nothing,
and what is written for it the second time is what was written the first time. -/
theorem json_reads_back :
    (∀ r : Record, ofJson? r.toJson = some r ↔ r.IsWritable) ∧
    ∀ (s : String) (r : Record), ofJson? s = some r →
      ∃ again, ofJson? r.toJson = some again ∧ again = r ∧ again.toJson = r.toJson := by
  have hback (r : Record) : ofJson? r.toJson = some r ↔ r.IsWritable := by
    rw [ofJson?_toJson, Option.some_inj, asWritten_eq_self_iff]
  refine ⟨hback, fun s r hs => ⟨r, ?_, rfl, rfl⟩⟩
  -- nothing but texts of their own was read
  exact (hback r).2 (isWritable_of_ofJson? hs)

/-- A text that nobody writes for a record: an array, with white space, escapes that are not needed,
instants in the loose form, and a leap second. -/
def looseText : String :=
  "[ -7, 5 ,\"a\\u0000\\\\\\\"\\ud83d\\ude00\", null,\"\\u0072\"," ++
    "\"+262142-12-31t23:59:59.5 utc\" ,null,\"-1-6-30 23:59:60Z\" ]"

theorem json_reads_back_looseText :
    ∃ r, ofJson? looseText = some r ∧
      ∃ again, ofJson? r.toJson = some again ∧ again = r ∧ again.toJson = r.toJson := by
  have hread : (ofJson? looseText).isSome = true := by decide +kernel
  obtain ⟨r, hr⟩ := Option.isSome_iff_exists.1 hread
  exact ⟨r, hr, json_reads_back.2 _ r hr⟩

end AccessTokens.Record
