import AccessTokens.PlainToken
import AccessTokens.Proofs.Text.Cutting
import Mathlib.Data.List.Basic

/-!
# Plain tokens come apart where they were joined

Writing a token joins an id and a secret, and reading one drops a scheme and cuts the rest. This file says
what is read without following how.

* `Body raw body`: the body of a presented text is what stands behind a scheme, or the whole text when no
  scheme stands before it. Every text has one body (`body_iff`), and only one scheme is ever dropped.
* `IsJoined body t`: a body is the two parts of a token with the only separator between them. It is then
  cut into these two (`isJoined_iff`), and a body is joined of some token exactly when it has one separator
  (`exists_isJoined_iff`).

Reading succeeds on the joined bodies and fails on all others with the number of their parts
(`parse_eq_ok_iff`, `parse_eq_error`). The tokens with one secret are the texts that present it, with any id
and with a scheme or without one (`presents_iff`). What was written is a joined body of its own, as an id
has neither a separator nor the first letter of a scheme in it (`body_format`, `isJoined_format`).
-/

namespace AccessTokens.PlainToken

/-! ### What is read of a text -/

/-- The body of a presented text: what stands behind a scheme, or the text itself when no scheme stands
before it. A second scheme belongs to the body. -/
inductive Body : String → String → Prop
  | behindScheme (body : String) : Body (bearerScheme ++ body) body
  | bare {raw : String} (h : ¬ bearerScheme.toList <+: raw.toList) : Body raw raw

/-- A body is two parts with the only separator between them. -/
structure IsJoined (body : String) (t : PlainToken) : Prop where
  joined : body = t.id ++ String.singleton tokenSeparator ++ t.secret
  id_free : tokenSeparator ∉ t.id.toList
  secret_free : tokenSeparator ∉ t.secret.toList

variable {raw body : String} {t : PlainToken}

theorem body_iff : Body raw body ↔ body.toList = withoutScheme raw.toList := by
  -- The scheme can be cut off the front exactly when the text begins with it, and what is cut is one scheme.
  unfold withoutScheme
  constructor
  · intro h
    cases h with
    | behindScheme =>
      have hcut : Text.after? bearerScheme.toList (bearerScheme ++ body).toList = some body.toList := by
        rw [Text.after?_eq_some_iff, String.toList_append]
      rw [hcut, Option.getD_some]
    | bare h => rw [Text.after?_eq_none_iff.2 h, Option.getD_none]
  · intro h
    cases hcut : Text.after? bearerScheme.toList raw.toList with
    | none =>
      rw [hcut, Option.getD_none, String.toList_inj] at h
      subst h
      exact .bare (Text.after?_eq_none_iff.1 hcut)
    | some rest =>
      rw [hcut, Option.getD_some] at h
      have hraw : raw = bearerScheme ++ body := by
        rw [← String.toList_inj, String.toList_append, h]
        exact Text.after?_eq_some_iff.1 hcut
      rw [hraw]
      exact .behindScheme body

theorem isJoined_iff :
    IsJoined body t ↔ Text.pieces tokenSeparator body.toList = [t.id.toList, t.secret.toList] := by
  have hjoin : [tokenSeparator].intercalate [t.id.toList, t.secret.toList] =
      (t.id ++ String.singleton tokenSeparator ++ t.secret).toList := by
    simp [List.intercalate_cons_cons]
  -- both sides say that the two parts are a cut of the body
  rw [eq_comm, ← Text.isCut_iff]
  constructor
  · intro h
    exact {
      joined := by rw [hjoin, ← h.joined]
      nonempty := List.cons_ne_nil _ _
      free := by simpa using ⟨h.id_free, h.secret_free⟩ }
  · intro h
    exact {
      joined := by rw [← String.toList_inj, ← hjoin, h.joined]
      id_free := h.free _ (by simp)
      secret_free := h.free _ (by simp) }

theorem exists_isJoined_iff :
    (∃ t, IsJoined body t) ↔ (Text.pieces tokenSeparator body.toList).length = 2 := by
  constructor
  · rintro ⟨t, h⟩
    rw [isJoined_iff.1 h]
    rfl
  · intro h
    obtain ⟨id, secret, hparts⟩ := List.length_eq_two.1 h
    refine ⟨⟨String.ofList id, String.ofList secret⟩, isJoined_iff.2 ?_⟩
    rw [hparts, String.toList_ofList, String.toList_ofList]

/-! ### Reading -/

theorem parse_eq_ok_iff (hbody : Body raw body) : parse raw = .ok t ↔ IsJoined body t := by
  rw [isJoined_iff, body_iff.1 hbody]
  unfold parse
  constructor
  · intro h
    split at h
    · next id secret hparts =>
      obtain rfl := Except.ok.inj h
      rw [hparts, String.toList_ofList, String.toList_ofList]
    · cases h
  · intro h
    rw [h]
    simp only [String.ofList_toList]

theorem parse_eq_error (hbody : Body raw body) (h : ¬ ∃ t, IsJoined body t) :
    parse raw = .error ⟨1 + body.toList.count tokenSeparator⟩ := by
  have hcount : (Text.pieces tokenSeparator body.toList).length =
      1 + body.toList.count tokenSeparator := by
    rw [Text.length_pieces, Nat.add_comm]
  -- two parts would be joined, so the number of parts is another one
  rw [exists_isJoined_iff] at h
  rw [← hcount, body_iff.1 hbody] at *
  unfold parse
  split
  · next hparts =>
    rw [hparts] at h
    exact absurd rfl h
  · rfl

/-- Every text has a body. -/
theorem exists_body (raw : String) : ∃ body, Body raw body :=
  ⟨String.ofList (withoutScheme raw.toList), body_iff.2 String.toList_ofList⟩

/-! ### Presenting a secret -/

/-- A text presents a secret: an id and the separator stand before it, and a scheme may stand before
these. Neither the id nor the secret holds a separator. -/
inductive Presents : String → String → Prop
  | bare {id secret : String} (hid : tokenSeparator ∉ id.toList)
    (hsecret : tokenSeparator ∉ secret.toList) :
    Presents (id ++ String.singleton tokenSeparator ++ secret) secret
  | behindScheme {id secret : String} (hid : tokenSeparator ∉ id.toList)
    (hsecret : tokenSeparator ∉ secret.toList) :
    Presents (bearerScheme ++ (id ++ String.singleton tokenSeparator ++ secret)) secret

/-- A scheme that a text begins with ends before the first separator. The scheme has no separator in it, so
it cannot reach beyond one. -/
theorem prefix_of_scheme_prefix {front rest : List Char}
    (h : bearerScheme.toList <+: front ++ tokenSeparator :: rest) : bearerScheme.toList <+: front := by
  have hfront : front ++ [tokenSeparator] <+: front ++ tokenSeparator :: rest := by
    rw [List.prefix_append_right_inj]
    exact ⟨rest, rfl⟩
  have hscheme : tokenSeparator ∉ bearerScheme.toList := by decide
  have hlast : tokenSeparator ∈ front ++ [tokenSeparator] := by simp
  -- of two beginnings of one text one begins the other, and the longer one has the separator in it
  rcases List.prefix_or_prefix_of_prefix h hfront with h | h
  · rcases List.prefix_concat_iff.1 h with heq | h
    · exact absurd (heq ▸ hlast) hscheme
    · exact h
  · exact absurd (h.subset hlast) hscheme

/-- Any id may stand before a secret. One that begins with a scheme is read without it. In either case the
secret is what stands behind the separator. -/
theorem exists_parse_bare {id secret : String} (hid : tokenSeparator ∉ id.toList)
    (hsecret : tokenSeparator ∉ secret.toList) :
    ∃ id', parse (id ++ String.singleton tokenSeparator ++ secret) = .ok ⟨id', secret⟩ := by
  -- An id is any text here. It may begin like a scheme, and then it is the body's id that is shorter.
  by_cases hscheme : bearerScheme.toList <+: (id ++ String.singleton tokenSeparator ++ secret).toList
  · have htext : (id ++ String.singleton tokenSeparator ++ secret).toList =
        id.toList ++ tokenSeparator :: secret.toList := by simp
    obtain ⟨rest, hrest⟩ := prefix_of_scheme_prefix (htext ▸ hscheme)
    obtain rfl : id = bearerScheme ++ String.ofList rest := by
      rw [← String.toList_inj, ← hrest, String.toList_append, String.toList_ofList]
    have hfree : tokenSeparator ∉ (String.ofList rest).toList := by
      rw [String.toList_append, List.mem_append] at hid
      exact fun hmem => hid (.inr hmem)
    -- the scheme stands before the whole text, and the rest of the id behind it
    have hraw : bearerScheme ++ String.ofList rest ++ String.singleton tokenSeparator ++ secret =
        bearerScheme ++ (String.ofList rest ++ String.singleton tokenSeparator ++ secret) := by
      simp only [String.append_assoc]
    refine ⟨String.ofList rest, ?_⟩
    rw [hraw]
    exact (parse_eq_ok_iff (.behindScheme _)).2 ⟨rfl, hfree, hsecret⟩
  · exact ⟨id, (parse_eq_ok_iff (.bare hscheme)).2 ⟨rfl, hid, hsecret⟩⟩

/-- **The tokens with a secret** are the texts that present it. -/
theorem presents_iff {secret : String} :
    Presents raw secret ↔ ∃ id, parse raw = .ok ⟨id, secret⟩ := by
  constructor
  · intro h
    cases h with
    | bare hid hsecret => exact exists_parse_bare hid hsecret
    | behindScheme hid hsecret =>
      exact ⟨_, (parse_eq_ok_iff (.behindScheme _)).2 ⟨rfl, hid, hsecret⟩⟩
  · rintro ⟨id, h⟩
    obtain ⟨body, hbody⟩ := exists_body raw
    obtain ⟨hjoined, hid, hsecret⟩ := (parse_eq_ok_iff hbody).1 h
    obtain rfl := hjoined
    cases hbody with
    | behindScheme => exact .behindScheme hid hsecret
    | bare => exact .bare hid hsecret

/-! ### What was written -/

theorem mem_ofInt {n : Int} {c : Char} (h : c ∈ Decimal.ofInt n) : c.isDigit = true ∨ c = '-' := by
  cases n with
  | ofNat n => exact Or.inl (Decimal.isDigit_of_mem_ofNat h)
  | negSucc n =>
    rcases List.mem_cons.1 h with rfl | h
    · exact Or.inr rfl
    · exact Or.inl (Decimal.isDigit_of_mem_ofNat h)

theorem separator_notMem_ofInt (n : Int) : tokenSeparator ∉ Decimal.ofInt n := by
  intro h
  rcases mem_ofInt h with hdigit | hsign
  · exact absurd hdigit (by decide)
  · exact absurd hsign (by decide)

theorem toList_format (id : Int64) (secret : String) :
    (format id secret).toList = Decimal.ofInt id.toInt ++ tokenSeparator :: secret.toList := by
  simp [format, Decimal.text]

/-- No scheme stands before a token that was written: it begins with an id. An id begins with a digit or a
minus sign, and the scheme with a letter. -/
theorem body_format (id : Int64) (secret : String) : Body (format id secret) (format id secret) := by
  refine .bare ?_
  rw [toList_format]
  rintro ⟨rest, hrest⟩
  -- the first character would be the letter of the scheme
  have hhead : (Decimal.ofInt id.toInt ++ tokenSeparator :: secret.toList).head? = some 'B' := by
    rw [← hrest]
    rfl
  cases hid : Decimal.ofInt id.toInt with
  | nil =>
    rw [hid] at hhead
    cases hhead
  | cons c cs =>
    rw [hid] at hhead
    obtain rfl : c = 'B' := Option.some.inj hhead
    have hmem : 'B' ∈ Decimal.ofInt id.toInt := by
      rw [hid]
      exact List.mem_cons_self
    rcases mem_ofInt hmem with hdigit | hsign
    · exact absurd hdigit (by decide)
    · exact absurd hsign (by decide)

theorem isJoined_format (id : Int64) {secret : String} (h : tokenSeparator ∉ secret.toList) :
    IsJoined (format id secret) ⟨Decimal.text id, secret⟩ where
  joined := rfl
  id_free := by
    rw [Decimal.text, String.toList_ofList]
    exact separator_notMem_ofInt id.toInt
  secret_free := h

/-- **A token comes apart into the id and the secret that were joined.** -/
theorem parse_format (id : Int64) {secret : String} (h : tokenSeparator ∉ secret.toList) :
    parse (format id secret) = .ok ⟨Decimal.text id, secret⟩ :=
  (parse_eq_ok_iff (body_format id secret)).2 (isJoined_format id h)

/-- A scheme in front of a token makes no difference. -/
theorem parse_bearer_format (id : Int64) (secret : String) :
    parse (bearerScheme ++ format id secret) = parse (format id secret) := by
  have hdropped : withoutScheme (bearerScheme ++ format id secret).toList = (format id secret).toList :=
    (body_iff.1 (.behindScheme _)).symm
  have hkept : withoutScheme (format id secret).toList = (format id secret).toList :=
    (body_iff.1 (body_format id secret)).symm
  unfold parse
  rw [hdropped, hkept]

/-- The separator is the only one in a token. -/
theorem count_separator_format (id : Int64) {secret : String} (h : tokenSeparator ∉ secret.toList) :
    (format id secret).toList.count tokenSeparator = 1 := by
  rw [toList_format, List.count_append, List.count_cons_self,
    List.count_eq_zero_of_not_mem (separator_notMem_ofInt id.toInt),
    List.count_eq_zero_of_not_mem h]

/-- **Reading and writing are inverse.** Whatever the id, and whatever the secret as long as it holds no
separator, the text that joins them is read as the decimal text of the id and the secret, with a scheme in
front or without one.

In the other direction, every presented text has one body. It is read as a token exactly when the body is
joined of the parts of this token, and when it is joined of no two parts, the refusal tells how many parts
there are: one more than the separators. -/
theorem reading_inverts_writing :
    (∀ (id : Int64) (secret : String), tokenSeparator ∉ secret.toList →
      parse (format id secret) = .ok ⟨toString id, secret⟩ ∧
      parse (bearerScheme ++ format id secret) = .ok ⟨toString id, secret⟩) ∧
    ∀ raw : String, ∃ body : String, Body raw body ∧ (∀ other, Body raw other → other = body) ∧
      (∀ t : PlainToken, parse raw = .ok t ↔ IsJoined body t) ∧
      ((¬ ∃ t, IsJoined body t) → parse raw = .error ⟨1 + body.toList.count tokenSeparator⟩) := by
  constructor
  · intro id secret h
    rw [parse_bearer_format, parse_format id h, Decimal.text_eq_toString]
    exact ⟨rfl, rfl⟩
  · intro raw
    have hbody : Body raw (String.ofList (withoutScheme raw.toList)) :=
      body_iff.2 String.toList_ofList
    -- a text has one body, which is what stands behind the scheme that was dropped
    refine ⟨_, hbody, ?_, fun _ => parse_eq_ok_iff hbody, parse_eq_error hbody⟩
    intro other hother
    rw [← String.toList_inj, body_iff.1 hother, String.toList_ofList]

/-- A negative id and a secret that begins with a scheme; two schemes, of which one is kept; and a text
with two separators, both of them at its end. -/
theorem reading_inverts_writing_twoSchemes :
    tokenSeparator ∉ "Bearer é".toList ∧
      parse (bearerScheme ++ format (-9223372036854775808) "Bearer é") =
        .ok ⟨"-9223372036854775808", "Bearer é"⟩ ∧
      parse "Bearer Bearer 7|" = .ok ⟨"Bearer 7", ""⟩ ∧
      Body "Bearer ||" "||" ∧ (¬ ∃ t, IsJoined "||" t) ∧ parse "Bearer ||" = .error ⟨3⟩ := by
  have hsecret : tokenSeparator ∉ "Bearer é".toList := by decide
  have hwritten := (reading_inverts_writing.1 (-9223372036854775808) _ hsecret).2
  have hkept : Body "Bearer Bearer 7|" "Bearer 7|" := .behindScheme "Bearer 7|"
  have hjoined : IsJoined "Bearer 7|" ⟨"Bearer 7", ""⟩ := ⟨rfl, by decide, by decide⟩
  obtain ⟨body, -, honly, hok, -⟩ := reading_inverts_writing.2 "Bearer Bearer 7|"
  obtain rfl := honly _ hkept
  have hthree : Body "Bearer ||" "||" := .behindScheme "||"
  have hparts : ¬ ∃ t, IsJoined "||" t := by
    rw [exists_isJoined_iff]
    decide
  obtain ⟨body, -, honly, -, herror⟩ := reading_inverts_writing.2 "Bearer ||"
  obtain rfl := honly _ hthree
  exact ⟨hsecret, hwritten, (hok _).2 hjoined, hthree, hparts, herror hparts⟩

end AccessTokens.PlainToken
