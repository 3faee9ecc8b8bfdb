import AccessTokens.Storage.Location

/-!
# What a location names

The location of a database is `sqlite:` and a text. The text begins with some pairs of slashes, and what
follows all of them is a path that does not begin with a pair (`Location.databaseUrl`). There is one way to
cut a text like this (`Location.exists_path_behind_pairs`, `Location.databaseUrl_inj`), and what
`Location.ofUrl` answers is told by the number of pairs and the path (`Location.ofUrl_cases`).

The pairs are dropped, however many there are, and the text is only looked at before that: it may not be
empty, and the path of a database in memory brings its own settings. What is left is not looked at again. So
behind a pair the path of memory is opened with the settings of a file
(`Location.memory_settings_need_bare_path`), and a database may have an empty path, or one that is relative
although an absolute one was meant (`Location.paths_lose_all_pairs`).
-/

namespace AccessTokens.Storage.Location

/-! ### Pairs of slashes -/

/-- Some pairs of slashes. -/
def slashPairs : Nat → List Char
  | 0 => []
  | n + 1 => '/' :: '/' :: slashPairs n

theorem length_slashPairs (n : Nat) : (slashPairs n).length = 2 * n := by
  induction n with
  | zero => rfl
  | succ n ih =>
    rw [slashPairs, List.length_cons, List.length_cons, ih]
    omega

theorem slashPairs_add (m n : Nat) : slashPairs (m + n) = slashPairs m ++ slashPairs n := by
  induction m with
  | zero => rw [Nat.zero_add, slashPairs, List.nil_append]
  | succ m ih => rw [Nat.succ_add, slashPairs, ih, slashPairs, List.cons_append, List.cons_append]

theorem withoutSlashPairs_of_not_prefix {cs : List Char} (h : ¬ slashPairs 1 <+: cs) :
    withoutSlashPairs cs = cs := by
  unfold withoutSlashPairs
  split
  · next rest => exact absurd ⟨rest, rfl⟩ h
  · rfl

/-- The pairs at the start are dropped, and nothing else. -/
theorem withoutSlashPairs_append (n : Nat) {path : List Char} (h : ¬ slashPairs 1 <+: path) :
    withoutSlashPairs (slashPairs n ++ path) = path := by
  induction n with
  | zero => exact withoutSlashPairs_of_not_prefix h
  | succ n ih => exact ih

/-- Every text is cut into pairs and what follows all of them. -/
theorem exists_slashPairs_append (cs : List Char) :
    ∃ n path, cs = slashPairs n ++ path ∧ ¬ slashPairs 1 <+: path := by
  -- along the pairs that are dropped, each of which is one more in front
  fun_induction withoutSlashPairs cs with
  | case1 cs ih =>
    obtain ⟨n, path, hcut, hpath⟩ := ih
    exact ⟨n + 1, path, by rw [hcut, slashPairs, List.cons_append, List.cons_append], hpath⟩
  | case2 cs h => exact ⟨0, cs, rfl, fun ⟨rest, hrest⟩ => h rest hrest.symm⟩

/-- There is one way to cut a text. The path has no pair in front, so the pairs end where it begins. -/
theorem slashPairs_append_inj {n m : Nat} {path other : List Char} (hpath : ¬ slashPairs 1 <+: path)
    (hother : ¬ slashPairs 1 <+: other) (h : slashPairs n ++ path = slashPairs m ++ other) :
    n = m ∧ path = other := by
  -- the paths are what is left of the same text, and then the numbers are told by its length
  have hsame : path = other := by
    rw [← withoutSlashPairs_append n hpath, h, withoutSlashPairs_append m hother]
  subst hsame
  have hlength := congrArg List.length (List.append_cancel_right h)
  rw [length_slashPairs, length_slashPairs] at hlength
  exact ⟨by omega, rfl⟩

/-! ### Databases -/

/-- The location of a database: a path behind some pairs of slashes. -/
def databaseUrl (n : Nat) (path : String) : String :=
  "sqlite:" ++ (String.ofList (slashPairs n) ++ path)

/-- Pairs may be taken to be part of the path. So the cut of a location is determined only when the path is
asked to begin without one. -/
theorem databaseUrl_add (m n : Nat) (path : String) :
    databaseUrl (m + n) path = databaseUrl m (String.ofList (slashPairs n) ++ path) := by
  rw [databaseUrl, slashPairs_add, String.ofList_append, String.append_assoc, databaseUrl]

/-- A location is that of one number of pairs and one path, if the path is cut behind all of them. -/
theorem databaseUrl_inj {n m : Nat} {path other : String} (hpath : ¬ slashPairs 1 <+: path.toList)
    (hother : ¬ slashPairs 1 <+: other.toList) (h : databaseUrl n path = databaseUrl m other) :
    n = m ∧ path = other := by
  have htext : slashPairs n ++ path.toList = slashPairs m ++ other.toList := by
    simpa [databaseUrl, ← String.toList_inj] using h
  obtain ⟨hn, hsame⟩ := slashPairs_append_inj hpath hother htext
  exact ⟨hn, String.toList_inj.1 hsame⟩

/-- The path of a database in memory does not begin with a pair of slashes. -/
theorem memoryPath_bare : ¬ slashPairs 1 <+: Settings.memoryPath.toList := by decide

theorem sqlite_append_ne_memory (text : String) : "sqlite:" ++ text ≠ "memory" := by
  rw [Ne, ← String.toList_inj, String.toList_append]
  exact fun h => absurd (List.cons.inj h).1 (by decide)

/-- A text that is not empty names a path, which is the text without its pairs. The bare path of memory has
settings of its own, and is looked for before any pair is dropped. -/
theorem ofUrl_sqlite_append {text : String} (htext : text ≠ "") :
    ofUrl ("sqlite:" ++ text) = .ok (.sqlite (if text = Settings.memoryPath then .inMemory
      else { path := String.ofList (withoutSlashPairs text.toList) })) := by
  have hafter : Text.after? "sqlite:".toList ("sqlite:" ++ text).toList = some text.toList :=
    Text.after?_eq_some_iff.2 (String.toList_append ..)
  have hne : text.toList ≠ [] := by simpa using htext
  -- it is looked at whether it is the path of memory before any pairs are dropped
  rw [ofUrl, if_neg (sqlite_append_ne_memory text), hafter]
  cases hcs : text.toList with
  | nil => exact absurd hcs hne
  | cons c cs =>
    show (if c :: cs = Settings.memoryPath.toList then _ else _) = _
    simp only [← hcs, String.toList_inj]
    split <;> rfl

/-- Every text is cut into pairs and a path. -/
theorem exists_path_behind_pairs (text : String) :
    ∃ (n : Nat) (path : String), ¬ slashPairs 1 <+: path.toList ∧
      text = String.ofList (slashPairs n) ++ path := by
  obtain ⟨n, path, hcut, hpath⟩ := exists_slashPairs_append text.toList
  refine ⟨n, String.ofList path, by rwa [String.toList_ofList], ?_⟩
  rw [← String.ofList_append, ← hcut, String.ofList_toList]

/-- The settings of a path behind pairs of slashes: those of memory for its path without any pair. With a
pair in front the same path gets the settings of a file. -/
def settingsOf (n : Nat) (path : String) : Settings :=
  if n = 0 ∧ path = Settings.memoryPath then .inMemory else { path := path }

@[simp] theorem settingsOf_path (n : Nat) (path : String) : (settingsOf n path).path = path := by
  unfold settingsOf
  split
  · next hmemory => exact hmemory.2.symm
  · rfl

/-- A path behind pairs of slashes is opened as that path. The path may be empty behind a pair, since it is
the whole text that must not be empty. -/
theorem ofUrl_databaseUrl {n : Nat} {path : String} (hpath : ¬ slashPairs 1 <+: path.toList)
    (hne : n = 0 → path ≠ "") :
    ofUrl (databaseUrl n path) = .ok (.sqlite (settingsOf n path)) := by
  have htext : String.ofList (slashPairs n) ++ path ≠ "" := by
    cases n with
    | zero => simpa [slashPairs] using hne rfl
    | succ n => simp [slashPairs, ← String.toList_inj]
  -- the path of memory is cut behind no pair, and a text is cut in one way
  have hmemory : String.ofList (slashPairs n) ++ path = Settings.memoryPath ↔
      n = 0 ∧ path = Settings.memoryPath := by
    constructor
    · intro h
      exact databaseUrl_inj hpath memoryPath_bare (m := 0)
        (by rw [databaseUrl, h, databaseUrl, slashPairs, String.ofList_nil, String.empty_append])
    · rintro ⟨rfl, rfl⟩
      rfl
  rw [databaseUrl, ofUrl_sqlite_append htext, String.toList_append, String.toList_ofList,
    withoutSlashPairs_append n hpath, String.ofList_toList, settingsOf]
  simp only [hmemory]

/-- What is neither `memory` nor the location of a database is refused, and quoted. Behind `sqlite:` there
has to be something. -/
theorem ofUrl_of_other {url : String} (hmemory : url ≠ "memory")
    (hsqlite : ∀ text, text ≠ "" → url ≠ "sqlite:" ++ text) :
    ofUrl url = .error (.invalidLocation ("Unsupported database URL: " ++ url)) := by
  rw [ofUrl, if_neg hmemory]
  cases hafter : Text.after? "sqlite:".toList url.toList with
  | none => rfl
  | some cs =>
    cases cs with
    | nil => rfl
    | cons c cs =>
      rw [Text.after?_eq_some_iff] at hafter
      have hurl : url = "sqlite:" ++ String.ofList (c :: cs) := by
        rw [← String.toList_inj, String.toList_append, String.toList_ofList (l := c :: cs), hafter]
      exact absurd hurl (hsqlite _ (by simp [← String.toList_inj]))

/-- The three answers: the store in memory, a database by its cut, and otherwise the one error. They exclude
each other, so each of them is an iff. -/
theorem ofUrl_cases (url : String) :
    (url = "memory" ∧ ofUrl url = .ok .memory) ∨
    (∃ n path, ¬ slashPairs 1 <+: path.toList ∧ (n = 0 → path ≠ "") ∧ url = databaseUrl n path ∧
      ofUrl url = .ok (.sqlite (settingsOf n path))) ∨
    (url ≠ "memory" ∧ (∀ text, text ≠ "" → url ≠ "sqlite:" ++ text) ∧
      ofUrl url = .error (.invalidLocation ("Unsupported database URL: " ++ url))) := by
  by_cases hmemory : url = "memory"
  · exact .inl ⟨hmemory, by rw [ofUrl, if_pos hmemory]⟩
  · by_cases hsqlite : ∃ text, text ≠ "" ∧ url = "sqlite:" ++ text
    · obtain ⟨text, htext, rfl⟩ := hsqlite
      obtain ⟨n, path, hpath, rfl⟩ := exists_path_behind_pairs text
      have hne : n = 0 → path ≠ "" := by
        rintro rfl rfl
        exact htext rfl
      exact .inr (.inl ⟨n, path, hpath, hne, rfl, ofUrl_databaseUrl hpath hne⟩)
    · have hother : ∀ text, text ≠ "" → url ≠ "sqlite:" ++ text :=
        fun text htext hurl => hsqlite ⟨text, htext, hurl⟩
      exact .inr (.inr ⟨hmemory, hother, ofUrl_of_other hmemory hother⟩)

/-! ### Databases in memory -/

/-- The settings of a database: those of memory for its bare path, and otherwise those of a file, with the
path of memory behind a pair or with another path. -/
theorem settings_cases {url : String} {s : Settings} (h : ofUrl url = .ok (.sqlite s)) :
    s = .inMemory ∨
    (∃ n, url = databaseUrl (n + 1) Settings.memoryPath ∧ s = { path := Settings.memoryPath }) ∨
    (s.isInMemory = false ∧ s = { path := s.path }) := by
  rcases ofUrl_cases url with ⟨-, hanswer⟩ | ⟨n, path, -, -, rfl, hanswer⟩ | ⟨-, -, hanswer⟩
  · rw [hanswer] at h
    cases h
  · rw [hanswer] at h
    obtain rfl := Location.sqlite.inj (Except.ok.inj h)
    -- only the number of pairs before the path of memory tells its settings apart
    by_cases hpath : path = Settings.memoryPath
    · subst hpath
      cases n with
      | zero => exact .inl rfl
      | succ n => exact .inr (.inl ⟨n, rfl, rfl⟩)
    · have hfile : settingsOf n path = { path := path } := if_neg fun hbare => hpath hbare.2
      rw [hfile]
      exact .inr (.inr ⟨decide_eq_false hpath, rfl⟩)
  · rw [hanswer] at h
    cases h

/-- **Whose settings are those of memory.** A database that was named by the path of memory behind a pair of
slashes, or behind more of them, has the settings of a file, with their pool of connections and their log.
Every other one that is in memory has the settings of memory in every field, and every one that is not in
memory has those of a file. -/
theorem memory_settings_need_bare_path {url : String} {s : Settings}
    (h : ofUrl url = .ok (.sqlite s)) :
    ((s.isInMemory = true → s = .inMemory) ↔ ∀ n, url ≠ databaseUrl (n + 1) Settings.memoryPath) ∧
    (∀ n, url = databaseUrl (n + 1) Settings.memoryPath → s = { path := Settings.memoryPath }) ∧
    (s.isInMemory = false → s = { path := s.path }) := by
  have hbehind (n : Nat) (hurl : url = databaseUrl (n + 1) Settings.memoryPath) :
      s = { path := Settings.memoryPath } := by
    rw [hurl, ofUrl_databaseUrl memoryPath_bare (by omega)] at h
    exact (Location.sqlite.inj (Except.ok.inj h)).symm
  rcases settings_cases h with rfl | ⟨n, hurl, rfl⟩ | ⟨hfile, hs⟩
  · have hbare : ∀ n, url ≠ databaseUrl (n + 1) Settings.memoryPath :=
      fun n hurl => absurd (hbehind n hurl) (by decide)
    exact ⟨⟨fun _ => hbare, fun _ _ => rfl⟩, hbehind, fun hfile => absurd hfile (by decide)⟩
  · exact ⟨⟨fun hmeets => absurd (hmeets (by decide)) (by decide),
      fun hbare => absurd hurl (hbare n)⟩, hbehind, fun _ => rfl⟩
  · have hbare (n : Nat) : url ≠ databaseUrl (n + 1) Settings.memoryPath := by
      intro hurl
      -- such a database would be in memory
      rw [hbehind n hurl] at hfile
      exact absurd hfile (by decide)
    have hnever : s.isInMemory ≠ true := by rw [hfile]; decide
    exact ⟨⟨fun _ => hbare, fun _ hmemory => absurd hmemory hnever⟩, hbehind, fun _ => hs⟩

/-- The path of memory by itself, the same behind one pair of slashes, and the path of a file. -/
theorem memory_settings_need_bare_path_threeUrls :
    ofUrl "sqlite::memory:" = .ok (.sqlite .inMemory) ∧
      (∀ n, "sqlite::memory:" ≠ databaseUrl (n + 1) ":memory:") ∧
      (∃ s, ofUrl "sqlite://:memory:" = .ok (.sqlite s) ∧ s = { path := ":memory:" }) ∧
      ∃ s, ofUrl "sqlite://tokens.db" = .ok (.sqlite s) ∧ s.isInMemory = false ∧
        s = { path := s.path } := by
  have hbare : ofUrl "sqlite::memory:" = .ok (.sqlite .inMemory) := rfl
  have hbehind : ofUrl "sqlite://:memory:" = .ok (.sqlite { path := ":memory:" }) := rfl
  have hfile : ofUrl "sqlite://tokens.db" = .ok (.sqlite { path := "tokens.db" }) := rfl
  exact ⟨hbare, (memory_settings_need_bare_path hbare).1.1 fun _ => rfl,
    ⟨_, hbehind, (memory_settings_need_bare_path hbehind).2.1 0 rfl⟩,
    _, hfile, by decide, (memory_settings_need_bare_path hfile).2.2 (by decide)⟩

/-- Behind a pair of slashes the path of memory is opened with many connections and a log. -/
theorem memory_behind_pair_has_file_settings :
    ∃ s, ofUrl "sqlite://:memory:" = .ok (.sqlite s) ∧ s.isInMemory = true ∧ s ≠ .inMemory ∧
      s.maxConnections = 10 ∧ s.writeAheadLog = true :=
  ⟨{ path := ":memory:" }, rfl, by decide, by decide, rfl, rfl⟩

/-! ### Paths -/

/-- A text without one pair of slashes, if it begins with one. -/
def withoutOnePair (cs : List Char) : List Char := (Text.after? (slashPairs 1) cs).getD cs

theorem withoutOnePair_append (n : Nat) {path : List Char} (hpath : ¬ slashPairs 1 <+: path) :
    withoutOnePair (slashPairs n ++ path) = slashPairs (n - 1) ++ path := by
  cases n with
  | zero =>
    show (Text.after? (slashPairs 1) path).getD path = path
    rw [Text.after?_eq_none_iff.2 hpath, Option.getD_none]
  | succ n =>
    have hafter : Text.after? (slashPairs 1) (slashPairs (n + 1) ++ path) =
        some (slashPairs n ++ path) := Text.after?_eq_some_iff.2 rfl
    rw [withoutOnePair, hafter, Option.getD_some, Nat.add_sub_cancel]

/-- An answer that names one location which is not empty: a text names the store in memory, or a database by
what stands behind `sqlite:` and at most one pair of slashes, or it names nothing, is refused and quoted. -/
inductive NamesOne (url : String) : Except StorageError Location → Prop
  | memory (hurl : url = "memory") : NamesOne url (.ok .memory)
  | database {text : String} {s : Settings} (hurl : url = "sqlite:" ++ text)
      (hpath : s.path.toList = withoutOnePair text.toList) (hne : s.path ≠ "") :
      NamesOne url (.ok (.sqlite s))
  | refused (hmemory : url ≠ "memory")
      (hempty : ∀ text, url = "sqlite:" ++ text → withoutOnePair text.toList = []) :
      NamesOne url (.error (.invalidLocation ("Unsupported database URL: " ++ url)))

/-- A path behind pairs of slashes is what the text names if there is a path, and at most one pair. One pair
belongs to the spelling. Any further one would be part of an absolute path. -/
theorem namesOne_databaseUrl_iff {n : Nat} {s : Settings} (hpath : ¬ slashPairs 1 <+: s.path.toList) :
    NamesOne (databaseUrl n s.path) (.ok (.sqlite s)) ↔ n ≤ 1 ∧ s.path ≠ "" := by
  have hone : withoutOnePair (String.ofList (slashPairs n) ++ s.path).toList =
      slashPairs (n - 1) ++ s.path.toList := by
    rw [String.toList_append, String.toList_ofList, withoutOnePair_append n hpath]
  constructor
  · intro h
    cases h with
    | database hurl hsame hne =>
      obtain rfl := (String.append_right_inj _).1 hurl
      -- nothing is left of the other pairs
      rw [hone, List.self_eq_append_left, ← List.length_eq_zero_iff, length_slashPairs] at hsame
      exact ⟨by omega, hne⟩
  · rintro ⟨hn, hne⟩
    refine .database rfl ?_ hne
    rw [hone, Nat.sub_eq_zero_of_le hn, slashPairs, List.nil_append]

theorem databaseUrl_ne_two_iff {n : Nat} {path : String} (hpath : ¬ slashPairs 1 <+: path.toList) :
    (∀ rest, databaseUrl n path ≠ databaseUrl 2 rest) ↔ n ≤ 1 := by
  constructor
  · intro h
    refine Nat.le_of_not_lt fun hn => ?_
    obtain ⟨m, rfl⟩ := Nat.exists_eq_add_of_le (Nat.succ_le_of_lt hn)
    exact h _ (databaseUrl_add 2 m path)
  · intro hn rest hurl
    -- what follows two pairs may begin with more of them
    obtain ⟨m, other, hother, rfl⟩ := exists_path_behind_pairs rest
    rw [← databaseUrl_add] at hurl
    have hpairs := (databaseUrl_inj hpath hother hurl).1
    omega

/-- **What a location names.** A text names one location which is not empty, or is refused and quoted, unless
it is a database behind nothing but one pair of slashes, or behind two pairs and whatever follows them. For
all the pairs are dropped: the path is what follows them, which is empty where nothing does, and relative
where an absolute path stands behind a pair. -/
theorem paths_lose_all_pairs (url : String) :
    (NamesOne url (ofUrl url) ↔ url ≠ databaseUrl 1 "" ∧ ∀ rest, url ≠ databaseUrl 2 rest) ∧
    ∀ (n : Nat) (path : String), ¬ slashPairs 1 <+: path.toList → (n = 0 → path ≠ "") →
      url = databaseUrl n path → ∃ s, ofUrl url = .ok (.sqlite s) ∧ s.path = path := by
  constructor
  -- the three answers, of which only a database may name something else than its location says
  · rcases ofUrl_cases url with
      ⟨rfl, hanswer⟩ | ⟨n, path, hpath, hne, rfl, hanswer⟩ | ⟨hmemory, hsqlite, hanswer⟩
    · rw [hanswer]
      exact iff_of_true (.memory rfl)
        ⟨(sqlite_append_ne_memory _).symm, fun rest => (sqlite_append_ne_memory _).symm⟩
    · have hone := namesOne_databaseUrl_iff (n := n) (s := settingsOf n path) (by rwa [settingsOf_path])
      rw [settingsOf_path] at hone
      rw [hanswer, hone, databaseUrl_ne_two_iff hpath, and_comm]
      refine and_congr_left fun hn => not_congr ⟨?_, fun h => (databaseUrl_inj hpath (by decide) h).2⟩
      rintro rfl
      -- without a path there is a pair
      obtain rfl : n = 1 := by
        have := mt hne (by decide)
        omega
      rfl
    · rw [hanswer]
      have hpairs (n : Nat) (rest : String) : url ≠ databaseUrl (n + 1) rest :=
        hsqlite _ (by simp [slashPairs, ← String.toList_inj])
      refine iff_of_true (.refused hmemory fun text hurl => ?_) ⟨hpairs 0 "", hpairs 1⟩
      -- only the empty text is refused behind `sqlite:`
      obtain rfl : text = "" := Decidable.byContradiction fun htext => hsqlite text htext hurl
      rfl
  · rintro n path hpath hne rfl
    exact ⟨_, ofUrl_databaseUrl hpath hne, settingsOf_path n path⟩

/-- An absolute path behind one pair of slashes stays absolute, and another scheme is refused and quoted. -/
theorem paths_lose_all_pairs_twoUrls :
    (∃ s, ofUrl "sqlite:///var/lib/tokens.db" = .ok (.sqlite s) ∧ s.path = "/var/lib/tokens.db") ∧
      NamesOne "postgres://localhost/tokens"
        (.error (.invalidLocation "Unsupported database URL: postgres://localhost/tokens")) := by
  obtain ⟨-, hnamed⟩ := paths_lose_all_pairs "sqlite:///var/lib/tokens.db"
  obtain ⟨hone, -⟩ := paths_lose_all_pairs "postgres://localhost/tokens"
  have hother (n : Nat) (rest : String) : "postgres://localhost/tokens" ≠ databaseUrl n rest := by
    rw [Ne, ← String.toList_inj, databaseUrl, String.toList_append]
    exact fun hurl => absurd (List.cons.inj hurl).1 (by decide)
  exact ⟨hnamed 1 "/var/lib/tokens.db" (by decide) (by decide) rfl, hone.2 ⟨hother 1 "", hother 2⟩⟩

/-- A database behind nothing but a pair of slashes has the empty path, and an absolute path behind a pair is
taken to be relative. -/
theorem pairs_change_paths :
    (∃ s, ofUrl "sqlite://" = .ok (.sqlite s) ∧ s.path = "" ∧
        ¬ NamesOne "sqlite://" (.ok (.sqlite s))) ∧
      ∃ s, ofUrl "sqlite:////dev/null/x.db" = .ok (.sqlite s) ∧ s.path = "dev/null/x.db" ∧
        ¬ NamesOne "sqlite:////dev/null/x.db" (.ok (.sqlite s)) := by
  let bare : Settings := { path := "" }
  let relative : Settings := { path := "dev/null/x.db" }
  have hbare : ¬ slashPairs 1 <+: bare.path.toList := by decide
  have hrelative : ¬ slashPairs 1 <+: relative.path.toList := by decide
  refine ⟨⟨bare, rfl, rfl, fun h => ?_⟩, relative, rfl, rfl, fun h => ?_⟩
  · exact ((namesOne_databaseUrl_iff (n := 1) hbare).1 h).2 rfl
  · exact absurd ((namesOne_databaseUrl_iff (n := 2) hrelative).1 h).1 (by decide)

end AccessTokens.Storage.Location
