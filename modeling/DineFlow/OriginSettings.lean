import DineFlow.OrderService

namespace DineFlow
set_option autoImplicit true

/-- The characters that `trim` takes away at both ends. -/
def jsSpace (c : Char) : Bool :=
  c ∈ ['\t', '\n', '\x0b', '\x0c', '\r', ' ', '\u00a0', '\u1680', '\u2028', '\u2029', '\u202f',
    '\u205f', '\u3000', '\ufeff'] || ('\u2000' ≤ c && c ≤ '\u200a')

def trim (s : List Char) : List Char := (s.dropWhile jsSpace).rdropWhile jsSpace

/-- The two variables of the environment that name the front ends. -/
structure OriginEnv where
  corsOrigins : Option String
  frontendUrl : Option String
  deriving DecidableEq, Repr

def OriginEnv.raw (env : OriginEnv) : Option String :=
  (given env.corsOrigins).or (given env.frontendUrl)

/-- The entries between the commas, trimmed; without a value there are none. -/
def OriginEnv.entries (env : OriginEnv) : List (List Char) :=
  match env.raw with
  | none => []
  | some raw => (raw.toList.splitOn ',').map trim

/-- One slash at the end is taken away. -/
def stripSlash (s : List Char) : List Char := if s.getLast? = some '/' then s.dropLast else s

def withProtocol (s : List Char) : List Char :=
  if "http".toList <+: s then s else "https://".toList ++ s

/-- What `parseCorsOrigins` derives from the value. -/
def OriginEnv.corsList (env : OriginEnv) : List (List Char) :=
  ((env.entries.map stripSlash).filter fun s => s ≠ []).map withProtocol

def localOrigins : List (List Char) :=
  ["http://localhost".toList, "http://localhost:3000".toList, "http://127.0.0.1:3000".toList]

def parseCorsOrigins (env : OriginEnv) : List (List Char) :=
  match env.raw with
  | none => localOrigins
  | some _ => (env.corsList ++ localOrigins).eraseDups

/-- What the gateway is given: a list, or a single text. -/
inductive OriginSetting where
  | one (s : List Char)
  | many (list : List (List Char))
  deriving DecidableEq, Repr

def defaultSocketOrigins : List (List Char) :=
  ["http://localhost".toList, "http://localhost:80".toList, "http://localhost:3000".toList,
    "http://127.0.0.1".toList, "http://127.0.0.1:80".toList]

def OriginEnv.socketList (env : OriginEnv) : List (List Char) :=
  env.entries.filter fun s => s ≠ []

def parseSocketOrigins (env : OriginEnv) : OriginSetting :=
  match env.raw, env.socketList with
  | none, _ => .many defaultSocketOrigins
  | some _, [] => .many defaultSocketOrigins
  | some _, [s] => .one s
  | some _, list => .many list

/-- How the `cors` middleware reads the setting: a text is one origin, or every one if it is a
star; in a list a star is a text like any other. -/
def OriginSetting.Allows : OriginSetting → List Char → Prop
  | .one s, o => s = ['*'] ∨ s = o
  | .many list, o => o ∈ list

instance OriginSetting.Allows.decide (s : OriginSetting) (o : List Char) : Decidable (s.Allows o) :=
  match s with
  | .one s => inferInstanceAs (Decidable (s = ['*'] ∨ s = o))
  | .many list => inferInstanceAs (Decidable (o ∈ list))

/-- The form of an origin: a scheme, and no slash at the end. -/
def IsOrigin (o : List Char) : Prop :=
  ("http://".toList <+: o ∨ "https://".toList <+: o) ∧ o.getLast? ≠ some '/'

instance IsOrigin.decide (o : List Char) : Decidable (IsOrigin o) :=
  inferInstanceAs (Decidable (_ ∧ _))

/-- The entry is the origin, but for a slash at its end or a missing `https://`. -/
def Names (s o : List Char) : Prop :=
  s = o ∨ s = o ++ ['/'] ∨
    ¬"http".toList <+: s ∧ ("https://".toList ++ s = o ∨ "https://".toList ++ s = o ++ ['/'])

theorem stripSlash_snoc (t : List Char) : stripSlash (t ++ ['/']) = t := by
  rw [stripSlash, List.getLast?_append, List.dropLast_concat]
  exact if_pos rfl

theorem stripSlash_of_ne (h : s.getLast? ≠ some '/') : stripSlash s = s := if_neg h

theorem slash_cases (s : List Char) : (∃ t, s = t ++ ['/']) ∨ s.getLast? ≠ some '/' := by
  by_cases h : s.getLast? = some '/'
  · exact .inl (List.getLast?_eq_some_iff.1 h)
  · exact .inr h

theorem getLast?_append_ne {p s : List Char} (hs : s ≠ []) : (p ++ s).getLast? = s.getLast? := by
  rw [List.getLast?_append]
  cases hl : s.getLast? with
  | none => exact absurd (List.getLast?_eq_none_iff.1 hl) hs
  | some c => rfl

theorem http_snoc_iff (t : List Char) : "http".toList <+: t ++ ['/'] ↔ "http".toList <+: t := by
  constructor
  · intro h
    rcases List.prefix_concat_iff.1 h with h | h
    · exact absurd (congrArg List.getLast? h) (by simp)
    · exact h
  · exact fun h => h.trans (List.prefix_append _ _)

theorem not_isOrigin_snoc (t : List Char) : ¬IsOrigin (t ++ ['/']) := by
  intro h
  rw [IsOrigin, List.getLast?_concat] at h
  exact h.2 rfl

theorem IsOrigin.http (h : IsOrigin o) : "http".toList <+: o := by
  rcases h.1 with h | h
  · exact List.IsPrefix.trans (by decide) h
  · exact List.IsPrefix.trans (by decide) h

theorem derived_slash_iff (t : List Char) (ho : IsOrigin o) :
    withProtocol t = o ↔ Names (t ++ ['/']) o := by
  rw [withProtocol]
  split
  · rename_i hhttp
    constructor
    · rintro rfl
      exact .inr (.inl rfl)
    · rintro (h | h | ⟨hno, _⟩)
      · rw [← h] at ho
        exact absurd ho (not_isOrigin_snoc t)
      · exact List.append_cancel_right h
      · exact absurd ((http_snoc_iff t).2 hhttp) hno
  · rename_i hhttp
    constructor
    · rintro rfl
      refine .inr (.inr ⟨fun h => hhttp ((http_snoc_iff t).1 h), .inr ?_⟩)
      rw [List.append_assoc]
    · rintro (h | h | ⟨_, h | h⟩)
      · rw [← h] at ho
        exact absurd ho (not_isOrigin_snoc t)
      · rw [List.append_cancel_right h] at hhttp
        exact absurd ho.http hhttp
      · rw [← h, ← List.append_assoc] at ho
        exact absurd ho (not_isOrigin_snoc _)
      · rw [← List.append_assoc] at h
        exact List.append_cancel_right h

theorem derived_plain_iff (hs : s ≠ []) (hlast : s.getLast? ≠ some '/') (ho : IsOrigin o) :
    withProtocol s = o ↔ Names s o := by
  rw [withProtocol]
  split
  · rename_i hhttp
    constructor
    · exact .inl
    · rintro (h | h | ⟨hno, _⟩)
      · exact h
      · rw [h, List.getLast?_concat] at hlast
        exact absurd rfl hlast
      · exact absurd hhttp hno
  · rename_i hhttp
    constructor
    · exact fun h => .inr (.inr ⟨hhttp, .inl h⟩)
    · rintro (h | h | ⟨_, h | h⟩)
      · rw [h] at hhttp
        exact absurd ho.http hhttp
      · rw [h, List.getLast?_concat] at hlast
        exact absurd rfl hlast
      · exact h
      · have hl := congrArg List.getLast? h
        rw [getLast?_append_ne hs, List.getLast?_concat] at hl
        exact absurd hl hlast

theorem derived_iff_names (hs : s ≠ []) (ho : IsOrigin o) :
    withProtocol (stripSlash s) = o ↔ Names s o := by
  rcases slash_cases s with ⟨t, rfl⟩ | hlast
  · rw [stripSlash_snoc]
    exact derived_slash_iff t ho
  · rw [stripSlash_of_ne hlast]
    exact derived_plain_iff hs hlast ho

theorem stripSlash_eq_nil_iff : stripSlash s = [] ↔ s = [] ∨ s = ['/'] := by
  rcases slash_cases s with ⟨t, rfl⟩ | hlast
  · rw [stripSlash_snoc]
    simp
  · rw [stripSlash_of_ne hlast]
    constructor
    · exact .inl
    · rintro (h | rfl)
      · exact h
      · exact absurd rfl hlast

theorem mem_corsList {env : OriginEnv} : o ∈ env.corsList ↔
    ∃ s ∈ env.socketList, s ≠ ['/'] ∧ withProtocol (stripSlash s) = o := by
  simp only [OriginEnv.corsList, OriginEnv.socketList, List.mem_map, List.mem_filter,
    decide_eq_true_eq]
  constructor
  · rintro ⟨_, ⟨⟨s, hs, rfl⟩, hne⟩, ho⟩
    rw [ne_eq, stripSlash_eq_nil_iff, not_or] at hne
    exact ⟨s, ⟨hs, hne.1⟩, hne.2, ho⟩
  · rintro ⟨s, ⟨hs, hne⟩, hslash, ho⟩
    refine ⟨_, ⟨⟨s, hs, rfl⟩, ?_⟩, ho⟩
    rw [ne_eq, stripSlash_eq_nil_iff, not_or]
    exact ⟨hne, hslash⟩

theorem corsList_sub {env : OriginEnv} (h : o ∈ env.corsList) : o ∈ parseCorsOrigins env := by
  rw [parseCorsOrigins]
  split
  · rename_i hraw
    rw [OriginEnv.corsList, OriginEnv.entries, hraw] at h
    cases h
  · exact List.mem_eraseDups.2 (List.mem_append_left _ h)

/-- A configured gateway allows its entries, or all origins if its only entry is a star. -/
theorem allows_iff {env : OriginEnv} (h : env.socketList ≠ []) (o : List Char) :
    (parseSocketOrigins env).Allows o ↔ env.socketList = [['*']] ∨ o ∈ env.socketList := by
  rw [parseSocketOrigins]
  split
  · rename_i hraw
    rw [OriginEnv.socketList, OriginEnv.entries, hraw] at h
    exact absurd rfl h
  · rename_i hnil
    exact absurd hnil h
  · rename_i s _ hone
    rw [hone]
    simp [OriginSetting.Allows, eq_comm]
  · rename_i hone
    constructor
    · exact .inr
    · rintro (hstar | ho)
      · exact (hone _ hstar).elim
      · exact ho

/-- The derived origins are well formed and allowed by the gateway exactly if the value is a star,
or each entry is a slash or names a well-formed origin that is an entry too. -/
theorem origins_agree_iff (env : OriginEnv) :
    (∀ o ∈ parseCorsOrigins env, o ∈ env.corsList →
        IsOrigin o ∧ (parseSocketOrigins env).Allows o) ↔
      env.socketList = [['*']] ∨
        ∀ s ∈ env.socketList, s = ['/'] ∨ ∃ o ∈ env.socketList, IsOrigin o ∧ Names s o := by
  by_cases hstar : env.socketList = [['*']]
  · refine iff_of_true (fun o _ ho => ?_) (.inl hstar)
    obtain ⟨s, hs, -, rfl⟩ := mem_corsList.1 ho
    have hne : env.socketList ≠ [] := List.ne_nil_of_mem hs
    rw [hstar, List.mem_singleton] at hs
    subst hs
    exact ⟨by decide, (allows_iff hne _).2 (.inl hstar)⟩
  · rw [or_iff_right hstar]
    constructor
    · intro h s hs
      by_cases hslash : s = ['/']
      · exact .inl hslash
      · have ho := mem_corsList.2 ⟨s, hs, hslash, rfl⟩
        obtain ⟨horigin, hallows⟩ := h _ (corsList_sub ho) ho
        have hmem := ((allows_iff (List.ne_nil_of_mem hs) _).1 hallows).resolve_left hstar
        have hne : s ≠ [] := by simpa using (List.mem_filter.1 hs).2
        exact .inr ⟨_, hmem, horigin, (derived_iff_names hne horigin).1 rfl⟩
    · intro h o _ ho
      obtain ⟨s, hs, hslash, rfl⟩ := mem_corsList.1 ho
      obtain ⟨o, hmem, horigin, hnames⟩ := (h s hs).resolve_left hslash
      have hne : s ≠ [] := by simpa using (List.mem_filter.1 hs).2
      rw [(derived_iff_names hne horigin).2 hnames]
      exact ⟨horigin, (allows_iff (List.ne_nil_of_mem hs) _).2 (.inr hmem)⟩

/-- A slash at the end of the only entry: the API takes it away, the gateway compares with it. -/
theorem origins_disagree :
    ¬∀ o ∈ parseCorsOrigins ⟨some "https://dineflow.example/", none⟩,
      o ∈ OriginEnv.corsList ⟨some "https://dineflow.example/", none⟩ →
        IsOrigin o ∧
          (parseSocketOrigins ⟨some "https://dineflow.example/", none⟩).Allows o := by
  decide +kernel

end DineFlow
