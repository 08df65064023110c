import Mathlib

namespace DineFlow
set_option autoImplicit true

instance hexBase : NeZero 16 := ⟨by decide⟩

/-- Four hexadecimal digits. -/
structure Quad where
  a : Fin 16
  b : Fin 16
  c : Fin 16
  d : Fin 16
  deriving DecidableEq, Repr

/-- The value of a `uuid` column. -/
structure Uuid where
  q0 : Quad
  q1 : Quad
  q2 : Quad
  q3 : Quad
  q4 : Quad
  q5 : Quad
  q6 : Quad
  q7 : Quad
  deriving DecidableEq, Repr

def hexChar (d : Fin 16) : Char :=
  ['0', '1', '2', '3', '4', '5', '6', '7', '8', '9', 'a', 'b', 'c', 'd', 'e', 'f'].getD d '0'

def hexValue : Char → Option (Fin 16)
  | '0' => some 0 | '1' => some 1 | '2' => some 2 | '3' => some 3
  | '4' => some 4 | '5' => some 5 | '6' => some 6 | '7' => some 7
  | '8' => some 8 | '9' => some 9
  | 'a' | 'A' => some 10 | 'b' | 'B' => some 11 | 'c' | 'C' => some 12
  | 'd' | 'D' => some 13 | 'e' | 'E' => some 14 | 'f' | 'F' => some 15
  | _ => none

@[simp] theorem hexValue_hexChar : ∀ d, hexValue (hexChar d) = some d := by decide

theorem hexChar_ne_hyphen : ∀ d, hexChar d ≠ '-' := by decide

theorem hexChar_ne_brace : ∀ d, hexChar d ≠ '{' := by decide

def Quad.chars (q : Quad) : List Char := [hexChar q.a, hexChar q.b, hexChar q.c, hexChar q.d]

/-- The canonical text of a uuid, as the database driver returns it. -/
def Uuid.chars (u : Uuid) : List Char :=
  u.q0.chars ++ (u.q1.chars ++ '-' :: (u.q2.chars ++ '-' :: (u.q3.chars ++ '-' ::
    (u.q4.chars ++ '-' :: (u.q5.chars ++ (u.q6.chars ++ u.q7.chars))))))

/-- The place of a uuid in the order of the database. -/
def Uuid.value (u : Uuid) : Int :=
  [u.q0, u.q1, u.q2, u.q3, u.q4, u.q5, u.q6, u.q7].foldl (fun n q =>
    n * 65536 + (((q.a * 16 + q.b.val) * 16 + q.c.val) * 16 + q.d.val : Nat)) 0

def Uuid.text (u : Uuid) : String := String.ofList u.chars

def takeQuad : List Char → Option (Quad × List Char)
  | c₁ :: c₂ :: c₃ :: c₄ :: cs =>
    match hexValue c₁, hexValue c₂, hexValue c₃, hexValue c₄ with
    | some a, some b, some c, some d => some (⟨a, b, c, d⟩, cs)
    | _, _, _, _ => none
  | _ => none

/-- A hyphen may follow each group of four digits but the last. -/
def skipHyphen : List Char → List Char
  | '-' :: cs => cs
  | cs => cs

def takeQuads : Nat → List Char → Option (List Quad × List Char)
  | 0, cs => some ([], cs)
  | n + 1, cs =>
    match takeQuad cs with
    | none => none
    | some (q, cs) =>
      match takeQuads n (if n = 0 then cs else skipHyphen cs) with
      | none => none
      | some (qs, cs) => some (q :: qs, cs)

/-- The `uuid` input syntax of the database: either case, optional braces and hyphens. -/
def Uuid.parse (s : String) : Option Uuid :=
  let body := match s.toList with
    | '{' :: cs => (cs, ['}'])
    | cs => (cs, [])
  match takeQuads 8 body.1 with
  | some ([q0, q1, q2, q3, q4, q5, q6, q7], rest) =>
    if rest = body.2 then some ⟨q0, q1, q2, q3, q4, q5, q6, q7⟩ else none
  | _ => none

@[simp] theorem takeQuad_chars (q : Quad) (cs : List Char) :
    takeQuad (q.chars ++ cs) = some (q, cs) := by
  simp only [Quad.chars, List.cons_append, List.nil_append, takeQuad, hexValue_hexChar]

@[simp] theorem skipHyphen_chars (q : Quad) (cs : List Char) :
    skipHyphen (q.chars ++ cs) = q.chars ++ cs := by
  have h := hexChar_ne_hyphen q.a
  unfold skipHyphen
  split
  · next he =>
    simp only [Quad.chars, List.cons_append, List.cons.injEq] at he
    exact (h he.1).elim
  · rfl

@[simp] theorem skipHyphen_hyphen (cs : List Char) : skipHyphen ('-' :: cs) = cs := rfl

theorem takeQuads_succ (n : Nat) (q : Quad) (cs : List Char) :
    takeQuads (n + 1) (q.chars ++ cs) =
      match takeQuads n (if n = 0 then cs else skipHyphen cs) with
      | none => none
      | some (qs, cs) => some (q :: qs, cs) := by
  rw [takeQuads, takeQuad_chars]

theorem takeQuads_chars (u : Uuid) :
    takeQuads 8 u.chars =
      some ([u.q0, u.q1, u.q2, u.q3, u.q4, u.q5, u.q6, u.q7], []) := by
  have hlast : takeQuads 1 u.q7.chars = some ([u.q7], []) := by
    have h := takeQuads_succ 0 u.q7 []
    rw [List.append_nil] at h
    rw [h]
    rfl
  have hnh : skipHyphen u.q7.chars = u.q7.chars := by
    have h := skipHyphen_chars u.q7 []
    rwa [List.append_nil] at h
  rw [Uuid.chars]
  simp only [takeQuads_succ, skipHyphen_chars, skipHyphen_hyphen, hnh, hlast, ↓reduceIte,
    Nat.reduceEqDiff, Nat.succ_ne_self]

@[simp] theorem Uuid.parse_text (u : Uuid) : Uuid.parse u.text = some u := by
  have hb : (match u.chars with
      | '{' :: cs => (cs, ['}'])
      | cs => (cs, ([] : List Char))) = (u.chars, []) := by
    have h := hexChar_ne_brace u.q0.a
    split
    · next he =>
      simp only [Uuid.chars, Quad.chars, List.cons_append, List.cons.injEq] at he
      exact (h he.1).elim
    · rfl
  rw [Uuid.parse, Uuid.text, String.toList_ofList, hb]
  simp only [takeQuads_chars, ↓reduceIte]

theorem Uuid.text_injective : Function.Injective Uuid.text := by
  intro u v h
  have hp := congrArg Uuid.parse h
  simpa only [Uuid.parse_text, Option.some.injEq] using hp

@[simp] theorem Uuid.text_inj {u v : Uuid} : u.text = v.text ↔ u = v :=
  Uuid.text_injective.eq_iff

/-- The characters the `uuid` input syntax knows. -/
def uuidChar (c : Char) : Bool := (hexValue c).isSome || c = '-' || c = '{' || c = '}'

theorem takeQuad_uuidChar (h : takeQuad cs = some (q, cs')) (hcs : ∀ c ∈ cs', uuidChar c) :
    ∀ c ∈ cs, uuidChar c := by
  unfold takeQuad at h
  split at h
  · split at h
    · cases h
      simp_all [uuidChar]
    · cases h
  · cases h

theorem skipHyphen_uuidChar (h : ∀ c ∈ skipHyphen cs, uuidChar c) : ∀ c ∈ cs, uuidChar c := by
  unfold skipHyphen at h
  split at h
  · exact List.forall_mem_cons.2 ⟨rfl, h⟩
  · exact h

theorem takeQuads_uuidChar (h : takeQuads n cs = some (qs, cs')) (hcs : ∀ c ∈ cs', uuidChar c) :
    ∀ c ∈ cs, uuidChar c := by
  induction n generalizing cs qs with
  | zero =>
    cases h
    exact hcs
  | succ n ih =>
    rw [takeQuads] at h
    split at h
    · cases h
    · rename_i q cs₁ hq
      split at h
      · cases h
      · rename_i qs₁ cs₂ hqs
        cases h
        refine takeQuad_uuidChar hq ?_
        split at hqs
        · exact ih hqs
        · exact skipHyphen_uuidChar (ih hqs)

theorem Uuid.parse_uuidChar (h : Uuid.parse s = some u) : ∀ c ∈ s.toList, uuidChar c := by
  unfold Uuid.parse at h
  generalize hb : (match s.toList with
    | '{' :: cs => (cs, ['}'])
    | cs => (cs, ([] : List Char))) = body at h
  have hbody : (∀ c ∈ body.2, uuidChar c) ∧
      ((∀ c ∈ body.1, uuidChar c) → ∀ c ∈ s.toList, uuidChar c) := by
    subst hb
    split
    · rename_i cs hs
      rw [hs]
      exact ⟨List.forall_mem_singleton.2 rfl, fun hcs => List.forall_mem_cons.2 ⟨rfl, hcs⟩⟩
    · exact ⟨fun c hc => absurd hc List.not_mem_nil, fun hcs => hcs⟩
  dsimp only at h
  split at h
  · rename_i hq
    split at h
    · rename_i hrest
      exact hbody.2 (takeQuads_uuidChar hq (hrest ▸ hbody.1))
    · cases h
  · cases h

theorem Uuid.length_chars (u : Uuid) : u.chars.length = 36 := rfl

end DineFlow
