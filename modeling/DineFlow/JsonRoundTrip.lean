import DineFlow.Json

namespace Json
open Utf16
set_option autoImplicit true

theorem hexValue_digitChar (h : n < 16) : hexValue (Nat.digitChar n) = some n := by
  have hall : ∀ n : Fin 16, hexValue (Nat.digitChar n.val) = some n.val := by decide
  exact hall ⟨n, h⟩

theorem hexUnit_hexDigits (h : n < 65536) :
    hexUnit (Nat.digitChar (n / 4096 % 16)) (Nat.digitChar (n / 256 % 16))
      (Nat.digitChar (n / 16 % 16)) (Nat.digitChar (n % 16)) = some (UInt16.ofNat n) := by
  have hvalue : ((n / 4096 % 16 * 16 + n / 256 % 16) * 16 + n / 16 % 16) * 16 + n % 16 = n := by
    omega
  rw [hexUnit, hexValue_digitChar (by omega), hexValue_digitChar (by omega),
    hexValue_digitChar (by omega), hexValue_digitChar (by omega)]
  dsimp only
  rw [hvalue]

theorem parseString_hex (h : n < 65536) (cs : List Char) :
    parseString ('\\' :: 'u' :: hexDigits n ++ cs) =
      (parseString cs).map fun r => (UInt16.ofNat n :: r.1, r.2) := by
  rw [hexDigits]
  simp only [List.cons_append, List.nil_append, parseString]
  rw [hexUnit_hexDigits h]

theorem parseString_letter (hu : e ≠ 'u') (h : unescape e = some c) (cs : List Char) :
    parseString ('\\' :: e :: cs) = (parseString cs).map fun r => (units c ++ r.1, r.2) := by
  rw [parseString, h]
  intro _ _ _ _ _ he
  exact absurd he hu

theorem parseString_plain (hquote : c ≠ '"') (hescape : c ≠ '\\') (hcontrol : ¬c.toNat < 32)
    (cs : List Char) :
    parseString (c :: cs) = (parseString cs).map fun r => (units c ++ r.1, r.2) := by
  rw [parseString]
  · rw [if_neg]
    rintro (h | h)
    · exact hcontrol h
    · exact hescape h
  · exact hquote
  · intro _ _ _ _ _ h
    exact absurd h hescape
  · intro _ _ h
    exact absurd h hescape

theorem shortEscapes_read : ∀ e ∈ shortEscapes, e.2 ≠ 'u' ∧ unescape e.2 = some e.1 := by decide

theorem units_of_lt (h : c.toNat < 65536) : units c = [UInt16.ofNat c.toNat] := if_pos h

theorem parseString_escape (p : Point) (cs : List Char) :
    parseString (escape p ++ cs) = (parseString cs).map fun r => (p.units ++ r.1, r.2) := by
  cases p with
  | lone u =>
    rw [escape, parseString_hex u.toNat_lt, UInt16.ofNat_toNat]
    rfl
  | char c =>
    rw [escape]
    cases hfind : shortEscapes.find? fun e => e.1 = c with
    | some e =>
      obtain ⟨hu, hread⟩ := shortEscapes_read e (List.mem_of_find?_eq_some hfind)
      have hmatch := List.find?_some hfind
      have hc : e.1 = c := of_decide_eq_true hmatch
      exact parseString_letter hu (hc ▸ hread) cs
    | none =>
      have hnone : ∀ e ∈ shortEscapes, c ≠ e.1 := fun e he hc =>
        List.find?_eq_none.1 hfind e he (decide_eq_true hc.symm)
      dsimp only
      split
      · rename_i h
        rw [parseString_hex (by omega), Point.units, units_of_lt (by omega)]
        rfl
      · rename_i hcontrol
        exact parseString_plain (hnone ('"', '"') (by decide)) (hnone ('\\', '\\') (by decide))
          hcontrol cs

theorem parseString_escapes (ps : List Point) (rest : List Char) :
    parseString (ps.flatMap escape ++ '"' :: rest) = some (ps.flatMap Point.units, rest) := by
  induction ps with
  | nil => rfl
  | cons p ps ih =>
    rw [List.flatMap_cons, List.append_assoc, parseString_escape, ih]
    rfl

theorem parseString_quote (s : List UInt16) (rest : List Char) :
    parseString ((points s).flatMap escape ++ '"' :: rest) = some (s, rest) := by
  rw [parseString_escapes, units_points]

/-- What can come after a value inside a document. -/
def Stops (rest : List Char) : Prop := ∀ c ∈ rest.head?, c = ',' ∨ c = ']' ∨ c = '}'

/-- A text begins with a character that is neither blank nor closes anything. -/
def Opens (t : List Char) : Prop := ∃ c cs, t = c :: cs ∧ isSpace c = false ∧ c ≠ ']' ∧ c ≠ '}'

/-- A number that is read back from what it is printed as. -/
structure NumberFormat.Exact (fmt : NumberFormat ν) (x : ν) : Prop where
  opens : ∃ c cs, fmt.print x = c :: cs ∧ (c = '-' ∨ c.isDigit = true)
  lexed : ∀ rest, Stops rest → lexNumber (fmt.print x ++ rest) = some (fmt.print x, rest)
  read : fmt.read (fmt.print x) = x

/-- Values whose numbers are exact and whose members are in order, each key once. -/
inductive Canonical (fmt : NumberFormat ν) : Value ν → Prop
  | null : Canonical fmt .null
  | bool (b : Bool) : Canonical fmt (.bool b)
  | num (h : fmt.Exact x) : Canonical fmt (.num x)
  | str (s : List UInt16) : Canonical fmt (.str s)
  | arr (h : ∀ v ∈ vs, Canonical fmt v) : Canonical fmt (.arr vs)
  | obj (h : ∀ m ∈ ms, Canonical fmt m.2) (hms : ofMembers ms = ms) : Canonical fmt (.obj ms)

theorem skip_cons (h : isSpace c = false) (cs : List Char) : skip (c :: cs) = c :: cs := by
  rw [skip, List.dropWhile_cons_of_neg (by rw [h]; exact Bool.false_ne_true)]

theorem elementTexts_eq (print : ν → List Char) (vs : List (Value ν)) :
    elementTexts print vs = vs.map (stringify print) := by
  induction vs with
  | nil => rfl
  | cons v vs ih => rw [elementTexts, ih, List.map_cons]

theorem memberTexts_eq (print : ν → List Char) (ms : List (List UInt16 × Value ν)) :
    memberTexts print ms = ms.map (memberText print) := by
  induction ms with
  | nil => rfl
  | cons m ms ih => rw [memberTexts, ih, List.map_cons]

theorem length_le_commas (h : t ∈ ts) : t.length ≤ (commas ts).length := by
  induction ts using commas.induct with
  | case1 => cases h
  | case2 t' =>
    rw [List.mem_singleton.1 h]
    exact Nat.le_refl _
  | case3 t' ts hts ih =>
    have hlength : (commas (t' :: ts)).length = t'.length + (1 + (commas ts).length) := by
      rw [commas, List.length_append, List.length_cons, Nat.add_comm 1]
      exact hts
    rcases List.mem_cons.1 h with rfl | h
    · omega
    · have hle := ih h
      omega

theorem length_texts_le (h : ∀ t ∈ ts, t ≠ []) : ts.length ≤ (commas ts).length := by
  induction ts using commas.induct with
  | case1 => exact Nat.le_refl 0
  | case2 t => exact List.length_pos_iff.2 (h t List.mem_cons_self)
  | case3 t ts hts ih =>
    have hle := ih fun t' ht => h t' (List.mem_cons_of_mem _ ht)
    rw [commas, List.length_append, List.length_cons, List.length_cons]
    · omega
    · exact hts

section Lists

variable {item : List Char → Option (α × List Char)} {text : α → List Char} {close : Char}
variable (hclose : close = ']' ∨ close = '}')
include hclose

theorem close_not_space : isSpace close = false := by
  rcases hclose with rfl | rfl <;> rfl

theorem stops_close (rest : List Char) : Stops (close :: rest) := by
  intro c hc
  cases hc
  exact .inr hclose

theorem items_commas {as : List α} (hne : as ≠ [])
    (h : ∀ a ∈ as, ∀ rest, Stops rest → item (text a ++ rest) = some (a, rest))
    (hn : as.length ≤ n) (rest : List Char) :
    items item close n (commas (as.map text) ++ close :: rest) = some (as, rest) := by
  induction as generalizing n with
  | nil => exact absurd rfl hne
  | cons a as ih =>
    obtain ⟨n, rfl⟩ : ∃ m, n = m + 1 := ⟨n - 1, by simp only [List.length_cons] at hn; omega⟩
    have hitem := h a List.mem_cons_self
    have hcomma : close ≠ ',' := by rcases hclose with rfl | rfl <;> decide
    cases as with
    | nil =>
      change items item close (n + 1) (text a ++ close :: rest) = _
      rw [items, hitem _ (stops_close hclose rest)]
      dsimp only
      rw [skip_cons (close_not_space hclose)]
      dsimp only
      rw [if_neg hcomma, if_pos rfl]
    | cons b as =>
      have hrest := ih (List.cons_ne_nil b as) (fun x hx => h x (List.mem_cons_of_mem _ hx))
        (Nat.le_of_succ_le_succ hn)
      have hstops (cs : List Char) : Stops (',' :: cs) := fun c hc => by
        cases hc
        exact .inl rfl
      change items item close (n + 1)
        ((text a ++ ',' :: commas ((b :: as).map text)) ++ close :: rest) = _
      rw [List.append_assoc, List.cons_append, items, hitem _ (hstops _)]
      dsimp only
      rw [skip_cons rfl]
      dsimp only
      rw [if_pos rfl, hrest]
      rfl

theorem bracketed_commas {as : List α} (hopens : ∀ a ∈ as, Opens (text a))
    (h : ∀ a ∈ as, ∀ rest, Stops rest → item (text a ++ rest) = some (a, rest))
    (hn : as.length ≤ n) (rest : List Char) :
    bracketed item close n (commas (as.map text) ++ close :: rest) = some (as, rest) := by
  cases as with
  | nil =>
    change bracketed item close n (close :: rest) = _
    rw [bracketed, skip_cons (close_not_space hclose)]
    dsimp only
    rw [if_pos rfl]
  | cons a as =>
    have hitems := items_commas hclose (List.cons_ne_nil a as) h hn rest
    obtain ⟨c, cs, hc, hspace, hbracket, hbrace⟩ := hopens a List.mem_cons_self
    have hhead : ∃ cs, commas ((a :: as).map text) ++ close :: rest = c :: cs := by
      cases as with
      | nil => exact ⟨_, congrArg (· ++ close :: rest) hc⟩
      | cons b as => exact ⟨_, congrArg (fun t => (t ++ _) ++ close :: rest) hc⟩
    obtain ⟨cs, hcs⟩ := hhead
    have hne : c ≠ close := by rcases hclose with rfl | rfl <;> assumption
    rw [hcs] at hitems ⊢
    rw [bracketed, skip_cons hspace]
    dsimp only
    rw [if_neg hne, hitems]

end Lists

section Values

variable {fmt : NumberFormat ν}

theorem opens_digit {cs : List Char} (h : c = '-' ∨ c.isDigit = true) : Opens (c :: cs) := by
  refine ⟨c, cs, rfl, ?_, ?_, ?_⟩
  · rcases h with rfl | h
    · rfl
    · rw [isSpace]
      simp only [Bool.or_eq_false_iff, decide_eq_false_iff_not]
      refine ⟨⟨⟨?_, ?_⟩, ?_⟩, ?_⟩ <;>
      · rintro rfl
        exact absurd h (by decide)
  · rintro rfl
    exact absurd h (by decide)
  · rintro rfl
    exact absurd h (by decide)

theorem Canonical.opens (h : Canonical fmt v) : Opens (stringify fmt.print v) := by
  cases h with
  | null => exact ⟨_, _, rfl, rfl, by decide, by decide⟩
  | bool b => cases b <;> exact ⟨_, _, rfl, rfl, by decide, by decide⟩
  | num hx =>
    obtain ⟨c, cs, hc, hdigit⟩ := hx.opens
    rw [stringify, hc]
    exact opens_digit hdigit
  | str s => exact ⟨_, _, rfl, rfl, by decide, by decide⟩
  | arr => exact ⟨_, _, rfl, rfl, by decide, by decide⟩
  | obj => exact ⟨_, _, rfl, rfl, by decide, by decide⟩

theorem opens_memberText (m : List UInt16 × Value ν) : Opens (memberText fmt.print m) := by
  obtain ⟨k, v⟩ := m
  exact ⟨_, _, rfl, rfl, by decide, by decide⟩

theorem Opens.ne_nil (h : Opens t) : t ≠ [] := by
  obtain ⟨c, cs, rfl, _⟩ := h
  exact List.cons_ne_nil c cs

theorem parseMember_text {value : List Char → Option (Value ν × List Char)}
    {m : List UInt16 × Value ν}
    (h : value (stringify fmt.print m.2 ++ rest) = some (m.2, rest)) :
    parseMember value (memberText fmt.print m ++ rest) = some (m, rest) := by
  obtain ⟨k, v⟩ := m
  have htext : memberText fmt.print (k, v) ++ rest =
      '"' :: ((points k).flatMap escape ++ '"' :: ':' :: (stringify fmt.print v ++ rest)) := by
    simp only [memberText, quote, List.cons_append, List.append_assoc, List.nil_append]
  rw [htext, parseMember, skip_cons rfl]
  dsimp only
  rw [if_pos rfl, parseString_quote]
  dsimp only
  rw [skip_cons rfl]
  dsimp only
  rw [if_pos rfl, h]
  rfl

theorem parseAtom_number (hc : c = '-' ∨ c.isDigit = true) (cs : List Char) (read : List Char → ν) :
    parseAtom read (c :: cs) = (lexNumber (c :: cs)).map fun r => (.num (read r.1), r.2) := by
  have hne {d : Char} (hd : ¬(d = '-' ∨ d.isDigit = true)) : c ≠ d := by
    rintro rfl
    exact hd hc
  rw [parseAtom]
  · intro _ h
    exact hne (by decide) (List.cons.inj h).1
  · intro _ h
    exact hne (by decide) (List.cons.inj h).1
  · intro _ h
    exact hne (by decide) (List.cons.inj h).1

theorem parseValue_atom (n : Nat) (hspace : isSpace c = false)
    (hc : c ≠ '"' ∧ c ≠ '[' ∧ c ≠ '{') (cs : List Char) (read : List Char → ν) :
    parseValue read (n + 1) (c :: cs) = parseAtom read (c :: cs) := by
  rw [parseValue, skip_cons hspace]
  dsimp only
  rw [if_neg hc.1, if_neg hc.2.1, if_neg hc.2.2]

theorem digit_not_opening (h : c = '-' ∨ c.isDigit = true) : c ≠ '"' ∧ c ≠ '[' ∧ c ≠ '{' := by
  refine ⟨?_, ?_, ?_⟩ <;>
  · rintro rfl
    exact absurd h (by decide)

theorem parseValue_str (n : Nat) (s : List UInt16) (rest : List Char) (read : List Char → ν) :
    parseValue read (n + 1) (quote s ++ rest) = some (.str s, rest) := by
  rw [quote, List.cons_append, List.append_assoc, parseValue, skip_cons rfl]
  dsimp only
  rw [if_pos rfl, List.singleton_append, parseString_quote]
  rfl

theorem length_bracketed {text : α → List Char} {as : List α} (hopens : ∀ a ∈ as, Opens (text a))
    (hn : (c :: (commas (as.map text) ++ [d])).length ≤ n + 1) :
    as.length ≤ n ∧ ∀ a ∈ as, (text a).length ≤ n := by
  rw [List.length_cons, List.length_append, List.length_singleton] at hn
  constructor
  · have hne : ∀ t ∈ as.map text, t ≠ [] := by
      intro t ht
      obtain ⟨a, ha, rfl⟩ := List.mem_map.1 ht
      exact (hopens a ha).ne_nil
    have hle := length_texts_le hne
    rw [List.length_map] at hle
    omega
  · intro a ha
    have hle := length_le_commas (List.mem_map_of_mem (f := text) ha)
    omega

theorem Canonical.fuel (h : Canonical fmt v) (hn : (stringify fmt.print v).length ≤ n) :
    ∃ m, n = m + 1 := by
  have hpos := List.length_pos_iff.2 h.opens.ne_nil
  exact ⟨n - 1, by omega⟩

theorem Canonical.parseValue_stringify (h : Canonical fmt v) :
    ∀ n rest, (stringify fmt.print v).length ≤ n → Stops rest →
      parseValue fmt.read n (stringify fmt.print v ++ rest) = some (v, rest) := by
  induction h with
  | null =>
    intro n rest hn _
    obtain ⟨n, rfl⟩ := Canonical.null.fuel hn
    exact parseValue_atom n rfl (by decide) _ fmt.read
  | bool b =>
    intro n rest hn _
    obtain ⟨n, rfl⟩ := (Canonical.bool b).fuel hn
    cases b <;> exact parseValue_atom n rfl (by decide) _ fmt.read
  | num hx =>
    intro n rest hn hrest
    obtain ⟨n, rfl⟩ := (Canonical.num hx).fuel hn
    obtain ⟨c, cs, hc, hdigit⟩ := hx.opens
    obtain ⟨_, _, he, hspace, _⟩ := @opens_digit c cs hdigit
    cases he
    have hlexed := hx.lexed rest hrest
    rw [stringify]
    rw [hc, List.cons_append] at hlexed ⊢
    rw [parseValue_atom n hspace (digit_not_opening hdigit), parseAtom_number hdigit, hlexed, ← hc]
    exact congrArg (fun x => some (Value.num x, rest)) hx.read
  | str s =>
    intro n rest hn _
    obtain ⟨n, rfl⟩ := (Canonical.str s).fuel hn
    exact parseValue_str n s rest fmt.read
  | arr hvs ih =>
    rename_i vs
    intro n rest hn _
    obtain ⟨n, rfl⟩ := (Canonical.arr hvs).fuel hn
    have hopens : ∀ v ∈ vs, Opens (stringify fmt.print v) := fun v hv => (hvs v hv).opens
    rw [stringify, elementTexts_eq] at hn ⊢
    obtain ⟨hlength, htexts⟩ := length_bracketed hopens hn
    have hread := bracketed_commas (.inl rfl) hopens
      (fun v hv rest hrest => ih v hv n rest (htexts v hv) hrest) hlength rest
    rw [List.cons_append, List.append_assoc, List.singleton_append, parseValue, skip_cons rfl]
    dsimp only
    rw [if_neg (by decide), if_pos rfl, hread]
    rfl
  | obj hms hm ih =>
    rename_i ms
    intro n rest hn _
    obtain ⟨n, rfl⟩ := (Canonical.obj hms hm).fuel hn
    have hopens : ∀ m ∈ ms, Opens (memberText fmt.print m) := fun m _ => opens_memberText m
    rw [stringify, memberTexts_eq] at hn ⊢
    obtain ⟨hlength, htexts⟩ := length_bracketed hopens hn
    have hvalue : ∀ m ∈ ms, (stringify fmt.print m.2).length ≤ n := by
      intro m hmem
      have hle := htexts m hmem
      obtain ⟨k, v⟩ := m
      rw [memberText, List.length_append, List.length_cons] at hle
      change (stringify fmt.print v).length ≤ n
      omega
    have hread := bracketed_commas (.inr rfl) hopens
      (fun m hmem rest hrest => parseMember_text (ih m hmem n rest (hvalue m hmem) hrest))
      hlength rest
    rw [List.cons_append, List.append_assoc, List.singleton_append, parseValue, skip_cons rfl]
    dsimp only
    rw [if_neg (by decide), if_neg (by decide), if_pos rfl, hread]
    exact congrArg (fun ms => some (Value.obj ms, rest)) hm

/-- `JSON.parse` takes back what `JSON.stringify` has printed. -/
theorem Canonical.parse_stringify (h : Canonical fmt v) :
    parse fmt.read (stringify fmt.print v) = some v := by
  have hstops : Stops [] := fun c hc => by cases hc
  have hread := h.parseValue_stringify _ [] (Nat.le_succ _) hstops
  rw [List.append_nil] at hread
  rw [parse, hread]
  rfl

end Values

section Numbers

theorem isDigit_digits (h : c ∈ Nat.toDigits 10 n) : c.isDigit = true :=
  Nat.isDigit_of_mem_toDigits (by decide) (Nat.le_refl 10) h

theorem digits_head (h : n ≠ 0) : ∃ c cs, Nat.toDigits 10 n = c :: cs ∧ c ≠ '0' := by
  induction n using Nat.strong_induction_on with
  | _ n ih =>
    rw [Nat.toDigits_eq_if (by decide)]
    split
    · rename_i hlt
      have hall : ∀ n : Fin 10, n ≠ 0 → Nat.digitChar n.val ≠ '0' := by decide
      exact ⟨_, _, rfl, hall ⟨n, hlt⟩ fun he => h (congrArg Fin.val he)⟩
    · obtain ⟨c, cs, hc, hne⟩ := ih (n / 10) (by omega) (by omega)
      exact ⟨c, _, by rw [hc]; rfl, hne⟩

theorem digitsOf_append {ds : List Char} (hd : ∀ c ∈ ds, c.isDigit = true) (hrest : Stops rest) :
    digitsOf (ds ++ rest) = (ds, rest) := by
  have hhead : rest.takeWhile Char.isDigit = [] ∧ rest.dropWhile Char.isDigit = rest := by
    cases rest with
    | nil => exact ⟨rfl, rfl⟩
    | cons c cs =>
      have hc : c.isDigit = false := by
        rcases hrest c rfl with rfl | rfl | rfl <;> rfl
      rw [List.takeWhile_cons, List.dropWhile_cons, hc]
      exact ⟨rfl, rfl⟩
  rw [digitsOf, List.takeWhile_append_of_pos hd, List.dropWhile_append_of_pos hd, hhead.1, hhead.2,
    List.append_nil]

theorem lexInteger_digits (n : Nat) (hrest : Stops rest) :
    lexInteger (Nat.toDigits 10 n ++ rest) = some (Nat.toDigits 10 n, rest) := by
  by_cases hn : n = 0
  · subst hn
    rfl
  · obtain ⟨c, cs, hc, hzero⟩ := digits_head hn
    have hdigit : ∀ d ∈ c :: cs, d.isDigit = true := fun d hd => isDigit_digits (hc ▸ hd)
    have hrun := digitsOf_append (fun d hd => hdigit d (List.mem_cons_of_mem _ hd)) hrest
    rw [hc, List.cons_append, lexInteger, if_neg hzero, if_pos (hdigit c List.mem_cons_self), hrun]

theorem lexUnsigned_digits (n : Nat) (hrest : Stops rest) :
    lexUnsigned (Nat.toDigits 10 n ++ rest) = some (Nat.toDigits 10 n, rest) := by
  have hfraction : lexFraction rest = some ([], rest) ∧ lexExponent rest = some ([], rest) := by
    cases rest with
    | nil => exact ⟨rfl, rfl⟩
    | cons c cs => rcases hrest c rfl with rfl | rfl | rfl <;> exact ⟨rfl, rfl⟩
  rw [lexUnsigned, lexInteger_digits n hrest]
  change (lexFraction rest).bind _ = _
  rw [hfraction.1]
  change (lexExponent rest).bind _ = _
  rw [hfraction.2]
  exact congrArg (fun ds => some (ds, rest)) (List.append_nil _)

theorem decimal_opens (n : Int) :
    ∃ c cs, decimal n = c :: cs ∧ (c = '-' ∨ c.isDigit = true) := by
  rw [decimal]
  split
  · exact ⟨_, _, rfl, .inl rfl⟩
  · obtain ⟨c, cs, hc⟩ := List.exists_cons_of_ne_nil (Nat.toDigits_ne_nil (n := n.natAbs) (b := 10))
    exact ⟨c, cs, hc, .inr (isDigit_digits (hc ▸ List.mem_cons_self))⟩

theorem lexNumber_decimal (n : Int) (hrest : Stops rest) :
    lexNumber (decimal n ++ rest) = some (decimal n, rest) := by
  have hdigits := lexUnsigned_digits n.natAbs hrest
  rw [decimal]
  split
  · rw [List.cons_append, lexNumber, hdigits]
    rfl
  · obtain ⟨c, cs, hc⟩ := List.exists_cons_of_ne_nil (Nat.toDigits_ne_nil (n := n.natAbs) (b := 10))
    have hminus : c ≠ '-' := by
      rintro rfl
      have hdigit : '-'.isDigit = true := isDigit_digits (hc ▸ List.mem_cons_self)
      cases hdigit
    rw [hc] at hdigits ⊢
    rw [List.cons_append] at hdigits ⊢
    rw [lexNumber, hdigits]
    intro _ h
    exact hminus (List.cons.inj h).1

theorem NumberFormat.Exact.of_decimal {fmt : NumberFormat ν} (hprint : fmt.print x = decimal n)
    (hread : fmt.read (decimal n) = x) : fmt.Exact x := by
  refine ⟨?_, fun rest hrest => ?_, ?_⟩
  · rw [hprint]
    exact decimal_opens n
  · rw [hprint]
    exact lexNumber_decimal n hrest
  · rw [hprint, hread]

end Numbers

end Json
