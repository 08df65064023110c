import DineFlow.Base64

namespace Base64
set_option autoImplicit true

theorem length_toSextets (bs : List UInt8) :
    (toSextets bs).length = (4 * bs.length + 2) / 3 := by
  induction bs using toSextets.induct with
  | case1 a b c rest ih =>
    simp only [toSextets, List.length_cons, ih]
    omega
  | case2 a b => simp [toSextets]
  | case3 a => simp [toSextets]
  | case4 => rfl

theorem padding_cases (n : Nat) :
    n % 3 = 0 ∧ padding n = [] ∨ n % 3 = 1 ∧ padding n = ['=', '='] ∨
      n % 3 = 2 ∧ padding n = ['='] := by
  have hcases : n % 3 = 0 ∨ n % 3 = 1 ∨ n % 3 = 2 := by omega
  rw [padding]
  rcases hcases with h | h | h <;> simp [h]

theorem length_encode (bs : List UInt8) : (encode bs).length % 4 = 0 := by
  rw [encode, List.length_append, List.length_map, length_toSextets]
  rcases padding_cases bs.length with ⟨h, hp⟩ | ⟨h, hp⟩ | ⟨h, hp⟩ <;> rw [hp] <;>
    simp only [List.length_cons, List.length_nil] <;> omega

theorem padding_of_length (bs : List UInt8) :
    List.replicate ((4 - (toSextets bs).length % 4) % 4) '=' = padding bs.length := by
  rw [length_toSextets]
  rcases padding_cases bs.length with ⟨h, hp⟩ | ⟨h, hp⟩ | ⟨h, hp⟩
  · have hlength : (4 * bs.length + 2) / 3 % 4 = 0 := by omega
    rw [hlength, hp]
    rfl
  · have hlength : (4 * bs.length + 2) / 3 % 4 = 2 := by omega
    rw [hlength, hp]
    rfl
  · have hlength : (4 * bs.length + 2) / 3 % 4 = 3 := by omega
    rw [hlength, hp]
    rfl

/-- The alphabet for URLs and file names. -/
def urlAlphabet : List Char :=
  ['A', 'B', 'C', 'D', 'E', 'F', 'G', 'H', 'I', 'J', 'K', 'L', 'M', 'N', 'O', 'P',
   'Q', 'R', 'S', 'T', 'U', 'V', 'W', 'X', 'Y', 'Z', 'a', 'b', 'c', 'd', 'e', 'f',
   'g', 'h', 'i', 'j', 'k', 'l', 'm', 'n', 'o', 'p', 'q', 'r', 's', 't', 'u', 'v',
   'w', 'x', 'y', 'z', '0', '1', '2', '3', '4', '5', '6', '7', '8', '9', '-', '_']

def urlSymbol (n : Nat) : Char := urlAlphabet.getD n '='

/-- The encoding for URLs, without padding. -/
def encodeUrl (bs : List UInt8) : List Char := (toSextets bs).map urlSymbol

example : encodeUrl [251, 255] = ['-', '_', '8'] := by decide

/-- The character of the same value in the other alphabet. -/
def standard (c : Char) : Char := if c = '-' then '+' else if c = '_' then '/' else c

theorem standard_urlSymbol (h : n < 64) : standard (urlSymbol n) = symbol n := by
  have hall : ∀ n : Fin 64, standard (urlSymbol n) = symbol n := by decide
  exact hall ⟨n, h⟩

theorem map_standard_encodeUrl (bs : List UInt8) :
    (encodeUrl bs).map standard = (toSextets bs).map symbol := by
  rw [encodeUrl, List.map_map]
  apply List.map_congr_left
  intro n hn
  exact standard_urlSymbol (toSextets_lt bs n hn)

theorem length_encodeUrl (bs : List UInt8) : (encodeUrl bs).length = (toSextets bs).length :=
  List.length_map _

def blank (c : Char) : Bool :=
  c = '\t' || c = '\n' || c = '\x0c' || c = '\r' || c = ' '

def dropPad (cs : List Char) : List Char :=
  if cs.getLast? = some '=' then cs.dropLast else cs

/-- One or two padding characters at the end are dropped if they complete a block. -/
def stripPadding (cs : List Char) : List Char :=
  if cs.length % 4 = 0 then dropPad (dropPad cs) else cs

/-- The bytes of a text with or without padding; blanks are dropped, and the decoder fails on any
other character outside the alphabet. -/
def forgivingDecode (cs : List Char) : Option (List UInt8) :=
  let cs := stripPadding (cs.filter fun c => !blank c)
  if cs.length % 4 = 1 then none else (cs.mapM value).map ofSextets

theorem dropPad_concat (cs : List Char) : dropPad (cs ++ ['=']) = cs := by
  rw [dropPad, if_pos List.getLast?_concat, List.dropLast_concat]

theorem dropPad_of_not_mem (h : '=' ∉ cs) : dropPad cs = cs :=
  if_neg fun hlast => h (List.mem_of_getLast? hlast)

theorem stripPadding_encode (bs : List UInt8) :
    stripPadding (encode bs) = (toSextets bs).map symbol := by
  have hnone : dropPad ((toSextets bs).map symbol) = (toSextets bs).map symbol := by
    apply dropPad_of_not_mem
    intro hmem
    obtain ⟨n, hn, he⟩ := List.mem_map.1 hmem
    exact (symbol_read n (toSextets_lt bs n hn)).1 he
  rw [stripPadding, if_pos (length_encode bs), encode]
  rcases padding_cases bs.length with ⟨-, hp⟩ | ⟨-, hp⟩ | ⟨-, hp⟩
  · rw [hp, List.append_nil, hnone, hnone]
  · rw [hp, List.append_cons, dropPad_concat, dropPad_concat]
  · rw [hp, dropPad_concat, hnone]

theorem mapM_value {ns : List Nat} (h : ∀ n ∈ ns, n < 64) :
    (ns.map symbol).mapM value = some ns := by
  induction ns with
  | nil => rfl
  | cons n ns ih =>
    obtain ⟨hn, hns⟩ := List.forall_mem_cons.1 h
    rw [List.map_cons, List.mapM_cons, value_symbol hn, ih hns]
    rfl

theorem blank_of_mem_encode (h : c ∈ encode bs) : blank c = false := by
  rw [← Bool.not_eq_true]
  intro hblank
  simp only [blank, Bool.or_eq_true, decide_eq_true_eq] at hblank
  rcases hblank with (((rfl | rfl) | rfl) | rfl) | rfl <;>
    exact not_mem_encode rfl (by decide) bs h

theorem forgivingDecode_encode (bs : List UInt8) : forgivingDecode (encode bs) = some bs := by
  have hkept : (encode bs).filter (fun c => !blank c) = encode bs := by
    rw [List.filter_eq_self]
    intro c hc
    rw [blank_of_mem_encode hc]
    rfl
  have hlength : ((toSextets bs).map symbol).length % 4 ≠ 1 := by
    rw [List.length_map, length_toSextets]
    omega
  rw [forgivingDecode, hkept, stripPadding_encode]
  rw [if_neg hlength, mapM_value (toSextets_lt bs), Option.map_some, ofSextets_toSextets]

end Base64
