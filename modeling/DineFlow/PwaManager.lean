import DineFlow.Base64Url
import DineFlow.TokenText

namespace DineFlow.PwaManager
open TokenText
set_option autoImplicit true

/-- The code unit of a character of the first 128. -/
def unit (c : Char) : UInt16 := UInt16.ofNat c.toNat

/-- `s.replace(/x/g, 'y')` -/
def replaceAll (x y : Char) (s : List UInt16) : List UInt16 :=
  s.map fun u => if u = unit x then unit y else u

/-- `window.atob`: a character for each byte; `none` where it throws. -/
def atob (s : List UInt16) : Option (List UInt16) :=
  (Base64.forgivingDecode (s.map fun u => Char.ofNat u.toNat)).map fun bs => bs.map UInt8.toUInt16

/-- One turn of the loop; a byte array keeps the low eight bits of what it is given. -/
def copyByte (raw : List UInt16) (bytes : List UInt8) (index : Nat) : List UInt8 :=
  bytes.set index (raw.getD index 0).toUInt8

def decodeBase64Url (base64Url : List UInt16) : Option (List UInt8) := do
  let padded := base64Url ++ List.replicate ((4 - base64Url.length % 4) % 4) (unit '=')
  let base64 := replaceAll '_' '/' (replaceAll '-' '+' padded)
  let raw ← atob base64
  return (List.range raw.length).foldl (copyByte raw) (List.replicate raw.length 0)

theorem foldl_copyByte (raw : List UInt16) (h : n ≤ raw.length) :
    (List.range n).foldl (copyByte raw) (List.replicate raw.length 0) =
      (raw.take n).map UInt16.toUInt8 ++ List.replicate (raw.length - n) 0 := by
  induction n with
  | zero => rfl
  | succ n ih =>
    have hn : n < raw.length := h
    have hrest : List.replicate (raw.length - n) (0 : UInt8) =
        0 :: List.replicate (raw.length - (n + 1)) 0 := by
      rw [← List.replicate_succ]
      congr 1
      omega
    have hlength : ((raw.take n).map UInt16.toUInt8).length = n := by
      rw [List.length_map, List.length_take, Nat.min_eq_left hn.le]
    have htake : (raw.take (n + 1)).map UInt16.toUInt8 =
        (raw.take n).map UInt16.toUInt8 ++ [(raw.getD n 0).toUInt8] := by
      rw [List.take_add_one, List.getElem?_eq_getElem hn, List.map_append,
        List.getD_eq_getElem _ _ hn]
      rfl
    rw [List.range_succ, List.foldl_append, ih hn.le, List.foldl_cons, List.foldl_nil, copyByte,
      hrest, List.set_append_right _ _ hlength.le, hlength, Nat.sub_self, List.set_cons_zero, htake,
      List.append_assoc, List.singleton_append]

theorem copied (raw : List UInt16) :
    (List.range raw.length).foldl (copyByte raw) (List.replicate raw.length 0) =
      raw.map UInt16.toUInt8 := by
  rw [foldl_copyByte raw le_rfl, List.take_length, Nat.sub_self, List.replicate_zero,
    List.append_nil]

theorem map_toUInt8 (bs : List UInt8) : (bs.map UInt8.toUInt16).map UInt16.toUInt8 = bs := by
  rw [List.map_map]
  refine (List.map_congr_left fun b _ => ?_).trans (List.map_id bs)
  exact UInt8.toUInt8_toUInt16 b

theorem unit_inj (hc : c.toNat < 128) (hd : d.toNat < 128) : unit c = unit d ↔ c = d := by
  refine ⟨fun h => ?_, congrArg unit⟩
  have hnat := congrArg UInt16.toNat h
  rw [unit, unit, toNat_unit hc, toNat_unit hd] at hnat
  exact Char.toNat_inj.1 hnat

theorem replaceAll_units (hx : x.toNat < 128) (h : Ascii cs) :
    replaceAll x y (cs.map unit) = (cs.map fun c => if c = x then y else c).map unit := by
  rw [replaceAll, List.map_map, List.map_map]
  apply List.map_congr_left
  intro c hc
  simp only [Function.comp_apply, unit_inj (h c hc) hx]
  split <;> rfl

theorem replaced_units (h : Ascii cs) :
    replaceAll '_' '/' (replaceAll '-' '+' (cs.map unit)) = (cs.map Base64.standard).map unit := by
  have hplus : Ascii (cs.map fun c => if c = '-' then '+' else c) := by
    intro c hc
    obtain ⟨d, hd, rfl⟩ := List.mem_map.1 hc
    split
    · decide
    · exact h d hd
  have hstandard : (cs.map fun c => if c = '-' then '+' else c).map
      (fun c => if c = '_' then '/' else c) = cs.map Base64.standard := by
    rw [List.map_map]
    apply List.map_congr_left
    intro c _
    rw [Function.comp_apply, Base64.standard]
    split <;> rfl
  rw [replaceAll_units (by decide) h, replaceAll_units (by decide) hplus, hstandard]

theorem atob_units (bs : List UInt8) :
    atob ((Base64.encode bs).map unit) = some (bs.map UInt8.toUInt16) := by
  have hchars := chars_asUnits (ascii_encode bs)
  rw [asUnits_ascii (ascii_encode bs)] at hchars
  have hdecode := Base64.forgivingDecode_encode bs
  rw [← hchars] at hdecode
  rw [atob]
  exact congrArg (Option.map (List.map UInt8.toUInt16)) hdecode

/-- A text is read if the padding and the replacements make the standard encoding of it. -/
theorem decodeBase64Url_eq (h : Ascii cs)
    (he : (cs ++ List.replicate ((4 - cs.length % 4) % 4) '=').map Base64.standard =
      Base64.encode bs) :
    decodeBase64Url (asUnits cs) = some bs := by
  have hpadded : Ascii (cs ++ List.replicate ((4 - cs.length % 4) % 4) '=') := by
    intro c hc
    rcases List.mem_append.1 hc with hc | hc
    · exact h c hc
    · rw [List.eq_of_mem_replicate hc]
      decide
  have hunits : asUnits cs ++ List.replicate ((4 - (asUnits cs).length % 4) % 4) (unit '=') =
      (cs ++ List.replicate ((4 - cs.length % 4) % 4) '=').map unit := by
    rw [asUnits_ascii h, List.length_map, List.map_append, List.map_replicate]
    rfl
  rw [decodeBase64Url, hunits, replaced_units hpadded, he, atob_units, Option.bind_eq_bind,
    Option.bind_some, copied, map_toUInt8]
  rfl

theorem ascii_encodeUrl (bs : List UInt8) : Ascii (Base64.encodeUrl bs) := by
  intro c hc
  obtain ⟨n, hn, rfl⟩ := List.mem_map.1 hc
  have hall : ∀ n : Fin 64, (Base64.urlSymbol n).toNat < 128 := by decide
  exact hall ⟨n, Base64.toSextets_lt bs n hn⟩

theorem padded_encodeUrl (bs : List UInt8) :
    (Base64.encodeUrl bs ++ List.replicate ((4 - (Base64.encodeUrl bs).length % 4) % 4) '=').map
      Base64.standard = Base64.encode bs := by
  have hpadding : (Base64.padding bs.length).map Base64.standard = Base64.padding bs.length := by
    rcases Base64.padding_cases bs.length with ⟨-, hp⟩ | ⟨-, hp⟩ | ⟨-, hp⟩ <;> rw [hp] <;> rfl
  rw [Base64.length_encodeUrl, Base64.padding_of_length, List.map_append,
    Base64.map_standard_encodeUrl, hpadding]
  rfl

/-- Every byte sequence comes back from its encoding for URLs. -/
theorem decodeBase64Url_encodeUrl (bs : List UInt8) :
    decodeBase64Url (asUnits (Base64.encodeUrl bs)) = some bs :=
  decodeBase64Url_eq (ascii_encodeUrl bs) (padded_encodeUrl bs)

inductive Permission where
  | default
  | denied
  | granted
  deriving DecidableEq, Repr

/-- What the browser answers, where `none` is a promise that is rejected. -/
structure Browser where
  hasPushManager : Bool
  hasNotification : Bool
  subscribed : Option Bool
  permission : Option Permission

/-- The key that `subscribe` is called with, if it is called. -/
def subscribeToPush (vapidPublicKey : Option (List UInt16)) (b : Browser) : Option (List UInt8) :=
  match vapidPublicKey with
  | none => none
  | some text =>
    if text = [] then none
    else if !b.hasPushManager || !b.hasNotification then none
    else
      match b.subscribed, b.permission with
      | some false, some .granted => decodeBase64Url text
      | _, _ => none

/-- The browser can be subscribed, is not yet, and the user allows it. -/
structure Browser.Subscribes (b : Browser) : Prop where
  pushManager : b.hasPushManager = true
  notification : b.hasNotification = true
  notYet : b.subscribed = some false
  allowed : b.permission = some .granted

theorem subscribeToPush_of_subscribes (h : b.Subscribes) (hne : text ≠ []) :
    subscribeToPush (some text) b = decodeBase64Url text := by
  rw [subscribeToPush, if_neg hne, h.pushManager, h.notification, h.notYet, h.allowed]
  rfl

theorem subscribes_of_subscribeToPush (h : subscribeToPush vapidPublicKey b = some serverKey) :
    b.Subscribes := by
  cases vapidPublicKey with
  | none => cases h
  | some text =>
    rw [subscribeToPush] at h
    split at h
    · cases h
    · split at h
      · cases h
      · rename_i hsupported
        rw [Bool.not_eq_true, Bool.or_eq_false_iff, Bool.not_eq_false',
          Bool.not_eq_false'] at hsupported
        split at h
        · rename_i hnotYet hallowed
          exact ⟨hsupported.1, hsupported.2, hnotYet, hallowed⟩
        · cases h

/-- A server key that is set in its encoding for URLs is what the browser is subscribed with. -/
theorem subscribeToPush_key_iff {bs : List UInt8} (hbs : bs ≠ []) :
    subscribeToPush (some (asUnits (Base64.encodeUrl bs))) b = some serverKey ↔
      b.Subscribes ∧ serverKey = bs := by
  have hdecode := decodeBase64Url_eq (ascii_encodeUrl bs) (padded_encodeUrl bs)
  have hkey : asUnits (Base64.encodeUrl bs) ≠ [] := by
    intro he
    rw [he] at hdecode
    exact hbs (Option.some.inj hdecode).symm
  apply Iff.intro
  · intro h
    have hsubscribes := subscribes_of_subscribeToPush h
    rw [subscribeToPush_of_subscribes hsubscribes hkey, hdecode] at h
    exact ⟨hsubscribes, (Option.some.inj h).symm⟩
  · intro h
    rw [subscribeToPush_of_subscribes h.1 hkey, hdecode, h.2]

end DineFlow.PwaManager
