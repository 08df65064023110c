import DineFlow.History
import DineFlow.OrderSums

namespace DineFlow
open Atomic Relational
set_option autoImplicit true

/-- What a user has with the restaurant: the account, the orders and bookings as they were made,
and the cart. -/
structure Belongings where
  account : Option UserRow
  orders : List OrderRow
  bookings : List BookingRow
  cart : Option Entry

def World.belongings (w : World) (k : Uuid) : Belongings where
  account := lookup UserRow.id k w.db.users
  orders := w.db.ledger.orders.filter fun o => o.userId = some k
  bookings := w.db.ledger.bookings.filter fun b => b.userId = some k
  cart := w.redis.get (userCartKey k.text)

theorem Request.CartKey.subject {r : Request} (h : r.CartKey pf (userCartKey (Uuid.text k))) :
    r.subject pf = some k := by
  obtain ⟨caller, hpasses, hkey⟩ := h
  have huser : cartKey (some k.text) none = some (userCartKey k.text) := by
    rw [cartKey, given_text, userCartKey]
  obtain ⟨hgiven, _⟩ := cartKey_eq_iff.1 (hkey.trans huser.symm)
  rw [given_text] at hgiven
  cases caller with
  | none => cases hgiven
  | some c =>
    cases c with
    | guest => cases hgiven
    | user u =>
      have hid : given (some u.id.text) = some k.text := hgiven
      rw [given_text] at hid
      rw [hpasses u rfl, Uuid.text_injective (Option.some.inj hid)]

theorem lookup_append_other [DecidableEq κ] {key : ρ → κ} (hk : key r ≠ k) (rows : List ρ) :
    lookup key k (rows ++ [r]) = lookup key k rows := by
  rw [lookup, lookup, List.find?_append, List.find?_cons_of_neg (by simpa using hk),
    List.find?_nil, Option.or_none]

/-- A record that has no user but that of the request. -/
def Record.For (pf : Platform) (r : Request) : Record → Prop
  | .account _ | .line _ => True
  | .order o => r.WritesFor pf o.userId
  | .booking b => r.WritesFor pf b.userId

theorem Record.For.belongings {x : Record} (h : x.For pf r) (hr : r.subject pf ≠ some k)
    (l : Ledger) :
    ((l.add x).orders.filter fun o => o.userId = some k) =
        l.orders.filter (fun o => o.userId = some k) ∧
      ((l.add x).bookings.filter fun b => b.userId = some k) =
        l.bookings.filter fun b => b.userId = some k := by
  cases x with
  | account a => exact ⟨rfl, rfl⟩
  | line i => exact ⟨rfl, rfl⟩
  | order o =>
    refine ⟨?_, rfl⟩
    rw [Ledger.add, List.filter_append, List.filter_cons_of_neg, List.filter_nil, List.append_nil]
    exact fun he => hr (h k (of_decide_eq_true he))
  | booking b =>
    refine ⟨rfl, ?_⟩
    rw [Ledger.add, List.filter_append, List.filter_cons_of_neg, List.filter_nil, List.append_nil]
    exact fun he => hr (h k (of_decide_eq_true he))

section Stranger

variable (hr : Request.subject pf r ≠ some k)
include hr

theorem Effect.account_kept (h : Effect pf r op w w') (hk : ∃ u ∈ w.db.users, u.id = k) :
    lookup UserRow.id k w'.db.users = lookup UserRow.id k w.db.users := by
  cases h with
  | account h =>
    obtain ⟨u, hu, hid⟩ := hk
    have husers := Db.insertUser_users h
    rename_i db
    have hunique := db.valid.userIds
    rw [husers] at hunique
    rw [husers]
    exact lookup_append_other (hid ▸ (hunique.fresh_of_append u hu).symm) _
  | profile hsubject h =>
    obtain ⟨p, hp⟩ := writeProfile_users h
    dsimp only
    rw [hp, lookup_updateWhere (g := p.apply) (fun _ => rfl), if_neg]
    rintro rfl
    exact hr hsubject
  | booking _ _ h =>
    dsimp only
    rw [(Db.insertBooking_ok_iff.1 h).2]
  | bookingStatus h => exact congrArg _ (writeBookingStatus_users h)
  | menu h =>
    obtain ⟨items, favorites, ht⟩ := h.tables
    dsimp only
    rw [ht]
  | status h =>
    obtain ⟨j, hj⟩ := updateStatus_db h
    dsimp only
    rw [hj]
    rfl
  | order _ h =>
    dsimp only
    rw [(Db.insertOrder_ok_iff.1 h).2]
  | line h =>
    dsimp only
    rw [(Db.insertOrderItem_ok_iff.1 h).2]
  | none => rfl
  | menuDrop => rfl
  | statusNews => rfl
  | news => rfl
  | cart => rfl
  | cartDrop => rfl
  | fill => rfl

theorem Effect.cart_kept (h : Effect pf r op w w') :
    w'.redis.get (userCartKey k.text) = w.redis.get (userCartKey k.text) := by
  have hmenu : ¬IsMenuKey (userCartKey k.text) := userCartKey_not_menu _
  cases h with
  | menuDrop _ hkeys =>
    dsimp only
    rw [Redis.get_delKeys, if_neg fun hmem => hmenu (hkeys _ hmem)]
  | cart _ hkey e =>
    refine Redis.get_set_other _ _ ?_
    rintro rfl
    exact hr hkey.subject
  | cartDrop _ hkey =>
    refine Redis.get_del_other _ ?_
    rintro rfl
    exact hr hkey.subject
  | fill _ hkey =>
    refine Redis.get_set_other _ _ ?_
    rintro rfl
    exact hmenu hkey
  | none => rfl
  | account => rfl
  | profile => rfl
  | booking => rfl
  | bookingStatus => rfl
  | menu => rfl
  | status => rfl
  | statusNews => rfl
  | order => rfl
  | line => rfl
  | news => rfl

theorem Effect.belongings_kept (h : Effect pf r op w w') (hk : ∃ u ∈ w.db.users, u.id = k) :
    w'.belongings k = w.belongings k := by
  have hledger : (w'.db.ledger.orders.filter fun o => o.userId = some k) =
        w.db.ledger.orders.filter (fun o => o.userId = some k) ∧
      (w'.db.ledger.bookings.filter fun b => b.userId = some k) =
        w.db.ledger.bookings.filter fun b => b.userId = some k := by
    have hwrites : Writes (Record.For pf r) w.db w'.db :=
      h.writes (fun _ _ => trivial) (fun _ _ _ _ _ hu => hu) (fun _ _ hu => hu) fun _ _ => trivial
    rcases hwrites.ledger with hsame | ⟨record, hrecord, hadded⟩
    · rw [hsame]
      exact ⟨rfl, rfl⟩
    · rw [hadded]
      exact hrecord.belongings hr _
  rw [World.belongings, World.belongings, h.account_kept hr hk, h.cart_kept hr, hledger.1,
    hledger.2]

end Stranger

/-- Whatever others do at the same time, and whichever of their requests fail halfway, a user's
account, orders, bookings and cart stay as they are. -/
theorem strangers_touch_nothing (pf : Platform) (calls : List (Request × Operation))
    (ops : List SocketOp) (w : World) (k : Uuid) (hk : ∃ u ∈ w.db.users, u.id = k)
    (hcalls : ∀ c ∈ calls, c.1.subject pf ≠ some k) (turns : List (Nat × Bool)) :
    (runs Pool.turn (serveLive pf calls ops w) turns).state.belongings k = w.belongings k := by
  have hkeep (c : Request × Operation) (hc : c ∈ calls) (w₁ w₂ : World)
      (heffect : Effect pf c.1 c.2 w₁ w₂)
      (h : (∃ u ∈ w₁.db.users, u.id = k) ∧ w₁.belongings k = w.belongings k) :
      (∃ u ∈ w₂.db.users, u.id = k) ∧ w₂.belongings k = w.belongings k := by
    have hsame := heffect.belongings_kept (hcalls c hc) h.1
    refine ⟨?_, hsame.trans h.2⟩
    obtain ⟨u, hu⟩ := lookup_isSome h.1
    have hlookup : lookup UserRow.id k w₂.db.users = lookup UserRow.id k w₁.db.users :=
      congrArg Belongings.account hsame
    exact ⟨u, lookup_mem (hlookup.trans hu)⟩
  exact (serveLive_invariant hkeep (fun _ _ _ h => h) ⟨hk, rfl⟩ turns).2

/-- A guest's order leaves the manager alone. -/
theorem strangers_touch_nothing_sample :
    (runs Pool.turn (serveLive samplePlatform [orderTwo] [] sampleWorld)
      (List.replicate 12 (0, false))).state.belongings (sampleId 5) =
        sampleWorld.belongings (sampleId 5) := by
  refine strangers_touch_nothing samplePlatform [orderTwo] [] sampleWorld (sampleId 5)
    (by decide) (fun c hc => ?_) _
  rw [List.mem_singleton.1 hc]
  decide

end DineFlow
