import DineFlow.ApiSteps
import DineFlow.CartKeys
import DineFlow.CartRefinement
import DineFlow.MenuListing
import DineFlow.Noninterference

namespace DineFlow
open Atomic Relational
set_option autoImplicit true

/-- Whom a cart belongs to. -/
inductive Owner where
  | user (userId : String)
  | guest (guestId : String)
  deriving DecidableEq, Repr

def Owner.key : Owner → String
  | .user userId => "user:cart:" ++ userId
  | .guest guestId => "guest:cart:" ++ guestId

/-- The session of a call: its user id prevails. -/
def ownerOf (userId guestId : Option String) : Option Owner :=
  match given userId with
  | some u => some (.user u)
  | none => (given guestId).map .guest

theorem cartKey_eq_ownerKey (userId guestId : Option String) :
    cartKey userId guestId = (ownerOf userId guestId).map Owner.key := by
  rw [cartKey, ownerOf]
  cases given userId with
  | some u => rfl
  | none => cases given guestId <;> rfl

theorem Owner.key_inj {o o' : Owner} (h : o.key = o'.key) : o = o' := by
  cases o with
  | user u =>
    cases o' with
    | user u' => exact congrArg Owner.user (append_cancel h)
    | guest g => exact absurd h (userKey_ne_guestKey u g)
  | guest g =>
    cases o' with
    | user u => exact absurd h.symm (userKey_ne_guestKey u g)
    | guest g' => exact congrArg Owner.guest (append_cancel h)

theorem Owner.key_not_menu (o : Owner) : ¬IsMenuKey o.key := by
  rintro ⟨t, h⟩
  have hl := congrArg String.toList h
  cases o with
  | user u =>
    rw [Owner.key, String.toList_append, String.toList_append] at hl
    exact absurd (List.cons.inj hl).1 (by decide)
  | guest g =>
    rw [Owner.key, String.toList_append, String.toList_append] at hl
    exact absurd (List.cons.inj hl).1 (by decide)

/-- The worlds are the same to the session whose cart is under the key: they may differ in other
carts, in the events sent, and in rows of orders under ids that it never draws. -/
structure Alike (key : String) (drawn : Uuid → Prop) (w w' : World) : Prop where
  cart : w.redis.get key = w'.redis.get key
  users : w.db.users = w'.db.users
  restaurants : w.db.restaurants = w'.db.restaurants
  tables : w.db.tables = w'.db.tables
  menuItems : w.db.menuItems = w'.db.menuItems
  orders : ∀ k, ¬drawn k → hasKey OrderRow.id w.db.orders k = hasKey OrderRow.id w'.db.orders k
  lines : ∀ k, ¬drawn k →
    hasKey OrderItemRow.id w.db.orderItems k = hasKey OrderItemRow.id w'.db.orderItems k

theorem Alike.refl (key : String) (drawn : Uuid → Prop) (w : World) : Alike key drawn w w :=
  ⟨rfl, rfl, rfl, rfl, rfl, fun _ _ => rfl, fun _ _ => rfl⟩

theorem Alike.symm (h : Alike key drawn w w') : Alike key drawn w' w :=
  ⟨h.cart.symm, h.users.symm, h.restaurants.symm, h.tables.symm, h.menuItems.symm,
    fun k hk => (h.orders k hk).symm, fun k hk => (h.lines k hk).symm⟩

theorem Alike.trans (h : Alike key drawn w w') (h' : Alike key drawn w' w'') :
    Alike key drawn w w'' :=
  ⟨h.cart.trans h'.cart, h.users.trans h'.users, h.restaurants.trans h'.restaurants,
    h.tables.trans h'.tables, h.menuItems.trans h'.menuItems,
    fun k hk => (h.orders k hk).trans (h'.orders k hk),
    fun k hk => (h.lines k hk).trans (h'.lines k hk)⟩

theorem Alike.redis (h : Alike key drawn w w') (hr : r.get key = r'.get key) :
    Alike key drawn { w with redis := r } { w' with redis := r' } :=
  { h with cart := hr }

theorem Alike.emitted (h : Alike key drawn w w') (g g' : Gateway) :
    Alike key drawn { w with gateway := g } { w' with gateway := g' } :=
  { h with }

theorem hasKey_snoc [DecidableEq κ] (ix : ρ → κ) (rows : List ρ) (r : ρ) (k : κ) :
    hasKey ix (rows ++ [r]) k = (hasKey ix rows k || decide (ix r = k)) := by
  simp [hasKey]

theorem Alike.insertOrder (h : Alike key drawn w w') (ho : ¬drawn (OrderRow.id o)) :
    (∃ e, w.db.insertOrder o = .error e ∧ w'.db.insertOrder o = .error e) ∨
      ∃ db db', w.db.insertOrder o = .ok db ∧ w'.db.insertOrder o = .ok db' ∧
        Alike key drawn { w with db := db } { w' with db := db' } := by
  have ha : o.accepted w.db.toTables = o.accepted w'.db.toTables := by
    rw [OrderRow.accepted, OrderRow.accepted, h.orders _ ho, h.restaurants, h.tables, h.users]
  cases hacc : o.accepted w'.db.toTables with
  | false =>
    rw [hacc] at ha
    exact .inl ⟨_, dif_neg (by simp [ha]), dif_neg (by simp [hacc])⟩
  | true =>
    rw [hacc] at ha
    refine .inr ⟨_, _, dif_pos ha, dif_pos hacc, { h with orders := fun k hk => ?_ }⟩
    rw [hasKey_snoc, hasKey_snoc, h.orders k hk]

theorem Alike.insertOrderItem (h : Alike key drawn w w') (hl : ¬drawn (OrderItemRow.id l))
    (ho : ¬drawn l.orderId) :
    (∃ e, w.db.insertOrderItem l = .error e ∧ w'.db.insertOrderItem l = .error e) ∨
      ∃ db db', w.db.insertOrderItem l = .ok db ∧ w'.db.insertOrderItem l = .ok db' ∧
        Alike key drawn { w with db := db } { w' with db := db' } := by
  have ha : l.accepted w.db.toTables = l.accepted w'.db.toTables := by
    rw [OrderItemRow.accepted, OrderItemRow.accepted, h.lines _ hl, h.orders _ ho, h.menuItems]
  cases hacc : l.accepted w'.db.toTables with
  | false =>
    rw [hacc] at ha
    exact .inl ⟨_, dif_neg (by simp [ha]), dif_neg (by simp [hacc])⟩
  | true =>
    rw [hacc] at ha
    refine .inr ⟨_, _, dif_pos ha, dif_pos hacc, { h with lines := fun k hk => ?_ }⟩
    rw [hasKey_snoc, hasKey_snoc, h.lines k hk]

theorem Alike.of_insertOrder (h : w.db.insertOrder o = .ok db) (ho : drawn (OrderRow.id o)) :
    Alike key drawn w { w with db := db } := by
  have ht := (Db.insertOrder_ok_iff.1 h).2
  have hn (k : Uuid) (hk : ¬drawn k) : o.id ≠ k := by
    rintro rfl
    exact hk ho
  refine ⟨rfl, ?_, ?_, ?_, ?_, fun k hk => ?_, fun k hk => ?_⟩
  all_goals rw [ht]
  rw [hasKey_snoc]
  change _ = (_ || decide (o.id = k))
  rw [decide_eq_false (hn k hk), Bool.or_false]

theorem Alike.of_insertOrderItem (h : w.db.insertOrderItem l = .ok db)
    (hl : drawn (OrderItemRow.id l)) : Alike key drawn w { w with db := db } := by
  have ht := (Db.insertOrderItem_ok_iff.1 h).2
  have hn (k : Uuid) (hk : ¬drawn k) : l.id ≠ k := by
    rintro rfl
    exact hk hl
  refine ⟨rfl, ?_, ?_, ?_, ?_, fun k hk => ?_, fun k hk => ?_⟩
  all_goals rw [ht]
  rw [hasKey_snoc, decide_eq_false (hn k hk), Bool.or_false]

section Own

variable {f : Site → Bool} {key : String} {drawn : Uuid → Prop}

variable (hkey : cartKey userId guestId = some key)
include hkey

end Own

section Others

variable {key : String} {drawn : Uuid → Prop} (hkey : cartKey userId guestId ≠ some key)
include hkey

theorem SessionOp.within_alike (op : SessionOp)
    (hd : ∀ input, op = .place input → ∀ i, drawn (Env.uuid env i)) :
    (op.prog userId guestId env).Within (Alike key drawn) := by
  have hr : ∀ w, Alike key drawn w w := Alike.refl key drawn
  have hother {k : String} (hk : cartKey userId guestId = some k) : key ≠ k := by
    rintro rfl
    exact hkey hk
  have hset (w : World) (k : String) (v : Cached) (hk : cartKey userId guestId = some k) :
      Alike key drawn w
        { w with redis := w.redis.set k ⟨v, (cartTtl guestId).map (expiry env.now)⟩ } :=
    (hr w).redis (Redis.get_set_other _ _ (hother hk)).symm
  have hdel (w : World) (k : String) (hk : cartKey userId guestId = some k) :
      Alike key drawn w { w with redis := w.redis.del k } :=
    (hr w).redis (Redis.get_del_other _ (hother hk)).symm
  cases op with
  | add input => exact (addToCart_within hr env input hset).bind fun _ => trivial
  | remove menuItemId => exact (removeFromCart_within hr env menuItemId hset).bind fun _ => trivial
  | clear => exact clearCart_within hr hdel
  | get => exact ((getCart_keeps (π := id) env userId guestId).within hr).bind fun _ => trivial
  | place input =>
    refine (placeOrder_within_of hr ?_ ?_ hdel fun w e => (hr w).emitted _ _).bind fun _ => trivial
    · intro w table amounts r h
      obtain ⟨u, _, hi, _⟩ := insertOrder_row h
      exact Alike.of_insertOrder hi (hd input rfl 0)
    · intro w order i d r h
      obtain ⟨u, _, hi⟩ := insertLine_row h
      exact Alike.of_insertOrderItem hi (hd input rfl (i + 1))

end Others

/-- What happens in a run: a call, with the statements that fail in it, or the end of a key's
time to live. -/
inductive CartEvent where
  | call (userId guestId : Option String) (op : SessionOp) (env : Env) (fault : Site → Bool)
  | expire (key : String)

def CartEvent.step (w : World) : CartEvent → World
  | .call userId guestId op env fault => ((op.prog userId guestId env).run fault w).2
  | .expire key => { w with redis := w.redis.del key }

def CartEvent.isOf (o : Owner) : CartEvent → Bool
  | .call userId guestId _ _ _ => ownerOf userId guestId = some o
  | .expire key => key = o.key

/-- The ids that a placement has drawn for its rows. -/
def CartEvent.Draws (k : Uuid) : CartEvent → Prop
  | .call _ _ (.place _) env _ => ∃ i, env.uuid i = k
  | _ => False

theorem CartEvent.step_other (h : CartEvent.isOf o e = false) (hd : ∀ k, e.Draws k → drawn k)
    (w : World) : Alike o.key drawn w (CartEvent.step w e) := by
  cases e with
  | expire key =>
    have hne : o.key ≠ key := fun he => of_decide_eq_false h he.symm
    exact (Alike.refl _ _ w).redis (Redis.get_del_other _ hne).symm
  | call userId guestId op env f =>
    have hkey : cartKey userId guestId ≠ some o.key := by
      rw [cartKey_eq_ownerKey]
      intro hk
      obtain ⟨o', ho', he⟩ := Option.map_eq_some_iff.1 hk
      rw [Owner.key_inj he] at ho'
      exact of_decide_eq_false h ho'
    have hdrawn (input : PlaceOrderInput) (hop : op = .place input) (i : Nat) :
        drawn (env.uuid i) := by
      subst hop
      exact hd _ ⟨i, rfl⟩
    exact (op.within_alike hkey hdrawn).run (Alike.refl _ _) Alike.trans f w

end DineFlow
