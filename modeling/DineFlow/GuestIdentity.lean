import DineFlow.Callers
import DineFlow.CartKeys

namespace DineFlow
open Atomic Relational
set_option autoImplicit true

/-- The six operations that a guest can use. -/
inductive GuestOp where
  | addToCart (input : AddToCartInput)
  | cart
  | removeFromCart (menuItemId : String)
  | clearCart
  | placeOrder (input : PlaceOrderInput)
  | myOrders

def GuestOp.op : GuestOp → Operation
  | .addToCart input => .addToCart input
  | .cart => .cart
  | .removeFromCart menuItemId => .removeFromCart menuItemId
  | .clearCart => .clearCart
  | .placeOrder input => .placeOrder input
  | .myOrders => .myOrders

/-- The user a request acts for, if its web token is good. -/
def userIdOf (pf : Platform) (r : Request) (db : Db) : Option String :=
  (callerOf pf r db).toOption.bind Caller.id

/-- The session of the request's guest token, if `verifyGuestToken` accepts it. -/
def Request.session (pf : Platform) (r : Request) : Option String :=
  (given r.guestId).bind fun t =>
    (verifyGuestToken pf r.env.seconds t).toOption.map GuestTokenPayload.sessionId

/-- The guest whose cart or orders a statement reads or writes when nobody is logged in. -/
def Request.addressed (r : Request) : Site → Option String
  | .cartGet | .cartSet | .cartDel | .orderInsert | .myOrders => given r.guestId
  | _ => none

/-- A request that shows no good token touches no guest's data, and requests that show tokens of
one session work on one cart. -/
structure GuestIdentity (pf : Platform) (g : GuestOp) (r r' : Request) (w : World) : Prop where
  refused : userIdOf pf r w.db = none → r.session pf = none →
    ∀ site ∈ (handle pf r g.op).sites noFault w, r.addressed site = none
  shared : ∀ s, r.session pf = some s → r'.session pf = some s →
    cartKey (userIdOf pf r w.db) r.guestId = cartKey (userIdOf pf r' w.db) r'.guestId

/-- The request is for a dish that cannot be ordered. -/
def GuestOp.Stopped (db : Db) : GuestOp → Prop
  | .addToCart input => ∀ row, availableItem input.menuItemId db ≠ .ok (some row)
  | _ => False

theorem given_userIdOf (pf : Platform) (r : Request) (db : Db) :
    given (userIdOf pf r db) = userIdOf pf r db := by
  rw [userIdOf]
  cases callerOf pf r db with
  | error e => rfl
  | ok c =>
    cases c with
    | guest => rfl
    | user u => exact given_text u.id

theorem sites_authenticate (pf : Platform) (r : Request) (w : World) :
    ∀ site ∈ (authenticate pf r).sites noFault w, site = .userById := by
  intro site hsite
  rw [authenticate] at hsite
  split at hsite
  · exact absurd hsite List.not_mem_nil
  · rw [Prog.bind_eq, Prog.sites_bind_ok (run_findUserById _ w)] at hsite
    rcases List.mem_append.1 hsite with hsite | hsite
    · exact List.mem_singleton.1 hsite
    · split at hsite
      · exact absurd hsite List.not_mem_nil
      · split at hsite <;> exact absurd hsite List.not_mem_nil

theorem sites_handle (pf : Platform) (r : Request) (h : Operation.route op = openRoute)
    (w : World) : (handle pf r op).sites noFault w = (authenticate pf r).sites noFault w ++
      (op.resolve pf r (callerOf pf r w.db).toOption).sites noFault w := by
  rw [handle, h, guards_open, Prog.bind_eq, Prog.bind_assoc,
    Prog.sites_bind_ok (run_authenticate pf r w)]
  rfl

theorem GuestOp.route (g : GuestOp) : g.op.route = openRoute := by
  cases g <;> rfl

theorem mem_sites_bind {p : Api α} (g : α → Api β) (h : site ∈ p.sites f w) :
    site ∈ (p.bind g).sites f w := by
  rw [Prog.sites_bind]
  exact List.mem_append_left _ h

theorem GuestOp.reaches (g : GuestOp) (pf : Platform) (ht : given r.guestId = some t)
    (hcaller : caller.bind Caller.id = none) (hg : ¬g.Stopped w.db) :
    ∃ site ∈ (g.op.resolve pf r caller).sites noFault w, r.addressed site = some t := by
  have hkey : cartKey none r.guestId = some ("guest:cart:" ++ t) := by
    rw [cartKey, ht]
    rfl
  have hget : getCartKey none r.guestId = .ok ("guest:cart:" ++ t) := by
    rw [getCartKey, hkey]
  cases g with
  | addToCart input =>
    obtain ⟨row, hrow⟩ := not_forall_not.1 hg
    refine ⟨.cartGet, mem_sites_bind _ ?_, ht⟩
    have hrun : (select .availableItem (availableItem input.menuItemId)).run noFault w =
        (.ok (some row), w) := by
      rw [select, Prog.run_query, hrow]
      rfl
    rw [hcaller, DineFlow.addToCart, hget, Prog.ofExcept_ok, Prog.bind_eq, Prog.ret_bind,
      Prog.bind_eq, Prog.sites_bind_ok hrun]
    exact List.mem_append_right _ List.mem_cons_self
  | cart =>
    refine ⟨.cartGet, mem_sites_bind _ ?_, ht⟩
    rw [hcaller, getCart, hget]
    exact List.mem_cons_self
  | removeFromCart menuItemId =>
    refine ⟨.cartGet, mem_sites_bind _ ?_, ht⟩
    rw [hcaller, DineFlow.removeFromCart, hget]
    exact List.mem_cons_self
  | clearCart =>
    refine ⟨.cartDel, mem_sites_bind _ ?_, ht⟩
    rw [hcaller, DineFlow.clearCart, hget]
    exact List.mem_cons_self
  | placeOrder input =>
    refine ⟨.cartGet, mem_sites_bind _ ?_, ht⟩
    rw [hcaller, DineFlow.placeOrder, hkey]
    exact List.mem_cons_self
  | myOrders =>
    refine ⟨.myOrders, mem_sites_bind _ ?_, ht⟩
    rw [hcaller, getMyOrders, if_neg (by rw [ht]; simp)]
    exact List.mem_cons_self

theorem sites_select (site : Site) (read : Db → Except DbError α) (w : World) :
    (select site read).sites noFault w = [site] := by
  rw [select, Prog.query, Prog.sites]
  cases read w.db <;> rfl

theorem GuestOp.Stopped.sites {g : GuestOp} (h : g.Stopped w.db) (pf : Platform) (r : Request)
    (caller : Option Caller) :
    ∀ site ∈ (g.op.resolve pf r caller).sites noFault w, site = .availableItem := by
  cases g with
  | addToCart input =>
    intro site hsite
    change site ∈ Prog.sites noFault ((DineFlow.addToCart r.env input _ _).bind _) w at hsite
    rw [DineFlow.addToCart, Prog.bind_eq, Prog.bind_assoc] at hsite
    cases hkey : getCartKey (caller.bind Caller.id) r.guestId with
    | error e =>
      rw [hkey] at hsite
      exact absurd hsite List.not_mem_nil
    | ok key =>
      rw [hkey, Prog.ofExcept_ok, Prog.ret_bind, Prog.bind_eq, Prog.bind_assoc, Prog.sites_bind,
        sites_select, select, Prog.run_query] at hsite
      rcases List.mem_append.1 hsite with hsite | hsite
      · exact List.mem_singleton.1 hsite
      · cases hrow : availableItem input.menuItemId w.db with
        | error e =>
          rw [hrow] at hsite
          exact absurd hsite List.not_mem_nil
        | ok row =>
          cases row with
          | some row => exact absurd hrow (h row)
          | none =>
            rw [hrow] at hsite
            exact absurd hsite List.not_mem_nil
  | _ => exact h.elim

/-- The guest id is taken as it comes: it identifies its bearer only if somebody is logged in, no
guest id is sent or a good one, or the dish is refused first; and one session is one cart only
for one user, or for the very same token. -/
theorem guestIdentity_iff (pf : Platform) (g : GuestOp) (r r' : Request) (w : World) :
    GuestIdentity pf g r r' w ↔
      (userIdOf pf r w.db = none → r.session pf = none →
        given r.guestId = none ∨ g.Stopped w.db) ∧
      ∀ s, r.session pf = some s → r'.session pf = some s →
        userIdOf pf r w.db = userIdOf pf r' w.db ∧
          (userIdOf pf r w.db = none → given r.guestId = given r'.guestId) := by
  have hsites := sites_handle pf r g.route w
  constructor
  · intro h
    refine ⟨fun huser hsession => ?_, fun s hs hs' => ?_⟩
    · by_contra hno
      obtain ⟨hgiven, hstop⟩ := not_or.1 hno
      obtain ⟨t, ht⟩ := Option.ne_none_iff_exists'.1 hgiven
      obtain ⟨site, hsite, haddr⟩ := g.reaches pf ht huser hstop
      have hnone := h.refused huser hsession site (by
        rw [hsites]
        exact List.mem_append_right _ hsite)
      rw [haddr] at hnone
      cases hnone
    · have hkey := cartKey_eq_iff.1 (h.shared s hs hs')
      rwa [given_userIdOf, given_userIdOf] at hkey
  · intro h
    refine ⟨fun huser hsession site hsite => ?_, fun s hs hs' => ?_⟩
    · rcases h.1 huser hsession with hgiven | hstop
      · cases site <;> first | rfl | exact hgiven
      · rw [hsites] at hsite
        rcases List.mem_append.1 hsite with hsite | hsite
        · rw [sites_authenticate pf r w site hsite]
          rfl
        · rw [hstop.sites pf r _ site hsite]
          rfl
    · apply cartKey_eq_iff.2
      rw [given_userIdOf, given_userIdOf]
      exact h.2 s hs hs'

/-- A guest id without a signature opens a cart, and the same token with an appendix opens
another one. -/
theorem guestIdentity_fails :
    ¬GuestIdentity samplePlatform .cart (bearer "forged") (bearer "forged") sampleWorld ∧
      ¬GuestIdentity samplePlatform .cart (bearer "payload.signature")
        (bearer "payload.signature.again") sampleWorld := by
  constructor
  · intro h
    have hreads : Site.cartGet ∈
        (handle samplePlatform (bearer "forged") .cart).sites noFault sampleWorld := by
      decide +kernel
    have hnone := h.refused (by decide +kernel) (by decide +kernel) .cartGet hreads
    cases hnone
  · intro h
    have hkeys := h.shared "g" (by decide +kernel) (by decide +kernel)
    revert hkeys
    decide +kernel

end DineFlow
