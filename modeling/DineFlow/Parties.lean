import DineFlow.CartIsolation
import DineFlow.FailedRequests
import DineFlow.Strangers

namespace DineFlow
open Atomic Relational
set_option autoImplicit true

/-- What one asks for oneself: one's cart and one's account. -/
def Operation.personal : Operation → Bool
  | .addToCart _ | .cart | .removeFromCart _ | .clearCart | .me | .updateProfile _ | .logout
  | .guestSession _ | .refreshToken _ | .hello => true
  | _ => false

/-- The worlds are the same to the requests of a party: the menu, the accounts of their users,
which are there, and the carts that they may use. -/
structure SameTo (pf : Platform) (party : Request → Bool) (w w' : World) : Prop where
  menu : w.db.menuItems = w'.db.menuItems
  accounts : ∀ r k, party r = true → r.subject pf = some k →
    (lookup UserRow.id k w.db.users).isSome = true ∧
      lookup UserRow.id k w.db.users = lookup UserRow.id k w'.db.users
  carts : ∀ r key, party r = true → r.CartKey pf key → w.redis.get key = w'.redis.get key

theorem SameTo.symm (h : SameTo pf party w w') : SameTo pf party w' w := by
  refine ⟨h.menu.symm, fun r k hr hk => ?_, fun r key hr hkey => (h.carts r key hr hkey).symm⟩
  obtain ⟨hsome, hsame⟩ := h.accounts r k hr hk
  rw [hsame] at hsome
  exact ⟨hsome, hsame.symm⟩

theorem SameTo.trans (h : SameTo pf party w w') (h' : SameTo pf party w' w'') :
    SameTo pf party w w'' := by
  refine ⟨h.menu.trans h'.menu, fun r k hr hk => ?_, fun r key hr hkey => ?_⟩
  · obtain ⟨hsome, hsame⟩ := h.accounts r k hr hk
    exact ⟨hsome, hsame.trans (h'.accounts r k hr hk).2⟩
  · exact (h.carts r key hr hkey).trans (h'.carts r key hr hkey)

/-- The request is of somebody else: neither its user nor a cart that it may use is the party's. -/
structure Apart (pf : Platform) (party : Request → Bool) (r' : Request) : Prop where
  accounts : ∀ r k, party r = true → r.subject pf = some k → r'.subject pf ≠ some k
  carts : ∀ r key, party r = true → r.CartKey pf key → ¬r'.CartKey pf key

section Party

variable {pf : Platform} {party : Request → Bool} {r : Request} (hr : party r = true)
include hr

theorem authenticate_blind : (authenticate pf r).Blind (SameTo pf party) := by
  rw [authenticate]
  cases hclaims : r.claims pf with
  | none => trivial
  | some claims =>
    refine Prog.Blind.bind (Prog.blind_query _ _ fun w w' h => ?_) fun user => ?_
    · rw [userById, userById, parseUuid]
      cases hsub : Uuid.parse ((claims.get "sub").getD "undefined") with
      | none => rfl
      | some k =>
        have hk : r.subject pf = some k := by
          rw [Request.subject, hclaims]
          exact hsub
        dsimp only [Except.map]
        rw [(h.accounts r k hr hk).2]
    · cases user with
      | some u => trivial
      | none =>
        dsimp only
        split <;> trivial

theorem guards_blind (route : Route) : (guards pf route r).Blind (SameTo pf party) := by
  have hauth : (gqlAuthGuard pf route r).Blind (SameTo pf party) := by
    refine (authenticate_blind hr).bind fun outcome => ?_
    cases outcome with
    | ok c => trivial
    | error e =>
      dsimp only
      split <;> trivial
  refine hauth.bind fun caller => ?_
  refine Prog.Blind.bind ?_ fun _ => ?_
  · rw [publicGuard]
    split <;> trivial
  · cases route.guarded with
    | none => trivial
    | some roles =>
      refine hauth.bind fun caller => Prog.Blind.bind ?_ fun _ => trivial
      cases caller with
      | none =>
        rw [rolesGuard]
        split <;> trivial
      | some c =>
        rw [rolesGuard]
        split <;> trivial

end Party

theorem blind_select {E : World → World → Prop} {read : Db → Except DbError α}
    (h : ∀ w w', E w w' → read w.db = read w'.db) (site : Site) : (select site read).Blind E := by
  apply Prog.blind_query
  intro w w' hw
  rw [h w w' hw]

section Cart

variable {pf : Platform} {party : Request → Bool} {r : Request} (hr : party r = true)
variable {key : String} (hkey : r.CartKey pf key)

theorem calculateCartTotalAmount_blind (cart : Cart) :
    (calculateCartTotalAmount cart).Blind (SameTo pf party) := by
  rw [calculateCartTotalAmount]
  split
  · trivial
  · refine Prog.Blind.bind (blind_select (fun w w' h => ?_) _) fun _ => trivial
    rw [menuItemsIn, menuItemsIn, h.menu]

theorem SameTo.set (h : SameTo pf party w w') (key : String) (e : Entry) :
    SameTo pf party { w with redis := w.redis.set key e }
      { w' with redis := w'.redis.set key e } := by
  refine ⟨h.menu, h.accounts, fun r key' hr hkey => ?_⟩
  by_cases he : key' = key
  · rw [he, Redis.get_set_same, Redis.get_set_same]
  · rw [Redis.get_set_other _ _ he, Redis.get_set_other _ _ he]
    exact h.carts r key' hr hkey

theorem SameTo.del (h : SameTo pf party w w') (key : String) :
    SameTo pf party { w with redis := w.redis.del key } { w' with redis := w'.redis.del key } := by
  refine ⟨h.menu, h.accounts, fun r key' hr hkey => ?_⟩
  by_cases he : key' = key
  · rw [he, Redis.get_del_same, Redis.get_del_same]
  · rw [Redis.get_del_other _ he, Redis.get_del_other _ he]
    exact h.carts r key' hr hkey

theorem storeCart_blind (env : Env) (key : String) (guestId : Option String)
    (cart : Except ApiError Cart) : (storeCart env key guestId cart).Blind (SameTo pf party) := by
  refine (Prog.blind_ofExcept _ cart).bind fun cart => ?_
  refine (calculateCartTotalAmount_blind cart).bind fun total => ?_
  refine Prog.Blind.bind (Prog.blind_exec _ _ fun w w' h => ?_) fun _ => trivial
  exact .inr ⟨_, _, _, rfl, rfl, h.set key _⟩

theorem clearCart_blind (userId guestId : Option String) :
    (clearCart userId guestId).Blind (SameTo pf party) := by
  refine (Prog.blind_ofExcept _ _).bind fun key => ?_
  exact Prog.blind_exec _ _ fun w w' h => .inr ⟨_, _, _, rfl, rfl, h.del key⟩

include hr hkey

theorem getCached_blind (site : Site) : (getCachedObject site key).Blind (SameTo pf party) := by
  apply Prog.blind_query
  intro w w' h
  rw [h.carts r key hr hkey]

end Cart

theorem SameTo.updateUser (h : SameTo pf party w w') (hk : lookup UserRow.id k w.db.users = some u)
    (hk' : lookup UserRow.id k w'.db.users = some u) (p : ProfilePatch) :
    (∃ e, w.db.updateUser k p = .error e ∧ w'.db.updateUser k p = .error e) ∨
      ∃ db db', w.db.updateUser k p = .ok db ∧ w'.db.updateUser k p = .ok db' ∧
        lookup UserRow.id k db.users = lookup UserRow.id k db'.users ∧
        SameTo pf party { w with db := db } { w' with db := db' } := by
  have hhas : hasKey UserRow.id w.db.users k = true := hasKey_iff.2 ⟨u, lookup_mem hk⟩
  have hhas' : hasKey UserRow.id w'.db.users k = true := hasKey_iff.2 ⟨u, lookup_mem hk'⟩
  rw [Db.updateUser, Db.updateUser, hhas, hhas']
  split
  · exact .inl ⟨_, rfl, rfl⟩
  split
  · exact .inl ⟨_, rfl, rfl⟩
  · refine .inr ⟨_, _, rfl, rfl, ?_, h.menu, fun r j hr hj => ?_, h.carts⟩
    · dsimp only
      rw [lookup_updateWhere p.apply_id, lookup_updateWhere p.apply_id, hk, hk']
    · obtain ⟨hsome, hsame⟩ := h.accounts r j hr hj
      dsimp only
      rw [lookup_updateWhere p.apply_id, lookup_updateWhere p.apply_id, hsame]
      rw [hsame] at hsome
      refine ⟨?_, rfl⟩
      split
      · rw [Option.isSome_map]
        exact hsome
      · exact hsome

section Services

variable {pf : Platform} {party : Request → Bool} {r : Request} {caller : Option Caller}
variable (hr : party r = true) (hcaller : r.Passes pf caller)
include hr hcaller

theorem updateProfile_blind (input : UpdateProfileInput) :
    (updateProfile r.env (caller.bind Caller.id) input).Blind (SameTo pf party) := by
  refine Prog.Blind.bind (Prog.blind_exec _ _ fun w w' h => ?_) fun updated => ?_
  · cases caller with
    | none => exact .inr ⟨_, _, _, rfl, rfl, h⟩
    | some c =>
      cases c with
      | guest => exact .inr ⟨_, _, _, rfl, rfl, h⟩
      | user row =>
        obtain ⟨hsome, hsame⟩ := h.accounts r row.id hr (hcaller row rfl)
        obtain ⟨u, hu⟩ := Option.isSome_iff_exists.1 hsome
        have hu' := hsame.symm.trans hu
        have hhas : hasKey UserRow.id w.db.users row.id = true := hasKey_iff.2 ⟨u, lookup_mem hu⟩
        have hhas' : hasKey UserRow.id w'.db.users row.id = true :=
          hasKey_iff.2 ⟨u, lookup_mem hu'⟩
        have hid : (some (Caller.user row)).bind Caller.id = some row.id.text := rfl
        rw [hid, writeProfile, writeProfile, parseUuid_text]
        dsimp only
        rw [hhas, hhas']
        split
        · exact .inl ⟨_, rfl, rfl⟩
        · rcases h.updateUser hu hu' ⟨input.displayName.getD none, input.profileImageUrl,
            r.env.now⟩ with ⟨e, he, he'⟩ | ⟨db, db', he, he', hlookup, hsame'⟩
          · rw [he, he']
            exact .inl ⟨_, rfl, rfl⟩
          · rw [he, he']
            refine .inr ⟨_, _, _, rfl, ?_, hsame'⟩
            dsimp only [Except.map, Except.mapError]
            rw [hlookup]
  · cases updated <;> trivial

theorem addToCart_blind (input : AddToCartInput) :
    (addToCart r.env input (caller.bind Caller.id) r.guestId).Blind (SameTo pf party) := by
  rw [addToCart, getCartKey]
  cases hkey : cartKey (caller.bind Caller.id) r.guestId with
  | none => trivial
  | some key =>
    have hitem : (select .availableItem (availableItem input.menuItemId)).Blind
        (SameTo pf party) := by
      refine blind_select (fun w w' h => ?_) _
      rw [availableItem, availableItem, h.menu]
    refine hitem.bind fun row => ?_
    cases row with
    | none => trivial
    | some row =>
      exact (getCached_blind hr ⟨caller, hcaller, hkey⟩ _).bind fun cached =>
        storeCart_blind _ _ _ _

theorem removeFromCart_blind (menuItemId : String) :
    (removeFromCart r.env menuItemId (caller.bind Caller.id) r.guestId).Blind
      (SameTo pf party) := by
  rw [removeFromCart, getCartKey]
  cases hkey : cartKey (caller.bind Caller.id) r.guestId with
  | none => trivial
  | some key =>
    exact (getCached_blind hr ⟨caller, hcaller, hkey⟩ _).bind fun cached =>
      storeCart_blind _ _ _ _

theorem getCart_blind :
    (getCart r.env (caller.bind Caller.id) r.guestId).Blind (SameTo pf party) := by
  rw [getCart, getCartKey]
  cases hkey : cartKey (caller.bind Caller.id) r.guestId with
  | none => trivial
  | some key =>
    refine (getCached_blind hr ⟨caller, hcaller, hkey⟩ _).bind fun cached => ?_
    cases cached with
    | none => trivial
    | some c =>
      refine (Prog.blind_ofExcept _ _).bind fun cart => ?_
      exact (calculateCartTotalAmount_blind cart).bind fun _ => trivial

theorem me_blind : (me caller).Blind (SameTo pf party) := by
  cases caller with
  | none => trivial
  | some c =>
    cases c with
    | guest => trivial
    | user u =>
      refine Prog.Blind.bind (Prog.blind_query _ _ fun w w' h => ?_) fun user => ?_
      · rw [userById, userById, parseUuid_text]
        dsimp only [Except.map]
        rw [(h.accounts r u.id hr (hcaller u rfl)).2]
      · cases user <;> trivial

theorem resolve_blind {op : Operation} (hop : op.personal = true) :
    (op.resolve pf r caller).Blind (SameTo pf party) := by
  cases op
  case addToCart input => exact (addToCart_blind hr hcaller input).bind fun _ => trivial
  case removeFromCart menuItemId =>
    exact (removeFromCart_blind hr hcaller menuItemId).bind fun _ => trivial
  case cart => exact (getCart_blind hr hcaller).bind fun _ => trivial
  case clearCart => exact (clearCart_blind _ _).bind fun _ => trivial
  case me => exact me_blind hr hcaller
  case updateProfile input => exact (updateProfile_blind hr hcaller input).bind fun _ => trivial
  case logout | guestSession | refreshToken | hello => trivial
  all_goals cases hop

end Services

theorem handle_blind {party : Request → Bool} (hr : party r = true) {op : Operation}
    (hop : op.personal = true) : (handle pf r op).Blind (SameTo pf party) :=
  (guards_blind hr op.route).bind_returns (guards_subject pf r op.route) fun _ hcaller =>
    resolve_blind hr hcaller hop

theorem Request.CartKey.not_menu {r : Request} (h : r.CartKey pf key) : ¬IsMenuKey key := by
  obtain ⟨caller, _, hkey⟩ := h
  rw [cartKey_eq_ownerKey] at hkey
  obtain ⟨o, _, rfl⟩ := Option.map_eq_some_iff.1 hkey
  exact o.key_not_menu

theorem Operation.MenuWrites.editsMenu (h : Operation.MenuWrites env db db' op) :
    op.EditsMenu := by
  cases op
  case createMenuItem | updateMenuItem | deleteMenuItem | toggleMenuItemAvailability => trivial
  all_goals exact h.elim

theorem SameTo.of_redis (h : SameTo pf party w w)
    (hredis : ∀ r key, party r = true → r.CartKey pf key → w.redis.get key = redis.get key) :
    SameTo pf party w { w with redis := redis } :=
  ⟨rfl, fun r k hr hk => ⟨(h.accounts r k hr hk).1, rfl⟩, hredis⟩

theorem SameTo.of_db (h : SameTo pf party w w) (hmenu : db.menuItems = w.db.menuItems)
    (husers : db.users = w.db.users) : SameTo pf party w { w with db := db } := by
  refine ⟨hmenu.symm, fun r k hr hk => ⟨(h.accounts r k hr hk).1, ?_⟩, fun _ _ _ _ => rfl⟩
  dsimp only
  rw [husers]

theorem SameTo.gateway (h : SameTo pf party w w) (gateway : Gateway) :
    SameTo pf party w { w with gateway := gateway } :=
  ⟨rfl, h.accounts, fun _ _ _ _ => rfl⟩

/-- What somebody else does, other than to the menu, the party does not see. -/
theorem Effect.sameTo (h : Effect pf r' op w w') (hapart : Apart pf party r')
    (hop : ¬op.EditsMenu) (hw : SameTo pf party w w) : SameTo pf party w w' := by
  cases h with
  | none => exact hw
  | account h =>
    have ht := (Db.insertUser_ok_iff.1 h).2
    refine ⟨by dsimp only; rw [ht], fun r k hr hk => ?_, fun _ _ _ _ => rfl⟩
    obtain ⟨hsome, _⟩ := hw.accounts r k hr hk
    obtain ⟨u, hu⟩ := Option.isSome_iff_exists.1 hsome
    refine ⟨hsome, ?_⟩
    dsimp only
    rw [ht, lookup, lookup, List.find?_append]
    rw [lookup] at hu
    rw [hu, Option.some_or]
  | profile hk h =>
    obtain ⟨users, ht⟩ := writeProfile_desk h
    obtain ⟨p, hp⟩ := writeProfile_users h
    refine ⟨by dsimp only; rw [ht], fun r j hr hj => ⟨(hw.accounts r j hr hj).1, ?_⟩,
      fun _ _ _ _ => rfl⟩
    dsimp only
    rw [hp, lookup_updateWhere p.apply_id, if_neg]
    rintro rfl
    exact hapart.accounts r _ hr hj hk
  | booking _ _ h =>
    have ht := (Db.insertBooking_ok_iff.1 h).2
    exact hw.of_db (by rw [ht]) (by rw [ht])
  | bookingStatus h =>
    obtain ⟨bookings, ht⟩ := writeBookingStatus_desk h
    exact hw.of_db (by rw [ht]) (by rw [ht])
  | menu h => exact absurd h.editsMenu hop
  | menuDrop hedits => exact absurd hedits hop
  | status h =>
    obtain ⟨j, hj⟩ := updateStatus_db h
    exact hw.of_db (by rw [hj]; rfl) (by rw [hj]; rfl)
  | statusNews => exact hw.gateway _
  | order _ h =>
    have ht := (Db.insertOrder_ok_iff.1 h).2
    exact hw.of_db (by rw [ht]) (by rw [ht])
  | line h =>
    have ht := (Db.insertOrderItem_ok_iff.1 h).2
    exact hw.of_db (by rw [ht]) (by rw [ht])
  | news => exact hw.gateway _
  | cart _ hkey e =>
    refine hw.of_redis fun r key hr hk => (Redis.get_set_other _ _ ?_).symm
    rintro rfl
    exact hapart.carts r _ hr hk hkey
  | cartDrop _ hkey =>
    refine hw.of_redis fun r key hr hk => (Redis.get_del_other _ ?_).symm
    rintro rfl
    exact hapart.carts r _ hr hk hkey
  | fill _ hkey =>
    refine hw.of_redis fun r key hr hk => (Redis.get_set_other _ _ ?_).symm
    rintro rfl
    exact hk.not_menu hkey

/-- The requests of a party, by their places in the list. -/
def ofParty (party : Request → Bool) (calls : List (Request × Operation)) (i : Nat) : Bool :=
  calls[i]?.any fun c => party c.1

/-- Whatever others do at the same time, short of changing the menu, the requests that a party
makes for its carts and accounts get the answers they would get if the party were alone. -/
theorem parties_undisturbed (pf : Platform) (party : Request → Bool)
    (calls : List (Request × Operation)) (ops : List SocketOp) (w : World)
    (hparty : ∀ c ∈ calls, party c.1 = true → c.2.personal = true)
    (hothers : ∀ c ∈ calls, party c.1 = false → Apart pf party c.1 ∧ ¬c.2.EditsMenu)
    (haccounts : ∀ r k, party r = true → r.subject pf = some k → ∃ u ∈ w.db.users, u.id = k)
    (turns : List (Nat × Bool)) :
    let p := runs Pool.turn (serveLive pf calls ops w) turns
    let q := runs Pool.turn (serveLive pf calls ops w)
      (turns.filter fun t => ofParty party calls t.1)
    (∀ i, ofParty party calls i = true → p.threads[i]? = q.threads[i]?) ∧
      ∀ r key, party r = true → r.CartKey pf key →
        p.state.redis.get key = q.state.redis.get key := by
  intro p q
  have hstart : SameTo pf party w w := by
    refine ⟨rfl, fun r k hr hk => ⟨?_, rfl⟩, fun _ _ _ _ => rfl⟩
    obtain ⟨u, hu⟩ := lookup_isSome (haccounts r k hr hk)
    rw [hu]
    rfl
  suffices halike : Pool.Alike (SameTo pf party) (ofParty party calls) p q from
    ⟨halike.threads, halike.state.carts⟩
  refine Pool.runs_erase (E := SameTo pf party) (fun _ _ => SameTo.symm)
    (fun _ _ _ => SameTo.trans) turns
    ⟨hstart, fun _ _ => rfl⟩ (fun i t hi ht => ?_) fun i t hi ht => ?_
  · rcases getElem?_serveLive ht with ⟨c, hc, rfl⟩ | ⟨hnone, _⟩
    · rw [ofParty, hc] at hi
      exact handle_blind hi (hparty c (List.mem_of_getElem? hc) hi)
    · rw [ofParty, hnone] at hi
      cases hi
  · refine .inl ?_
    rcases getElem?_serveLive ht with ⟨c, hc, rfl⟩ | ⟨_, op, _, rfl⟩
    · rw [ofParty, hc] at hi
      obtain ⟨hapart, hmenu⟩ := hothers c (List.mem_of_getElem? hc) hi
      exact (handle_effect pf c.1 c.2).mono fun _ _ h hw => h.sameTo hapart hmenu hw
    · refine Prog.Within.bind (Prog.within_exec (fun _ hw => hw) _ _ fun w res h => ?_)
        fun _ => trivial
      cases h
      exact fun hw => hw.gateway _

theorem Request.CartKey.guest {r : Request} (h : r.CartKey pf key) (hs : r.subject pf = none) :
    ∃ g, r.guestId = some g ∧ key = "guest:cart:" ++ g := by
  obtain ⟨caller, hpasses, hkey⟩ := h
  have hid : caller.bind Caller.id = none := by
    cases caller with
    | none => rfl
    | some c =>
      cases c with
      | guest => rfl
      | user u =>
        have hsubject := hpasses u rfl
        rw [hs] at hsubject
        cases hsubject
  rw [hid, cartKey] at hkey
  cases hg : given r.guestId with
  | none =>
    rw [hg] at hkey
    cases hkey
  | some g =>
    rw [hg] at hkey
    cases hkey
    exact ⟨g, given_eq_some hg, rfl⟩

/-- The devices of one guest. -/
def guestParty (r : Request) : Bool :=
  decide (r.tokenCookie = none ∧ r.authorization = none ∧ r.guestId = some "g")

def addDish (guestId : String) : Request × Operation :=
  (bearer guestId, .addToCart ⟨(sampleId 4).text, 2, none⟩)

/-- Two guests fill their carts at the same time. -/
theorem parties_undisturbed_sample :
    let turns := [(0, false), (1, false), (1, false), (0, false), (1, false), (0, false),
      (0, false), (1, false)]
    let start := serveLive samplePlatform [addDish "g", addDish "h"] [] sampleWorld
    (runs Pool.turn start turns).threads[0]? =
      (runs Pool.turn start (turns.filter fun t => t.1 = 0)).threads[0]? := by
  have hsubject (r : Request) (hr : guestParty r = true) :
      r.subject samplePlatform = none ∧ r.guestId = some "g" := by
    obtain ⟨htoken, hbearer, hguest⟩ := of_decide_eq_true hr
    refine ⟨?_, hguest⟩
    rw [Request.subject, Request.claims, Request.jwt, htoken, hbearer]
    rfl
  refine (parties_undisturbed samplePlatform guestParty [addDish "g", addDish "h"] [] sampleWorld
    (by decide) (fun c hc hparty => ?_) (fun r k hr hk => ?_) _).1 0 (by decide)
  · have hother : c = addDish "h" := by
      rcases List.mem_cons.1 hc with rfl | hc
      · cases hparty
      · exact List.mem_singleton.1 hc
    subst hother
    refine ⟨⟨fun r k hr hk => ?_, fun r key hr hkey hkey' => ?_⟩, id⟩
    · rw [(hsubject r hr).1] at hk
      cases hk
    · obtain ⟨g, hg, rfl⟩ := hkey.guest (hsubject r hr).1
      obtain ⟨g', hg', he⟩ := hkey'.guest rfl
      rw [(hsubject r hr).2] at hg
      cases hg
      cases hg'
      exact absurd (append_cancel he) (by decide)
  · rw [(hsubject r hr).1] at hk
    cases hk

end DineFlow
