import DineFlow.Effects

namespace DineFlow
open Atomic Relational
set_option autoImplicit true

/-- The columns of a user that decide who can log in, and as what. -/
structure Account where
  id : Uuid
  email : String
  passwordHash : String
  role : UserRole
  createdAt : Option Nat
  deriving DecidableEq, Repr

def UserRow.account (u : UserRow) : Account := ⟨u.id, u.email, u.passwordHash, u.role, u.createdAt⟩

@[simp] theorem UserRow.account_apply (p : ProfilePatch) (u : UserRow) :
    (p.apply u).account = u.account := rfl

/-- A booking as it was asked for, without what the desk makes of it. -/
def BookingRow.asked (b : BookingRow) : BookingRow := { b with status := "", updatedAt := none }

@[simp] theorem BookingRow.asked_setStatus (s : String) (now : Nat) (b : BookingRow) :
    (b.setStatus s now).asked = b.asked := rfl

/-- The records of a restaurant's business. -/
structure Ledger where
  accounts : List Account
  orders : List OrderRow
  lines : List OrderItemRow
  bookings : List BookingRow

/-- One record more. -/
inductive Record where
  | account (a : Account)
  | order (o : OrderRow)
  | line (l : OrderItemRow)
  | booking (b : BookingRow)

def Ledger.add (l : Ledger) : Record → Ledger
  | .account a => { l with accounts := l.accounts ++ [a] }
  | .order o => { l with orders := l.orders ++ [o] }
  | .line i => { l with lines := l.lines ++ [i] }
  | .booking b => { l with bookings := l.bookings ++ [b] }

/-- The records in the database, with what may be changed later left out. -/
def Db.ledger (db : Db) : Ledger where
  accounts := db.users.map UserRow.account
  orders := db.orders.map OrderRow.contents
  lines := db.orderItems
  bookings := db.bookings.map BookingRow.asked

/-- The request asks for this record, in the name of nobody but its own user. What a placement
enters are the items of `basket`, all of them on one order at the table that its input names. -/
def Asks (V : World → Prop) (pf : Platform) (basket : List OrderItemData) :
    Request × Operation → Record → Prop
  | (r, .register input), .account a => a = (newUser pf r.env input).stored.account
  | (r, .placeOrder input), .order o => r.Orders V pf input basket ∧
      ∃ table u, input.Seats V table ∧ r.WritesFor pf u ∧
        o = (newOrder r.env input table u r.guestId (OrderItemData.amounts basket)).stored.contents
  | (r, .placeOrder input), .line l => r.Orders V pf input basket ∧
      ∃ n d u, basket[n]? = some d ∧ Uuid.parse d.menuItemId = some u ∧
        l = newLine r.env (r.env.uuid 0) n u d
  | (r, .createBooking input), .booking b =>
      ∃ restaurant u, Uuid.parse input.restaurantId = some restaurant ∧ r.WritesFor pf u ∧
        b = (newBooking r.env input restaurant u).stored.asked
  | _, _ => False

theorem Asks.of_nil (h : Asks V pf [] c x) (basket : List OrderItemData) :
    Asks V pf basket c x := by
  obtain ⟨r, op⟩ := c
  cases op
  case register => cases x <;> exact h
  case createBooking => cases x <;> exact h
  case placeOrder =>
    cases x
    case order => exact absurd rfl h.1.ne_nil
    case line => exact absurd rfl h.1.ne_nil
    all_goals exact h
  all_goals exact h.elim

/-- The tables that only the seed scripts fill. -/
structure SameHouse (db db' : Db) : Prop where
  restaurants : db'.restaurants = db.restaurants
  tables : db'.tables = db.tables
  menuCategories : db'.menuCategories = db.menuCategories
  cartItems : db'.cartItems = db.cartItems

theorem SameHouse.refl (db : Db) : SameHouse db db := ⟨rfl, rfl, rfl, rfl⟩

theorem SameHouse.trans (h : SameHouse db db') (h' : SameHouse db' db'') : SameHouse db db'' :=
  ⟨h'.restaurants.trans h.restaurants, h'.tables.trans h.tables,
    h'.menuCategories.trans h.menuCategories, h'.cartItems.trans h.cartItems⟩

/-- What a step does to the records: nothing, or one record more. -/
structure Writes (A : Record → Prop) (db db' : Db) : Prop where
  house : SameHouse db db'
  ledger : db'.ledger = db.ledger ∨ ∃ record, A record ∧ db'.ledger = db.ledger.add record

theorem Writes.refl (db : Db) : Writes A db db := ⟨.refl db, .inl rfl⟩

theorem Writes.of_users (h : db'.toTables = { db.toTables with users := users })
    (hu : users.map UserRow.account = db.users.map UserRow.account) : Writes A db db' := by
  refine ⟨⟨by rw [h], by rw [h], by rw [h], by rw [h]⟩, .inl ?_⟩
  rw [Db.ledger, h]
  dsimp only
  rw [hu]
  rfl

theorem Writes.of_bookings (h : db'.toTables = { db.toTables with bookings := bookings })
    (hb : bookings.map BookingRow.asked = db.bookings.map BookingRow.asked) :
    Writes A db db' := by
  refine ⟨⟨by rw [h], by rw [h], by rw [h], by rw [h]⟩, .inl ?_⟩
  rw [Db.ledger, h]
  dsimp only
  rw [hb]
  rfl

theorem Db.insertUser_writes (h : Db.insertUser db u = .ok db')
    (ha : A (.account u.stored.account)) : Writes A db db' := by
  have ht := (Db.insertUser_ok_iff.1 h).2
  refine ⟨⟨by rw [ht], by rw [ht], by rw [ht], by rw [ht]⟩, .inr ⟨_, ha, ?_⟩⟩
  rw [Db.ledger, ht, List.map_append]
  rfl

theorem Db.insertBooking_writes (h : Db.insertBooking db b = .ok db')
    (ha : A (.booking b.stored.asked)) : Writes A db db' := by
  have ht := (Db.insertBooking_ok_iff.1 h).2
  refine ⟨⟨by rw [ht], by rw [ht], by rw [ht], by rw [ht]⟩, .inr ⟨_, ha, ?_⟩⟩
  rw [Db.ledger, ht, List.map_append]
  rfl

theorem Db.insertOrder_writes (h : Db.insertOrder db o = .ok db')
    (ha : A (.order o.stored.contents)) : Writes A db db' := by
  have ht := (Db.insertOrder_ok_iff.1 h).2
  refine ⟨⟨by rw [ht], by rw [ht], by rw [ht], by rw [ht]⟩, .inr ⟨_, ha, ?_⟩⟩
  rw [Db.ledger, ht, List.map_append]
  rfl

theorem Db.insertOrderItem_writes (h : Db.insertOrderItem db l = .ok db') (ha : A (.line l)) :
    Writes A db db' := by
  have ht := (Db.insertOrderItem_ok_iff.1 h).2
  refine ⟨⟨by rw [ht], by rw [ht], by rw [ht], by rw [ht]⟩, .inr ⟨_, ha, ?_⟩⟩
  rw [Db.ledger, ht]
  rfl

theorem writeProfile_writes (h : writeProfile env (some (Uuid.text k)) input db = .ok res) :
    Writes A db res.2 := by
  obtain ⟨users, ht⟩ := writeProfile_desk h
  obtain ⟨p, hp⟩ := writeProfile_users h
  rw [ht] at hp
  apply Writes.of_users ht
  calc users.map UserRow.account
      = (updateWhere UserRow.id k p.apply db.users).map UserRow.account :=
        congrArg (List.map UserRow.account) hp
    _ = db.users.map UserRow.account := map_key_updateWhere (UserRow.account_apply p) k _

theorem writeBookingStatus_writes (h : writeBookingStatus env bookingId status db = .ok res) :
    Writes A db res.2 := by
  rw [writeBookingStatus] at h
  split at h
  · cases h
  · rename_i k _
    obtain ⟨db', hdb, rfl⟩ := map_ok h
    exact .of_bookings (Db.updateBooking_ok hdb)
      (map_key_updateWhere (BookingRow.asked_setStatus status env.now) k _)

theorem updateStatus_writes (h : updateStatus orderId status db = .ok res) :
    Writes A db res.2 := by
  obtain ⟨k, hk⟩ := updateStatus_db h
  rw [hk]
  refine ⟨⟨rfl, rfl, rfl, rfl⟩, .inl ?_⟩
  have horders : (db.updateOrderStatus k status).orders.map OrderRow.contents =
      db.orders.map OrderRow.contents :=
    map_key_updateWhere (OrderRow.contents_setStatus status) k _
  rw [Db.ledger, horders]
  rfl

theorem Operation.MenuWrites.writes (h : Operation.MenuWrites env db db' op) :
    Writes A db db' := by
  obtain ⟨items, favorites, ht⟩ := h.tables
  refine ⟨⟨by rw [ht], by rw [ht], by rw [ht], by rw [ht]⟩, .inl ?_⟩
  rw [Db.ledger, ht]
  rfl

/-- Each effect of a request adds at most one record. -/
theorem Effect.writes {A : Record → Prop} (h : Effect pf r op w w')
    (haccount : ∀ input, op = .register input →
      A (.account (newUser pf r.env input).stored.account))
    (hbooking : ∀ input restaurant u, op = .createBooking input →
      Uuid.parse input.restaurantId = some restaurant → r.WritesFor pf u →
      A (.booking (newBooking r.env input restaurant u).stored.asked))
    (horder : ∀ o, w.db.insertOrder o = .ok w'.db → r.WritesFor pf o.userId →
      A (.order o.stored.contents))
    (hline : ∀ l, w.db.insertOrderItem l = .ok w'.db → A (.line l)) : Writes A w.db w'.db := by
  cases h with
  | account h => exact Db.insertUser_writes h (haccount _ rfl)
  | profile _ h => exact writeProfile_writes h
  | booking hr hu h => exact Db.insertBooking_writes h (hbooking _ _ _ rfl hr hu)
  | bookingStatus h => exact writeBookingStatus_writes h
  | menu h => exact h.writes
  | status h => exact updateStatus_writes h
  | order hu h => exact Db.insertOrder_writes h (horder _ h hu)
  | line h => exact Db.insertOrderItem_writes h (hline _ h)
  | none => exact .refl _
  | menuDrop => exact .refl _
  | statusNews => exact .refl _
  | news => exact .refl _
  | cart => exact .refl _
  | cartDrop => exact .refl _
  | fill => exact .refl _

theorem Silent.no_order {w w' : World} (hs : Silent w w') : w.db.insertOrder o ≠ .ok w'.db := by
  intro h
  have hlength := congrArg List.length hs.orders
  rw [(Db.insertOrder_ok_iff.1 h).2] at hlength
  simp at hlength

theorem Silent.no_line {w w' : World} (hs : Silent w w') :
    w.db.insertOrderItem l ≠ .ok w'.db := by
  intro h
  have hlength := congrArg List.length hs.lines
  rw [(Db.insertOrderItem_ok_iff.1 h).2] at hlength
  simp at hlength

/-- What a step of the request with this index, or of a socket, does. -/
def Touches (pf : Platform) (calls : List (Request × Operation)) (i : Nat) (w w' : World) : Prop :=
  (∃ c, calls[i]? = some c ∧ Effect pf c.1 c.2 w w') ∨ w'.db = w.db

theorem serveLive_touches (pf : Platform) (calls : List (Request × Operation))
    (ops : List SocketOp) (w : World) :
    (serveLive pf calls ops w).EachWithin (Touches pf calls) := by
  intro i t ht
  rcases getElem?_serveLive ht with ⟨c, hc, rfl⟩ | ⟨_, op, hop, rfl⟩
  · exact (handle_effect pf c.1 c.2).mono fun _ _ h => .inl ⟨c, hc, h⟩
  · refine Prog.Within.bind (Prog.within_exec (fun _ => .inr rfl) _ _ fun w res h => ?_)
      fun _ => trivial
    cases h
    exact .inr rfl

/-- What a placement enters, once it has opened its order. -/
def basketOf (g : Option Placing) : List OrderItemData := (g.map Placing.data).getD []

section Steps

variable {V : World → Prop} {pf : Platform} {calls : List (Request × Operation)}

/-- The records so far, and what the placements under way have taken into their baskets. -/
structure Chronicle (V : World → Prop) (pf : Platform) (calls : List (Request × Operation))
    (start : Db) (w : World) (gs : Nat → Option Placing) : Prop where
  opened : ∀ i p, gs i = some p → MayOpen V pf calls i p.env p.order p.data
  house : SameHouse start w.db
  records : ∃ records, (∀ x ∈ records, ∃ i c, calls[i]? = some c ∧
      Asks V pf (basketOf (gs i)) c x) ∧
    w.db.ledger = runs Ledger.add start.ledger records

theorem PlacingStep.keeps_basket (hs : PlacingStep P g w w' g') :
    g = none ∨ basketOf g' = basketOf g := by
  cases hs with
  | silent => exact .inr rfl
  | opened => exact .inl rfl
  | line => exact .inr rfl
  | announced => exact .inr rfl

theorem PlacingStep.opens (hs : PlacingStep P g w w' g')
    (hg : ∀ p, g = some p → P p.env p.order p.data) :
    ∀ p, g' = some p → P p.env p.order p.data := by
  rintro p rfl
  cases hs with
  | silent => exact hg p rfl
  | opened hP => exact hP
  | line =>
    have hp := hg _ rfl
    exact hp
  | announced =>
    have hp := hg _ rfl
    exact hp

/-- A step of a request adds at most one record, and one that the request asks for. -/
theorem PlacingStep.writes (hs : PlacingStep (MayOpen V pf calls i) g w w' g')
    (ht : Touches pf calls i w w')
    (hg : ∀ p, g = some p → MayOpen V pf calls i p.env p.order p.data) :
    Writes (fun x => ∃ c, calls[i]? = some c ∧ Asks V pf (basketOf g') c x) w.db w'.db := by
  cases hs with
  | silent hs =>
    rcases ht with ⟨c, hc, heffect⟩ | hdb
    · obtain ⟨r, op⟩ := c
      refine heffect.writes (fun input he => ?_) (fun input restaurant u he hr hu => ?_)
        (fun o h => absurd h hs.no_order) fun l h => absurd h hs.no_line
      · obtain rfl : op = .register input := he
        exact ⟨_, hc, rfl⟩
      · obtain rfl : op = .createBooking input := he
        exact ⟨_, hc, restaurant, u, hr, hu, rfl⟩
    · rw [hdb]
      exact .refl _
  | opened hP h =>
    obtain ⟨r, input, hc, _, horders, table, u, htable, hu, ho⟩ := hP
    exact Db.insertOrder_writes h
      ⟨_, hc, horders, table, u, htable, hu, congrArg OrderRow.contents ho⟩
  | line hd hu _ h =>
    obtain ⟨r, input, hc, henv, horders, table, v, _, _, ho⟩ := hg _ rfl
    refine Db.insertOrderItem_writes h ⟨_, hc, horders, _, _, _, hd, parseUuid_ok_iff.1 hu, ?_⟩
    rw [henv, ho]
    rfl
  | announced => exact .refl _

-- The basket of a placement is filled once, before anything is recorded for it.
theorem Asks.still {gs : Nat → Option Placing} {i : Nat} {g' : Option Placing}
    (hs : PlacingStep P (gs i) w w' g') (ha : Asks V pf (basketOf (gs j)) c x) :
    Asks V pf (basketOf (Function.update gs i g' j)) c x := by
  by_cases hj : j = i
  · subst hj
    rw [Function.update_self]
    rcases hs.keeps_basket with hnone | hsame
    · rw [hnone] at ha
      exact ha.of_nil _
    · rw [hsame]
      exact ha
  · rw [Function.update_of_ne hj]
    exact ha

theorem Chronicle.step (w : World) (gs : Nat → Option Placing) (i : Nat) (w' : World)
    (g' : Option Placing) (h : Chronicle V pf calls start w gs)
    (hs : PlacingStep (MayOpen V pf calls i) (gs i) w w' g' ∧ Touches pf calls i w w') :
    Chronicle V pf calls start w' (Function.update gs i g') := by
  have hopened := hs.1.opens (h.opened i)
  obtain ⟨hhouse, hwrites⟩ := hs.1.writes hs.2 (h.opened i)
  obtain ⟨records, hasked, hledger⟩ := h.records
  have hstill : ∀ x ∈ records, ∃ j c, calls[j]? = some c ∧
      Asks V pf (basketOf (Function.update gs i g' j)) c x := by
    intro x hx
    obtain ⟨j, c, hc, ha⟩ := hasked x hx
    exact ⟨j, c, hc, ha.still hs.1⟩
  refine ⟨fun j p hp => ?_, h.house.trans hhouse, ?_⟩
  · rcases Pool.update_some hp with ⟨rfl, hg⟩ | ⟨_, hg⟩
    · exact hopened p hg
    · exact h.opened j p hg
  · rcases hwrites with hsame | ⟨record, ⟨c, hc, ha⟩, hmore⟩
    · exact ⟨records, hstill, hsame.trans hledger⟩
    · refine ⟨records ++ [record], fun x hx => ?_, ?_⟩
      · rcases List.mem_append.1 hx with hx | hx
        · exact hstill x hx
        · rw [List.mem_singleton.1 hx]
          exact ⟨i, c, hc, by rwa [Function.update_self]⟩
      · rw [hmore, hledger, runs_append]
        rfl

end Steps

/-- The states that a run comes through. -/
def Visited (p : Pool (Api Response) Site World) (turns : List (Nat × Bool)) (w : World) : Prop :=
  ∃ past, past <+: turns ∧ w = (runs Pool.turn p past).state

/-- However requests interleave and whichever of their statements fail, the records are those of
before followed by new ones, and the house stays as it is. Each new record is one that a request
asked for: an account or a booking as in its input, an order at the table of its input, or a line
of that order, for the items that the placement found in its cart or its input, at the prices that
it found on the menu. -/
theorem history_only_grows (pf : Platform) (calls : List (Request × Operation))
    (ops : List SocketOp) (w : World) (turns : List (Nat × Bool)) :
    let db := (runs Pool.turn (serveLive pf calls ops w) turns).state.db
    SameHouse w.db db ∧ ∃ (basket : Nat → List OrderItemData) (records : List Record),
      (∀ x ∈ records, ∃ i c, calls[i]? = some c ∧
        Asks (Visited (serveLive pf calls ops w) turns) pf (basket i) c x) ∧
      db.ledger = runs Ledger.add w.db.ledger records := by
  intro db
  let V := Visited (serveLive pf calls ops w) turns
  have hstart : Chronicle V pf calls w.db w fun _ => none := by
    refine ⟨fun i p hp => ?_, .refl _, [], fun x hx => ?_, rfl⟩
    · cases hp
    · cases hx
  obtain ⟨gs, _, hend⟩ := Pool.runs_follow (V := V) (fun past hpast => ⟨past, hpast, rfl⟩)
    (fun w gs i w' g' _ => Chronicle.step w gs i w' g')
    ((serveLive_follows V pf calls ops w).and (serveLive_touches pf calls ops w)) hstart
  obtain ⟨records, hasked, hledger⟩ := hend.records
  exact ⟨hend.house, fun i => basketOf (gs i), records, hasked, hledger⟩

end DineFlow
