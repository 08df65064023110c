import DineFlow.Callers
import DineFlow.CartKeys
import DineFlow.Placement

namespace DineFlow
open Atomic Relational
set_option autoImplicit true

def OrderRow.rename (σ : String → String) (o : OrderRow) : OrderRow :=
  { o with guestId := o.guestId.map σ }

theorem Tables.Valid.rename (hv : Tables.Valid t) (σ : String → String) :
    Tables.Valid { t with orders := t.orders.map (OrderRow.rename σ) } where
  __ := hv
  orderIds := hv.orderIds.map (by exact fun _ => rfl)
  orderRestaurant := hv.orderRestaurant.map (by exact fun _ => rfl)
  orderTable := hv.orderTable.map (by exact fun _ => rfl)
  orderUser := hv.orderUser.map (by exact fun _ => rfl)
  lineOrder := hv.lineOrder.map_target (by exact fun _ => rfl)

def Db.rename (σ : String → String) (db : Db) : Db where
  toTables := { db.toTables with orders := db.orders.map (OrderRow.rename σ) }
  valid := db.valid.rename σ

/-- The key of a guest's cart, with the guest's token renamed. -/
def renameKey (σ : String → String) (key : String) : String :=
  if "guest:cart:".toList.isPrefixOf key.toList then
    "guest:cart:" ++ σ (String.ofList (key.toList.drop "guest:cart:".length))
  else key

def Redis.rename (σ : String → String) (r : Redis) : Redis :=
  ⟨r.entries.map fun p => (renameKey σ p.1, p.2)⟩

/-- The same system, with the guests' tokens renamed wherever they are stored. -/
def World.rename (σ : String → String) (w : World) : World :=
  ⟨w.db.rename σ, w.redis.rename σ, w.gateway⟩

def anonymous (env : Env) (plan : RowOrder) : Request := ⟨none, none, none, none, env, plan⟩

/-- What the `order` query answers to somebody who presents no token. -/
def orderAnswer (pf : Platform) (env : Env) (plan : RowOrder) (orderId : String) (w : World) :
    Except ApiError Response :=
  ((handle pf (anonymous env plan) (.order orderId)).run noFault w).1

/-- The answer does not depend on what the guests' tokens are, and holds no string that would
pass for a guest. -/
structure Undisclosed (pf : Platform) (env : Env) (plan : RowOrder) (orderId : String)
    (w : World) : Prop where
  same : ∀ σ : Equiv.Perm String, σ "" = "" →
    orderAnswer pf env plan orderId (w.rename σ) = orderAnswer pf env plan orderId w
  hidden : ∀ order, orderAnswer pf env plan orderId w = .ok (.order order) →
    given order.guestId = none

def Order.rename (σ : String → String) (o : Order) : Order :=
  { o with guestId := o.guestId.map σ }

theorem orderById_rename (σ : String → String) (k : String) (db : Db) :
    orderById k (db.rename σ) = (orderById k db).map (Option.map (OrderRow.rename σ)) := by
  rw [orderById, orderById]
  cases parseUuid k with
  | error e => rfl
  | ok u => exact congrArg Except.ok (lookup_map (by exact fun _ => rfl) u db.orders)

/-- A renaming of the tokens shows in the order's guest id, and nowhere else. -/
theorem getOrderWithDetails_rename (σ : String → String) (k : String) (w : World) :
    ((getOrderWithDetails k).run noFault (w.rename σ)).1 =
      ((getOrderWithDetails k).run noFault w).1.map (Order.rename σ) := by
  simp only [getOrderWithDetails, Prog.bind_eq, run_select_bind, World.rename, orderById_rename]
  cases orderById k w.db with
  | error e => rfl
  | ok order =>
    cases order with
    | none => rfl
    | some order =>
      simp only [Except.map, Option.map_some, orElse, Prog.ret_bind, run_select_bind]
      have ht : tableOfOrder (order.rename σ) (w.db.rename σ) = tableOfOrder order w.db := rfl
      rw [ht]
      cases tableOfOrder order w.db with
      | none => rfl
      | some table =>
        simp only [Prog.ret_bind, run_select_bind]
        have hl : linesOf (order.rename σ).id (w.db.rename σ) = linesOf order.id w.db := rfl
        have hm : ∀ ids, menuItemsIn ids (w.db.rename σ) = menuItemsIn ids w.db := fun _ => rfl
        rw [hl, hm]
        cases menuItemsIn ((linesOf order.id w.db).map fun l => l.menuItemId.text) w.db <;> rfl

theorem orderAnswer_eq (pf : Platform) (env : Env) (plan : RowOrder) (orderId : String)
    (w : World) : orderAnswer pf env plan orderId w =
      ((getOrderWithDetails orderId).run noFault w).1.map .order := by
  rw [orderAnswer, run_handle_open pf _ rfl]
  change (((getOrderWithDetails orderId).bind fun order =>
    .ret (Response.order order)).run noFault w).1 = _
  rw [Prog.run_bind]
  cases (getOrderWithDetails orderId).run noFault w with
  | mk result w' => cases result <;> rfl

theorem orderAnswer_ok_iff : orderAnswer pf env plan orderId w = .ok (.order v) ↔
    ∃ order table, orderById orderId w.db = .ok (some order) ∧
      tableOfOrder order w.db = some table ∧ linesOf order.id w.db ≠ [] ∧
      v = orderView order table (linesOf order.id w.db) (menuOf (linesOf order.id w.db) w.db) := by
  have hok : orderAnswer pf env plan orderId w = .ok (.order v) ↔
      ((getOrderWithDetails orderId).run noFault w).1 = .ok v := by
    rw [orderAnswer_eq]
    cases ((getOrderWithDetails orderId).run noFault w).1 with
    | error e => exact iff_of_false (fun h => by cases h) (fun h => by cases h)
    | ok v' => simp [Except.map]
  rw [hok, getOrderWithDetails_ok_iff]
  exact and_iff_right detailUp_noFault

theorem map_blank {σ : String → String} (hσ : σ "" = "") (h : given g = none) : g.map σ = g := by
  cases g with
  | none => rfl
  | some t =>
    have ht : t = "" := by simpa [given] using h
    rw [ht, Option.map_some, hσ]

/-- Whoever knows the id of an order that a guest placed is told the guest's token. -/
theorem undisclosed_iff (pf : Platform) (env : Env) (plan : RowOrder) (orderId : String)
    (w : World) :
    Undisclosed pf env plan orderId w ↔
      ∀ order table, orderById orderId w.db = .ok (some order) →
        tableOfOrder order w.db = some table → linesOf order.id w.db ≠ [] →
        given order.guestId = none := by
  constructor
  · intro h order table horder htable hlines
    exact h.hidden _ (orderAnswer_ok_iff.2 ⟨order, table, horder, htable, hlines, rfl⟩)
  · intro h
    constructor
    · intro σ hσ
      rw [orderAnswer_eq, orderAnswer_eq, getOrderWithDetails_rename]
      cases hv : ((getOrderWithDetails orderId).run noFault w).1 with
      | error e => rfl
      | ok v =>
        obtain ⟨_, order, table, horder, htable, hlines, rfl⟩ := getOrderWithDetails_ok_iff.1 hv
        have hg := map_blank hσ (h order table horder htable hlines)
        have hsame : Order.rename σ (orderView order table (linesOf order.id w.db)
            (menuOf (linesOf order.id w.db) w.db)) = orderView order table
            (linesOf order.id w.db) (menuOf (linesOf order.id w.db) w.db) := by
          rw [Order.rename, orderView, hg]
        exact congrArg (fun o => Except.ok (Response.order o)) hsame
    · intro v hv
      obtain ⟨order, table, horder, htable, hlines, rfl⟩ := orderAnswer_ok_iff.1 hv
      exact h order table horder htable hlines

/-- The sample restaurant after the guest with the token `g` has ordered its dish. -/
def guestOrderWorld : World :=
  ((placeOrder sampleEnv sampleBasket none sampleGuest).run noFault sampleWorld).2

/-- The answer is another one if the guest's token is another one. -/
theorem undisclosed_fails :
    ¬Undisclosed samplePlatform sampleEnv .stored (sampleEnv.uuid 0).text guestOrderWorld := by
  intro h
  have hsame := h.same (Equiv.swap "g" "another") (by decide)
  rw [orderAnswer_eq, orderAnswer_eq, getOrderWithDetails_rename] at hsame
  have hguest : ((getOrderWithDetails (sampleEnv.uuid 0).text).run noFault
      guestOrderWorld).1.map Order.guestId = .ok (some "g") := by
    decide +kernel
  cases hv : ((getOrderWithDetails (sampleEnv.uuid 0).text).run noFault guestOrderWorld).1 with
  | error e =>
    rw [hv] at hguest
    cases hguest
  | ok v =>
    rw [hv] at hsame hguest
    have hv' : v.guestId = some "g" := Except.ok.inj hguest
    have hg := congrArg Order.guestId (Response.order.inj (Except.ok.inj hsame))
    rw [Order.rename, hv'] at hg
    have hne : (some "g").map (Equiv.swap "g" "another") ≠ some "g" := by decide
    exact hne hg

end DineFlow
