import DineFlow.Amounts
import DineFlow.Program
import DineFlow.Database

namespace DineFlow
open Atomic
set_option autoImplicit true

/-- A point in time as the code holds it: a `Date`, or the string a JSON round trip makes of it. -/
inductive Stamp where
  | date (ms : Nat)
  | iso (ms : Nat)
  deriving DecidableEq, Repr

def Stamp.json : Stamp → Stamp
  | .date t | .iso t => .iso t

structure CartItem where
  menuItemId : String
  menuItemName : String
  quantity : Int
  price : Int
  notes : Option String
  addedAt : Stamp
  deriving DecidableEq, Repr

structure Cart where
  items : List CartItem
  createdAt : Stamp
  updatedAt : Stamp
  totalAmount : Int
  deriving DecidableEq, Repr

def CartItem.json (i : CartItem) : CartItem := { i with addedAt := i.addedAt.json }

def Cart.json (c : Cart) : Cart :=
  { c with
    items := c.items.map CartItem.json
    createdAt := c.createdAt.json
    updatedAt := c.updatedAt.json }

/-- A menu row as the menu service handles it, from the database or from the cache. -/
structure MenuItemRowLike where
  id : Uuid
  restaurantId : Uuid
  categoryId : Uuid
  name : String
  nameAm : Option String
  description : Option String
  descriptionAm : Option String
  price : Int
  imageUrl : Option String
  isAvailable : Bool
  prepTime : Option Int
  createdAt : Stamp
  updatedAt : Stamp
  deriving DecidableEq, Repr

def MenuItemRow.like (r : MenuItemRow) : MenuItemRowLike :=
  { r with createdAt := .date r.createdAt, updatedAt := .date r.updatedAt }

def MenuItemRowLike.json (r : MenuItemRowLike) : MenuItemRowLike :=
  { r with createdAt := r.createdAt.json, updatedAt := r.updatedAt.json }

structure CategoryWithItems where
  id : Uuid
  name : String
  nameAm : Option String
  description : Option String
  descriptionAm : Option String
  displayOrder : Int
  restaurantId : Uuid
  createdAt : Stamp
  updatedAt : Stamp
  items : List MenuItemRowLike
  deriving DecidableEq, Repr

def CategoryWithItems.json (c : CategoryWithItems) : CategoryWithItems :=
  { c with
    createdAt := c.createdAt.json
    updatedAt := c.updatedAt.json
    items := c.items.map MenuItemRowLike.json }

structure CachedMenu where
  categories : List CategoryWithItems
  restaurantId : Uuid
  tableId : String
  deriving DecidableEq, Repr

/-- The JSON values the services keep in Redis. -/
inductive Cached where
  | cart (c : Cart)
  | menu (m : CachedMenu)
  | items (rows : List MenuItemRowLike)
  deriving DecidableEq, Repr

def Cached.json : Cached → Cached
  | .cart c => .cart c.json
  | .menu m => .menu { m with categories := m.categories.map CategoryWithItems.json }
  | .items rows => .items (rows.map MenuItemRowLike.json)

structure Entry where
  value : Cached
  expiresAt : Option Nat
  deriving DecidableEq, Repr

/-- The keys Redis holds. A key with a time to live stays until it is dropped from outside. -/
structure Redis where
  entries : List (String × Entry)
  deriving DecidableEq, Repr

def Redis.empty : Redis := ⟨[]⟩

def Redis.get (r : Redis) (key : String) : Option Entry :=
  (r.entries.find? fun p => p.1 = key).map Prod.snd

def Redis.del (r : Redis) (key : String) : Redis := ⟨r.entries.filter fun p => p.1 ≠ key⟩

def Redis.set (r : Redis) (key : String) (e : Entry) : Redis := ⟨(key, e) :: (r.del key).entries⟩

def Redis.delKeys (r : Redis) (keys : List String) : Redis :=
  ⟨r.entries.filter fun p => p.1 ∉ keys⟩

@[simp] theorem Redis.get_empty (key : String) : Redis.empty.get key = none := rfl

theorem Redis.get_filter (r : Redis) (keep : String → Bool) (key : String) :
    (Redis.mk (r.entries.filter fun p => keep p.1)).get key =
      if keep key then r.get key else none := by
  obtain ⟨entries⟩ := r
  induction entries with
  | nil => simp [Redis.get]
  | cons p ps ih =>
    simp only [Redis.get] at ih ⊢
    by_cases hk : p.1 = key <;> cases hp : keep p.1 <;> simp_all

@[simp] theorem Redis.get_del_same (r : Redis) (key : String) : (r.del key).get key = none := by
  rw [Redis.del, Redis.get_filter r fun k => k ≠ key]
  simp

theorem Redis.get_del_other (r : Redis) (h : k ≠ key) : (r.del key).get k = r.get k := by
  rw [Redis.del, Redis.get_filter r fun k => k ≠ key]
  simp [h]

@[simp] theorem Redis.get_set_same (r : Redis) (key : String) (e : Entry) :
    (r.set key e).get key = some e := by
  simp [Redis.get, Redis.set]

theorem Redis.get_set_other (r : Redis) (e : Entry) (h : k ≠ key) :
    (r.set key e).get k = r.get k := by
  rw [← Redis.get_del_other r h]
  simp [Redis.get, Redis.set, h.symm]

theorem Redis.get_delKeys (r : Redis) (keys : List String) (key : String) :
    (r.delKeys keys).get key = if key ∈ keys then none else r.get key := by
  rw [Redis.delKeys, Redis.get_filter r fun k => k ∉ keys]
  by_cases h : key ∈ keys <;> simp [h]

def Entry.live (now : Nat) (e : Entry) : Bool := e.expiresAt.all fun t => now < t

/-- Time goes on: the keys whose time to live is over are gone. -/
def Redis.pass (now : Nat) (r : Redis) : Redis :=
  ⟨r.entries.filter fun p => (r.get p.1).all (Entry.live now)⟩

theorem Redis.get_pass (r : Redis) (now : Nat) (key : String) :
    (r.pass now).get key = (r.get key).filter (Entry.live now) := by
  rw [Redis.pass, Redis.get_filter r fun k => (r.get k).all (Entry.live now)]
  cases r.get key with
  | none => rfl
  | some e => cases hl : e.live now <;> simp [Option.filter, hl]

/-- Glob patterns of `KEYS`. Character classes are left out: the patterns of this program are
built from uuids, which hold no bracket. -/
def globMatch : List Char → List Char → Bool
  | [], cs => cs.isEmpty
  | '*' :: ps, cs => cs.tails.any fun t => globMatch ps t
  | '?' :: ps, cs =>
    match cs with
    | [] => false
    | _ :: cs => globMatch ps cs
  | '\\' :: p :: ps, cs =>
    match cs with
    | [] => false
    | c :: cs => p == c && globMatch ps cs
  | p :: ps, cs =>
    match cs with
    | [] => false
    | c :: cs => p == c && globMatch ps cs

theorem globMatch_plain (hp : p ∉ ['*', '?', '\\']) (ps cs : List Char) :
    globMatch (p :: ps) cs = match cs with
      | [] => false
      | c :: cs => p == c && globMatch ps cs := by
  simp only [List.mem_cons, List.not_mem_nil, or_false, not_or] at hp
  conv => lhs; unfold globMatch
  split <;> simp_all

theorem globMatch_append (hl : ∀ p ∈ ls, p ∉ ['*', '?', '\\'])
    (h : globMatch (ls ++ ps) cs = true) : ∃ cs', cs = ls ++ cs' ∧ globMatch ps cs' = true := by
  induction ls generalizing cs with
  | nil => exact ⟨cs, rfl, h⟩
  | cons l ls ih =>
    rw [List.cons_append, globMatch_plain (hl l List.mem_cons_self)] at h
    cases cs with
    | nil => cases h
    | cons c cs =>
      obtain ⟨he, h⟩ := Bool.and_eq_true_iff.1 h
      obtain ⟨cs', hcs, hps⟩ := ih (fun p hp => hl p (List.mem_cons_of_mem _ hp)) h
      rw [← eq_of_beq he, hcs]
      exact ⟨cs', rfl, hps⟩

def Redis.keys (r : Redis) (pattern : String) : List String :=
  (r.entries.map Prod.fst).filter fun k => globMatch pattern.toList k.toList

structure OrderPlacedEvent where
  orderId : Uuid
  tableId : Option Uuid
  restaurantId : String
  items : List (String × Int)
  totalAmount : Rat
  createdAt : Nat
  deriving DecidableEq, Repr

structure OrderStatusEvent where
  orderId : Uuid
  status : String
  restaurantId : String
  deriving DecidableEq, Repr

structure TableRequestEvent where
  tableId : String
  requestType : String
  restaurantId : Option String
  deriving DecidableEq, Repr

/-- What the server sends to a socket. -/
inductive Event where
  | orderNew (e : OrderPlacedEvent)
  | orderStatus (e : OrderStatusEvent)
  | tableRequest (e : TableRequestEvent)
  | error (message : String)
  deriving DecidableEq, Repr

structure SocketMetadata where
  userId : Option String
  sessionId : Option String
  role : String
  restaurantId : Option String
  tableId : Option String
  joinedRooms : List String
  deriving DecidableEq, Repr

/-- A connected socket and the rooms it is in, among them the room of its own id. The ids that
the library draws hold no colon. -/
structure Socket where
  id : String
  rooms : List String
  plain : ':' ∉ id.toList
  deriving DecidableEq, Repr

structure Gateway where
  sockets : List Socket
  connectedClients : List (String × SocketMetadata)
  sent : List (String × Event)
  deriving DecidableEq, Repr

def Gateway.empty : Gateway := ⟨[], [], []⟩

/-- `server.to(room).emit(event)`: one copy for every member of the room. -/
def Gateway.emit (g : Gateway) (room : String) (e : Event) : Gateway :=
  { g with
    sent := g.sent ++ ((g.sockets.filter fun s => room ∈ s.rooms).map fun s => (s.id, e)) }

structure World where
  db : Db
  redis : Redis
  gateway : Gateway

/-- What a call takes from outside: the clock in milliseconds, the uuids it draws and the numbers
of its language. -/
structure Env where
  now : Nat
  uuid : Nat → Uuid
  arithmetic : Arithmetic

def Env.seconds (env : Env) : Nat := env.now / 1000

inductive ApiError where
  | badRequest (message : String)
  | notFound (message : String)
  | forbidden (message : String)
  | unauthorized (message : String)
  | conflict (message : String)
  | error (message : String)
  | db (e : DbError)
  | redis
  | typeError
  | emitFailed
  deriving DecidableEq, Repr

/-- The places in the services where a statement is sent and awaited. -/
inductive Site where
  | cartGet
  | cartSet
  | cartDel
  | cartPrices
  | availableItem
  | placeTable
  | placeMenu
  | orderInsert
  | lineInsert (i : Nat)
  | emitPlaced
  | detailOrder
  | detailTable
  | detailLines
  | detailMenu
  | staffCheck
  | statusOrder
  | statusUpdate
  | emitStatus
  | myOrders
  | kitchenOrders
  | menuGet
  | menuTable
  | menuCategories
  | menuCategoryItems
  | menuSet
  | itemsGet
  | itemsTable
  | itemsRows
  | itemsSet
  | menuItemRow
  | menuRole
  | menuWrite
  | menuKeys
  | menuDel
  | menuList
  | userByEmail
  | userInsert
  | userById
  | profileUpdate
  | usersCount
  | usersPage
  | menuCount
  | menuPage
  | bookingInsert
  | bookingSelect
  | bookingUpdate
  | tableSelect
  deriving DecidableEq, Repr

abbrev Api (α : Type) : Type := Prog Site World ApiError α

/-- No statement fails for a reason outside the model. -/
def noFault : Site → Bool := fun _ => false

/-- A query of the database; a connection failure or a refused query is thrown. -/
def select (site : Site) (read : Db → Except DbError α) : Api α :=
  .query site (fun w => (read w.db).mapError .db) (.error (.db .connection))

/-- A statement that changes the database, unless it is refused. -/
def dbWrite (site : Site) (act : Db → Except DbError (α × Db)) : Api α :=
  .exec site (fun w => ((act w.db).mapError .db).map fun r => (r.1, { w with db := r.2 }))
    (.error (.db .connection))

/-- `getCachedObject`: an error of the client is logged and read as an absent key. -/
def getCachedObject (site : Site) (key : String) : Api (Option Cached) :=
  .query site (fun w => .ok ((w.redis.get key).map Entry.value)) (.ok none)

/-- The end of a time to live, which is given in seconds. -/
def expiry (now ttl : Nat) : Nat := now + 1000 * ttl

/-- `setCachedObject`: an error of the client is logged and dropped. -/
def setCachedObject (site : Site) (now : Nat) (key : String) (v : Cached) (ttl : Option Nat) :
    Api Unit :=
  .exec site (fun w => .ok ((), { w with redis := w.redis.set key ⟨v.json, ttl.map (expiry now)⟩ }))
    (.ok ())

def delCached (site : Site) (key : String) : Api Unit :=
  .exec site (fun w => .ok ((), { w with redis := w.redis.del key })) (.ok ())

section Execution

variable {site : Site} {f : Site → Bool} {w : World}

theorem run_select_bind (read : Db → Except DbError α) (g : α → Api β) :
    ((select site read).bind g).run f w =
      if f site then (.error (.db .connection), w) else
        match read w.db with
        | .ok a => (g a).run f w
        | .error e => (.error (.db e), w) := by
  rw [Prog.run_bind, select, Prog.run_query]
  cases f site with
  | true => rfl
  | false => cases read w.db <;> rfl

theorem run_select_bind_ok_iff {read : Db → Except DbError α} {g : α → Api β} :
    (((select site read).bind g).run f w).1 = .ok v ↔
      f site = false ∧ ∃ a, read w.db = .ok a ∧ ((g a).run f w).1 = .ok v := by
  rw [run_select_bind]
  cases f site with
  | true => simp
  | false => cases read w.db <;> simp

theorem run_dbWrite_bind (act : Db → Except DbError (α × Db)) (g : α → Api β) :
    ((dbWrite site act).bind g).run f w =
      if f site then (.error (.db .connection), w) else
        match act w.db with
        | .ok r => (g r.1).run f { w with db := r.2 }
        | .error e => (.error (.db e), w) := by
  rw [Prog.run_bind, dbWrite, Prog.run_exec]
  cases f site with
  | true => rfl
  | false => cases act w.db <;> rfl

theorem run_getCachedObject_bind (key : String) (g : Option Cached → Api β) :
    ((getCachedObject site key).bind g).run f w =
      (g (if f site then none else (w.redis.get key).map Entry.value)).run f w := by
  rw [Prog.run_bind, getCachedObject, Prog.run_query]
  cases f site <;> rfl

theorem run_setCachedObject_bind (now : Nat) (key : String) (v : Cached) (ttl : Option Nat)
    (g : Unit → Api β) :
    ((setCachedObject site now key v ttl).bind g).run f w =
      (g ()).run f (if f site then w else
        { w with redis := w.redis.set key ⟨v.json, ttl.map (expiry now)⟩ }) := by
  rw [Prog.run_bind, setCachedObject, Prog.run_exec]
  cases f site <;> rfl

theorem run_delCached_bind (key : String) (g : Unit → Api β) :
    ((delCached site key).bind g).run f w =
      (g ()).run f (if f site then w else { w with redis := w.redis.del key }) := by
  rw [Prog.run_bind, delCached, Prog.run_exec]
  cases f site <;> rfl

theorem mapError_ok {x : Except ε α} {g : ε → ε'} (h : x.mapError g = .ok a) : x = .ok a := by
  cases x with
  | error e => cases h
  | ok b => exact congrArg _ (Except.ok.inj h)

theorem within_select {R : World → World → Prop} (hR : ∀ w, R w w) (site : Site)
    (read : Db → Except DbError α) : (select site read).Within R :=
  Prog.within_query hR site _ _

theorem within_dbWrite {R : World → World → Prop} (hR : ∀ w, R w w)
    {act : Db → Except DbError (α × Db)}
    (h : ∀ w r, act w.db = .ok r → R w { w with db := r.2 }) : (dbWrite site act).Within R := by
  refine Prog.within_exec hR _ _ fun w r hr => ?_
  obtain ⟨r', hr', rfl⟩ := map_ok hr
  exact h w r' (mapError_ok hr')

theorem keeps_select (site : Site) (read : Db → Except DbError α) :
    (select site read).Keeps π :=
  Prog.keeps_query π site _ _

theorem keeps_dbWrite {π : World → τ} {act : Db → Except DbError (α × Db)}
    (h : ∀ w r, act w.db = .ok r → π { w with db := r.2 } = π w) : (dbWrite site act).Keeps π :=
  within_dbWrite (R := fun w w' => π w' = π w) (fun _ => rfl) h

end Execution

def sampleEnv : Env := ⟨0, fun n => sampleId (Fin.ofNat 16 (n + 8)), .exact⟩

def sampleWorld : World := ⟨sampleDb, Redis.empty, Gateway.empty⟩

end DineFlow
