import DineFlow.AuthService
import DineFlow.MenuService

namespace DineFlow
open Atomic Relational
set_option autoImplicit true

/-- `ILIKE`: a percent sign stands for any text, an underscore for any character, and a
backslash takes the next character as it is. -/
def ilikeMatch (fold : Char → Char) : List Char → List Char → Bool
  | [], cs => cs.isEmpty
  | '%' :: ps, cs => cs.tails.any fun t => ilikeMatch fold ps t
  | '_' :: ps, cs =>
    match cs with
    | [] => false
    | _ :: cs => ilikeMatch fold ps cs
  | '\\' :: p :: ps, cs =>
    match cs with
    | [] => false
    | c :: cs => fold p == fold c && ilikeMatch fold ps cs
  | p :: ps, cs =>
    match cs with
    | [] => false
    | c :: cs => fold p == fold c && ilikeMatch fold ps cs

/-- A null matches no pattern. -/
def ilike (fold : Char → Char) (search : String) (text : Option String) : Bool :=
  text.any fun t => ilikeMatch fold ('%' :: (search.toList ++ ['%'])) t.toList

/-- `LIMIT` and `OFFSET`; the query builder leaves out a limit of zero. -/
def page (limit offset : Int) (rows : List ρ) : Except DbError (List ρ) :=
  if limit < 0 ∨ offset < 0 then .error (.rejected "limit")
  else if limit = 0 then .ok (rows.drop offset.toNat)
  else .ok ((rows.drop offset.toNat).take limit.toNat)

structure Page (ρ : Type) where
  items : List ρ
  totalCount : Nat

structure UsersArgs where
  search : Option String
  role : Option UserRole
  limit : Int
  offset : Int

def UsersArgs.selects (pf : Platform) (args : UsersArgs) (u : UserRow) : Bool :=
  ((given args.search).all fun s => ilike pf.foldCase s u.name || ilike pf.foldCase s u.email) &&
    args.role.all fun r => u.role = r

/-- The rows that the filters select; the database refuses a search text with a null character. -/
def UsersArgs.rows (pf : Platform) (args : UsersArgs) (db : Db) : Except DbError (List UserRow) :=
  (optTextParam (given args.search)).map fun _ => db.users.filter (args.selects pf)

/-- The time by which users are listed; those without one come last. -/
def UserRow.registered (u : UserRow) : WithTop Nat := u.createdAt

def getPaginatedUsers (pf : Platform) (plan : RowOrder) (args : UsersArgs) :
    Api (Page UserRow) := do
  let total ← select .usersCount fun db => (args.rows pf db).map List.length
  let items ← select .usersPage fun db => do
    let rows ← args.rows pf db
    page args.limit args.offset (orderBy plan UserRow.registered rows)
  return ⟨items, total⟩

structure MenuItemsArgs where
  search : Option String
  categoryId : Option String
  isAvailable : Option (Option Bool)
  restaurantId : Option String
  tableId : Option String
  limit : Int
  offset : Int

/-- A filter that compares with null matches no row. -/
def MenuItemsArgs.selects (pf : Platform) (args : MenuItemsArgs)
    (restaurant category : Option Uuid) (r : MenuItemRow) : Bool :=
  (restaurant.all fun u => r.restaurantId = u) && (category.all fun u => r.categoryId = u) &&
    (args.isAvailable.all fun b => some r.isAvailable = b) &&
    (given args.search).all fun s =>
      ilike pf.foldCase s r.name || ilike pf.foldCase s r.nameAm ||
        ilike pf.foldCase s r.description || ilike pf.foldCase s r.descriptionAm

/-- The rows that the filters select; the ids and the search text are read by the database. -/
def MenuItemsArgs.rows (pf : Platform) (args : MenuItemsArgs) (restaurant : Option String)
    (db : Db) : Except DbError (List MenuItemRow) :=
  match parseOptUuid restaurant, parseOptUuid (given args.categoryId),
      optTextParam (given args.search) with
  | .ok r, .ok c, .ok _ => .ok (db.menuItems.filter (args.selects pf r c))
  | .error e, _, _ => .error e
  | _, .error e, _ => .error e
  | _, _, .error e => .error e

/-- The restaurant to list: the one that is asked for, or else that of the table. -/
def MenuItemsArgs.target (args : MenuItemsArgs) : Api (Option String) :=
  match given args.tableId, given args.restaurantId with
  | some t, none => do
    let table ← select .tableSelect (tableById t)
    return table.map fun t => t.restaurantId.text
  | _, r => .ret r

def getPaginatedMenuItems (pf : Platform) (plan : RowOrder) (args : MenuItemsArgs) :
    Api (Page MenuItem) := do
  let restaurant ← args.target
  let total ← select .menuCount fun db => (args.rows pf restaurant db).map List.length
  let rows ← select .menuPage fun db => do
    let rows ← args.rows pf restaurant db
    page args.limit args.offset (orderBy plan (fun r => r.categoryId.value) rows)
  return ⟨rows.map fun r => menuItemFromDb r.like, total⟩

end DineFlow
