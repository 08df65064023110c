import DineFlow.OrderService

namespace DineFlow
open Atomic Relational
set_option autoImplicit true

structure CreateBookingInput where
  restaurantId : String
  guestName : String
  guestEmail : String
  guestPhone : Option String
  date : String
  time : String
  partySize : Int
  specialRequest : Option String
  deriving DecidableEq, Repr

def newBooking (env : Env) (input : CreateBookingInput) (restaurant : Uuid) (user : Option Uuid) :
    BookingRow :=
  { id := env.uuid 0
    restaurantId := restaurant
    userId := user
    guestEmail := some input.guestEmail
    guestName := some input.guestName
    guestPhone := input.guestPhone
    date := input.date
    time := input.time
    partySize := input.partySize
    status := "pending"
    specialRequest := input.specialRequest
    tableId := none
    createdAt := some env.now
    updatedAt := some env.now }

theorem newBooking_stored_status (env : Env) (input : CreateBookingInput) (restaurant : Uuid)
    (user : Option Uuid) : (newBooking env input restaurant user).stored.status = "pending" := by
  have hfit : IsVarchar 20 "pending" := by decide
  simp only [BookingRow.stored, newBooking, hfit.cut]

def insertBooking (env : Env) (input : CreateBookingInput) (userId : Option String) (db : Db) :
    Except DbError (BookingRow × Db) :=
  match parseUuid input.restaurantId, parseOptUuid userId with
  | .ok r, .ok u =>
    (db.insertBooking (newBooking env input r u)).map fun db =>
      ((newBooking env input r u).stored, db)
  | .error e, _ => .error e
  | _, .error e => .error e

def createBooking (env : Env) (input : CreateBookingInput) (userId : Option String) :
    Api BookingRow :=
  dbWrite .bookingInsert (insertBooking env input userId)

/-- A comparison with null, for a caller that has no id, matches no row. -/
def myBookings (plan : RowOrder) (userId : Option String) : Api (List BookingRow) :=
  select .bookingSelect fun db => (parseOptUuid userId).map fun u =>
    plan.arrange (db.bookings.filter fun b => u.isSome && b.userId = u)

def bookingsByRestaurant (plan : RowOrder) (restaurantId : String) (date : Option String) :
    Api (List BookingRow) :=
  select .bookingSelect fun db =>
    match parseUuid restaurantId, optTextParam (given date) with
    | .ok u, .ok d => .ok (plan.arrange (db.bookings.filter fun b =>
        b.restaurantId = u && d.all fun d => b.date = d))
    | .error e, _ => .error e
    | _, .error e => .error e

def writeBookingStatus (env : Env) (bookingId status : String) (db : Db) :
    Except DbError (Option BookingRow × Db) :=
  match parseUuid bookingId with
  | .error e => .error e
  | .ok u => (db.updateBooking u status env.now).map fun db =>
      (lookup BookingRow.id u db.bookings, db)

def updateBookingStatus (env : Env) (bookingId status : String) : Api BookingRow := do
  let updated ← dbWrite .bookingUpdate (writeBookingStatus env bookingId status)
  orElse updated (.notFound "Booking not found")

def getTables (plan : RowOrder) (restaurantId : Option String) : Api (List TableRow) :=
  match given restaurantId with
  | some r => select .tableSelect fun db => (parseUuid r).map fun u =>
      plan.arrange (db.tables.filter fun t => t.restaurantId = u)
  | none => select .tableSelect fun db => .ok (orderBy plan TableRow.tableNumber db.tables)

def getTableById (tableId : String) : Api (Option TableRow) :=
  select .tableSelect (tableById tableId)

end DineFlow
