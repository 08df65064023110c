import DineFlow.RoomIsolation
import DineFlow.TokenText

namespace DineFlow
open Atomic Relational Json
open TokenText (asUnits key)
set_option autoImplicit true

/-- The members that a JSON value brings into an object literal it is spread in. -/
def spread : Value ν → List (List UInt16 × Value ν)
  | .obj ms => ms
  | .arr vs => vs.zipIdx.map fun v => (asUnits (Nat.toDigits 10 v.2), v.1)
  | .str s => s.zipIdx.map fun u => (asUnits (Nat.toDigits 10 u.2), .str [u.1])
  | _ => []

def member (name : String) (ms : List (List UInt16 × Value ν)) : Option (Value ν) :=
  (ms.find? fun m => m.1 = key name).map Prod.snd

/-- The event that is made of what a client has sent: its members are the client's, except for the
restaurant. -/
structure RaisedRequest (ν : Type) where
  members : List (List UInt16 × Value ν)
  restaurantId : Option String

def RaisedRequest.tableId (e : RaisedRequest ν) : Option (Value ν) := member "tableId" e.members

/-- The room that `handleTableRequest` emits to and the event it emits, for any data that the
client sends; `none` if it refuses. -/
def raisedRequest (id : String) (data : Value ν) (g : Gateway) :
    Option (String × RaisedRequest ν) :=
  match g.client id with
  | some m =>
    if m.role ≠ "customer" then none
    else some ("restaurant:" ++ m.restaurantId.getD "undefined",
      ⟨(spread data).filter fun f => f.1 ≠ key "restaurantId", m.restaurantId⟩)
  | none => none

theorem handleTableRequest_eq (id tableId requestType : String) (data : Value ν) (g : Gateway) :
    handleTableRequest id tableId requestType g =
      match raisedRequest id data g with
      | some (room, e) => g.emit room (.tableRequest ⟨tableId, requestType, e.restaurantId⟩)
      | none => g.send id (.error "Unauthorized") := by
  rw [handleTableRequest, raisedRequest]
  cases g.client id with
  | none => rfl
  | some m =>
    dsimp only
    split <;> rfl

/-- A request is raised for a table, with the staff of a restaurant. -/
def RaisedFor (tableId : String) (restaurant : Uuid) : Option (String × RaisedRequest ν) → Prop
  | some (room, e) => e.tableId = some (.str (asUnits tableId.toList)) ∧
      room = "restaurant:" ++ restaurant.text
  | none => False

theorem text_ne_undefined (u : Uuid) : u.text ≠ "undefined" := by
  intro h
  have hlength := congrArg (List.length ∘ String.toList) h
  rw [Function.comp, Uuid.text, String.toList_ofList, Uuid.length_chars] at hlength
  cases hlength

/-- What a guest raises goes to a room that no restaurant has, with the members that the guest has
sent. -/
theorem Admitted.raisedRequest (h : Admitted pf ops g s)
    (hlast : lastHandshake ops s.id = some (now, hs)) (hjwt : hs.jwt.bind (pf.verify now) = none)
    (data : Value ν) : DineFlow.raisedRequest s.id data g = some ("restaurant:undefined",
      ⟨(spread data).filter fun f => f.1 ≠ key "restaurantId", none⟩) := by
  obtain ⟨now', hs', a, hlast', ha, _, hclient⟩ := h
  cases hlast.symm.trans hlast'
  rw [authenticateSocket, hjwt] at ha
  dsimp only at ha
  rw [authenticateGuest] at ha
  split at ha
  · cases ha
  · split at ha
    · cases ha
      rw [DineFlow.raisedRequest, hclient]
      rfl
    · cases ha

/-- No guest can raise a request with the staff of a restaurant, whatever table they are at and
whatever they send. -/
theorem tableRequest_misses_staff (pf : Platform) (db : Db) (redis : Redis) (ops : List EventOp)
    (s : Socket) (hs : s ∈ (runs (EventOp.step pf) ⟨db, redis, .empty⟩ ops).gateway.sockets)
    (now : Nat) (h : Handshake) (hlast : lastHandshake ops s.id = some (now, h))
    (hjwt : h.jwt.bind (pf.verify now) = none) (tableId : String) (restaurant : Uuid)
    (data : Value ν) :
    ¬RaisedFor tableId restaurant
      (raisedRequest s.id data (runs (EventOp.step pf) ⟨db, redis, .empty⟩ ops).gateway) := by
  rw [(runs_admitted pf db redis ops s hs).raisedRequest hlast hjwt]
  rintro ⟨_, hroom⟩
  have hname : "restaurant:" ++ "undefined" = "restaurant:" ++ restaurant.text := hroom
  rw [String.append_right_inj] at hname
  exact text_ne_undefined _ hname.symm

/-- The guest of the sample table connects. -/
def guestConnects : List EventOp := [.connect 0 "s1" sampleSocket_plain guestHandshake]

def guestSocket : Socket := ⟨"s1", ["s1", "table:" ++ (sampleId 2).text, "system:notifications"],
  sampleSocket_plain⟩

/-- A request in the name of another table. -/
def otherTable : Value Nat :=
  .obj [(key "tableId", .str (key "t9")), (key "requestType", .str (key "bill"))]

/-- The guest of a table asks for the bill of another one. -/
theorem tableRequest_forged :
    guestSocket ∈ (runs (EventOp.step samplePlatform) ⟨sampleDb, .empty, .empty⟩
        guestConnects).gateway.sockets ∧
      (∃ table, tableById guestPayload.tableId sampleDb = .ok (some table) ∧
        table.restaurantId = sampleId 1) ∧
      (∃ e, raisedRequest "s1" otherTable (runs (EventOp.step samplePlatform)
          ⟨sampleDb, .empty, .empty⟩ guestConnects).gateway = some ("restaurant:undefined", e) ∧
        e.tableId = some (.str (key "t9"))) ∧
      ¬RaisedFor guestPayload.tableId (sampleId 1) (raisedRequest "s1" otherTable
        (runs (EventOp.step samplePlatform) ⟨sampleDb, .empty, .empty⟩ guestConnects).gateway) := by
  have hraised : raisedRequest "s1" otherTable (runs (EventOp.step samplePlatform)
      ⟨sampleDb, .empty, .empty⟩ guestConnects).gateway = some ("restaurant:undefined",
        ⟨[(key "tableId", .str (key "t9")), (key "requestType", .str (key "bill"))], none⟩) := rfl
  refine ⟨by decide +kernel, ⟨_, rfl, rfl⟩, ⟨_, hraised, rfl⟩, ?_⟩
  rw [hraised]
  rintro ⟨_, hroom⟩
  revert hroom
  decide +kernel

theorem tableRequest_misses_staff_sample :
    ¬RaisedFor guestPayload.tableId (sampleId 1) (raisedRequest guestSocket.id otherTable
      (runs (EventOp.step samplePlatform) ⟨sampleDb, .empty, .empty⟩ guestConnects).gateway) :=
  tableRequest_misses_staff samplePlatform sampleDb .empty guestConnects guestSocket
    (by decide +kernel) 0 guestHandshake rfl rfl guestPayload.tableId (sampleId 1) otherTable

end DineFlow
