import Mathlib.Data.String.Basic
import Mathlib.Logic.Function.Basic
import ERP.Lib.Text

/-!
# Realtime rooms

A socket is authenticated before it connects and joins the rooms of its tenant, its outlet and
its user one after the other.  A domain event is sent to the rooms its payload names.  Sockets
are those of `socket.io`: a socket is in the room that has its own id, a broadcast to a room
reaches the connected sockets that are in it, and a socket that disconnects leaves its rooms.
Only events of the types subscribed to come to the gateway, each when the bus gets to its
handler.
-/

namespace ERP
namespace Realtime

open Lib

/-! ## Routing -/

/-- The payload of a domain event: the three fields that are looked at, `none` where there is no
such field or it is not a string, and the others. -/
structure Payload (D : Type) where
  tenantId : Option String
  outletId : Option String
  userId : Option String
  rest : D
  deriving DecidableEq, Repr

structure DomainEvent (D : Type) where
  type : String
  payload : Payload D
  occurredAt : Option Int
  deriving DecidableEq, Repr

/-- The types `RealtimeDomainEventsSubscription.subscribe` subscribes to, in its order.  The
reservation that expired and the warehouse transfers are not among them. -/
def subscribedTypes : List String :=
  ["user.login", "user.logout", "product.created", "product.updated", "product.deleted",
    "order.created", "sales-order.created", "sales-order.confirmed", "order.reserved",
    "order.payment.success", "sales-order.paid", "order.payment.failed",
    "sales-order.cancelled", "order.fulfillment.started", "sales-order.completed",
    "sales-order.completed.v2", "sales-order.refunded", "purchase-order.created",
    "purchase-order.pending-approval", "purchase-order.approved", "purchase-order.rejected",
    "purchase-order.sent", "purchase-order.partially-received", "purchase-order.received",
    "purchase-order.completed", "purchase-order.cancelled", "stock.adjusted",
    "kitchen.cooking.started", "kitchen.ready", "kitchen.served", "kitchen.cancelled",
    "kitchen.recalled", "feature-flag.created", "feature-flag.enabled", "feature-flag.disabled",
    "feature-flag.updated", "feature-flag.archived", "feature-flag.restored",
    "feature-flag.override.changed", "business.created", "business.updated",
    "business.activated", "business.suspended", "business.archived", "business.restored",
    "business.type.changed", "subscription.created", "subscription.activated",
    "subscription.renewed", "subscription.cancelled", "subscription.expired",
    "subscription.plan.changed", "subscription.plan-change.scheduled", "subscription.suspended",
    "subscription.past-due", "billing.payment.required", "invoice.created", "invoice.paid",
    "invoice.failed", "invoice.cancelled", "super-admin.tenant.activated",
    "super-admin.tenant.suspended", "super-admin.tenant.deactivated",
    "super-admin.tenant.restored", "super-admin.plan-change.scheduled",
    "super-admin.subscription.changed"]

structure RoomRouting where
  tenantId : String
  outletId : Option String
  userId : Option String
  deriving DecidableEq, Repr

variable {D : Type}

def toRealtimeRoomRouting (payload : Payload D) : RoomRouting :=
  match payload.tenantId.filter (· ≠ "") with
  | none => ⟨"", none, none⟩
  | some tenantId => ⟨tenantId, payload.outletId.filter (· ≠ ""), payload.userId.filter (· ≠ "")⟩

def tenantRoom (tenantId : String) : String := "tenant:" ++ tenantId

def outletRoom (outletId : String) : String := "outlet:" ++ outletId

def userRoom (userId : String) : String := "user:" ++ userId

def getRealtimeEventRooms (routing : RoomRouting) : List String :=
  if routing.tenantId = "" then []
  else [tenantRoom routing.tenantId] ++ (routing.outletId.map outletRoom).toList ++
    (routing.userId.map userRoom).toList

/-- The message that goes out: no more than the payload, the type and the time. -/
structure Message (D : Type) where
  type : String
  data : Payload D
  occurredAt : String
  deriving DecidableEq, Repr

/-- The rooms and the message of `handleDomainEvent`. -/
def roomsOf (e : DomainEvent D) : List String :=
  getRealtimeEventRooms (toRealtimeRoomRouting e.payload)

def toMessage (e : DomainEvent D) (now : Int) : Message D :=
  ⟨e.type, e.payload, toISOString (e.occurredAt.getD now)⟩

/-! ## Sockets -/

structure SocketContext where
  userId : String
  tenantId : String
  outletId : Option String
  deriving DecidableEq, Repr

structure Handshake where
  authToken : Option String
  authorization : Option String
  deriving DecidableEq, Repr

/-- The claims of a token, `none` where one is missing or is not a string. -/
structure Claims where
  userId : Option String
  tenantId : Option String
  outletId : Option String
  deriving DecidableEq, Repr

/-- The configured secret and `jwt.verify`. -/
structure Auth where
  secret : Option String
  verify : String → String → Option Claims

def withoutBearer (token : String) : String :=
  if "Bearer ".toList <+: token.toList then String.ofList (token.toList.drop 7) else token

def contextOf (claims : Claims) : Except String SocketContext :=
  match claims.userId.filter (· ≠ ""), claims.tenantId.filter (· ≠ "") with
  | some userId, some tenantId => .ok ⟨userId, tenantId, claims.outletId⟩
  | _, _ => .error "Invalid or expired JWT"

def authenticateSocket (rt : Auth) (h : Handshake) : Except String SocketContext :=
  match (h.authToken <|> h.authorization).filter (· ≠ "") with
  | none => .error "Missing JWT"
  | some token =>
      match rt.secret.filter (· ≠ "") with
      | none => .error "JWT secret not configured"
      | some secret =>
          match rt.verify (withoutBearer token) secret with
          | none => .error "Invalid or expired JWT"
          | some claims => contextOf claims

/-- The id of a socket, which `socket.io` makes of letters, digits, `-` and `_`. -/
structure SocketId where
  text : String
  plain : ':' ∉ text.toList
  deriving DecidableEq

/-- The room that `handleConnection` joins next. -/
inductive Joining where
  | tenant | outlet | user | joined
  deriving DecidableEq, Repr

structure Socket (D : Type) where
  ctx : SocketContext
  rooms : List String
  joining : Joining
  connected : Bool
  received : List (Message D)
  deriving DecidableEq, Repr

namespace Socket

/-- `handleConnection` up to its first `await`. -/
def connect (id : SocketId) (ctx : SocketContext) : Socket D :=
  ⟨ctx, [id.text], .tenant, ctx.userId ≠ "" ∧ ctx.tenantId ≠ "", []⟩

def join (s : Socket D) (room : String) (next : Joining) : Socket D :=
  { s with rooms := s.rooms ++ [room], joining := next }

/-- `joinTenantRoom`, `joinOutletRoom` and `joinUserRoom`, one at a time. -/
def joinNext (s : Socket D) : Socket D :=
  match s.joining with
  | .tenant => s.join (tenantRoom s.ctx.tenantId) .outlet
  | .outlet =>
      match s.ctx.outletId.filter (· ≠ "") with
      | none => { s with joining := .user }
      | some outletId => s.join (outletRoom outletId) .user
  | .user => s.join (userRoom s.ctx.userId) .joined
  | .joined => s

def disconnect (s : Socket D) : Socket D := { s with rooms := [], connected := false }

/-- A broadcast to a room. -/
def deliver (s : Socket D) (room : String) (m : Message D) : Socket D :=
  if s.connected ∧ room ∈ s.rooms then { s with received := s.received ++ [m] } else s

/-- `emitToRooms`, as one socket finds it: a room whose broadcast throws is passed over. -/
def emitToRooms (s : Socket D) (m : Message D) (failing : List String) (rooms : List String) :
    Socket D :=
  rooms.foldl (fun s room => if room ∈ failing then s else s.deliver room m) s

end Socket

abbrev Sockets (D : Type) := SocketId → Option (Socket D)

/-- What happens at the gateway.  An event is published to it when the bus, through with the
handlers that were subscribed before, comes to the one of the gateway. -/
inductive GatewayEvent (D : Type) where
  | handshake (id : SocketId) (h : Handshake)
  | join (id : SocketId)
  | disconnect (id : SocketId)
  | publish (e : DomainEvent D) (now : Int) (failing : List String)
  deriving DecidableEq

/-- One event at the gateway.  A socket that is not authenticated does not come to exist, and
the id of a socket is not used again. -/
def Sockets.step (rt : Auth) (sockets : Sockets D) : GatewayEvent D → Sockets D
  | .handshake id h =>
      match sockets id, authenticateSocket rt h with
      | none, .ok ctx => Function.update sockets id (some (.connect id ctx))
      | _, _ => sockets
  | .join id => Function.update sockets id ((sockets id).map Socket.joinNext)
  | .disconnect id => Function.update sockets id ((sockets id).map Socket.disconnect)
  | .publish e now failing =>
      if e.type ∈ subscribedTypes then fun id =>
        (sockets id).map fun s => s.emitToRooms (toMessage e now) failing (roomsOf e)
      else sockets

def Sockets.run (rt : Auth) (sockets : Sockets D) (events : List (GatewayEvent D)) : Sockets D :=
  events.foldl (Sockets.step rt) sockets

/-! ## The names of rooms -/

theorem append_left_inj {a b c : String} (h : a ++ b = a ++ c) : b = c := by
  have hlist := congrArg String.toList h
  rw [String.toList_append, String.toList_append] at hlist
  exact String.toList_injective (List.append_cancel_left hlist)

theorem tenantRoom_inj {a b : String} (h : tenantRoom a = tenantRoom b) : a = b :=
  append_left_inj h

theorem outletRoom_inj {a b : String} (h : outletRoom a = outletRoom b) : a = b :=
  append_left_inj h

theorem userRoom_inj {a b : String} (h : userRoom a = userRoom b) : a = b :=
  append_left_inj h

/-- The first letters tell the kinds of rooms apart. -/
theorem head_tenantRoom (a : String) : (tenantRoom a).toList.head? = some 't' := by
  unfold tenantRoom
  rw [String.toList_append]
  rfl

theorem head_outletRoom (a : String) : (outletRoom a).toList.head? = some 'o' := by
  unfold outletRoom
  rw [String.toList_append]
  rfl

theorem head_userRoom (a : String) : (userRoom a).toList.head? = some 'u' := by
  unfold userRoom
  rw [String.toList_append]
  rfl

theorem tenantRoom_ne_outletRoom (a b : String) : tenantRoom a ≠ outletRoom b := by
  intro h
  have hhead := head_tenantRoom a
  rw [h, head_outletRoom] at hhead
  exact absurd hhead (by decide)

theorem tenantRoom_ne_userRoom (a b : String) : tenantRoom a ≠ userRoom b := by
  intro h
  have hhead := head_tenantRoom a
  rw [h, head_userRoom] at hhead
  exact absurd hhead (by decide)

theorem outletRoom_ne_userRoom (a b : String) : outletRoom a ≠ userRoom b := by
  intro h
  have hhead := head_outletRoom a
  rw [h, head_userRoom] at hhead
  exact absurd hhead (by decide)

/-- The room of a socket is none of those that events are sent to. -/
theorem colon_mem_of_mem_rooms {routing : RoomRouting} {room : String}
    (h : room ∈ getRealtimeEventRooms routing) : ':' ∈ room.toList := by
  have happend (a b : String) (ha : ':' ∈ a.toList) : ':' ∈ (a ++ b).toList := by
    rw [String.toList_append]
    exact List.mem_append_left _ ha
  unfold getRealtimeEventRooms at h
  split at h
  · cases h
  · rw [List.mem_append, List.mem_append, List.mem_singleton, Option.mem_toList,
      Option.mem_toList] at h
    obtain (rfl | hroom) | hroom := h
    · exact happend _ _ (by decide)
    · obtain ⟨a, -, rfl⟩ := Option.map_eq_some_iff.mp hroom
      exact happend _ _ (by decide)
    · obtain ⟨a, -, rfl⟩ := Option.map_eq_some_iff.mp hroom
      exact happend _ _ (by decide)

end Realtime
end ERP
