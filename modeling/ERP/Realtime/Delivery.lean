import ERP.Realtime.Rooms

/-!
# What sockets receive

A socket is in no room but its own and those of its tenant, outlet and user, whatever order its
joins, its end and the broadcasts come in.  So it receives only events that share one of the
three with it, and when it has joined all of them it receives each such event of a subscribed
type once for every one they share, in the order in which they come to the gateway.
-/

namespace ERP
namespace Realtime

open Lib

variable {D : Type} {rt : Auth} {e : DomainEvent D} {m : Message D} {s : Socket D} {id : SocketId}

/-- The rooms a context stands for. -/
def SocketContext.rooms (ctx : SocketContext) : List String :=
  [tenantRoom ctx.tenantId] ++ ((ctx.outletId.filter (· ≠ "")).map outletRoom).toList ++
    [userRoom ctx.userId]

/-- The part of them that was joined by now. -/
def Joining.rooms (ctx : SocketContext) : Joining → List String
  | .tenant => []
  | .outlet => [tenantRoom ctx.tenantId]
  | .user => [tenantRoom ctx.tenantId] ++
      ((ctx.outletId.filter (· ≠ "")).map outletRoom).toList
  | .joined => ctx.rooms

/-- What a socket is between any two events. -/
structure Socket.Kept (id : SocketId) (s : Socket D) : Prop where
  rooms : ∀ room ∈ s.rooms, room = id.text ∨ room ∈ s.ctx.rooms
  joined : s.connected → s.rooms = id.text :: s.joining.rooms s.ctx

namespace Socket

theorem Kept.connect (id : SocketId) (ctx : SocketContext) :
    (connect id ctx : Socket D).Kept id where
  rooms := fun _ hroom => .inl (List.mem_singleton.mp hroom)
  joined := fun _ => rfl

theorem Kept.disconnect (s : Socket D) : s.disconnect.Kept id where
  rooms := fun _ hroom => absurd hroom List.not_mem_nil
  joined := nofun

theorem Kept.join (h : s.Kept id) {room : String} {j : Joining} (hroom : room ∈ s.ctx.rooms)
    (hj : j.rooms s.ctx = s.joining.rooms s.ctx ++ [room]) : (s.join room j).Kept id where
  rooms := by
    intro r hr
    obtain hr | hr := List.mem_append.mp hr
    · exact h.rooms r hr
    · rw [List.mem_singleton.mp hr]
      exact .inr hroom
  joined := by
    intro hconnected
    show s.rooms ++ [room] = id.text :: j.rooms s.ctx
    rw [h.joined hconnected, hj]
    rfl

theorem Kept.joinNext (h : s.Kept id) : s.joinNext.Kept id := by
  unfold Socket.joinNext
  cases hj : s.joining with
  | tenant =>
      refine h.join (List.mem_append_left _ List.mem_cons_self) ?_
      rw [hj]
      rfl
  | outlet =>
      dsimp only
      cases houtlet : s.ctx.outletId.filter (· ≠ "") with
      | none =>
          refine ⟨h.rooms, fun hconnected => ?_⟩
          have hrooms := h.joined hconnected
          rw [hj] at hrooms
          show s.rooms = id.text :: Joining.rooms s.ctx .user
          unfold Joining.rooms at hrooms ⊢
          rw [hrooms, houtlet]
          rfl
      | some outletId =>
          have hmem : outletRoom outletId ∈ s.ctx.rooms := by
            unfold SocketContext.rooms
            rw [houtlet]
            exact List.mem_append_left _ (List.mem_append_right _ (List.mem_singleton_self _))
          refine h.join hmem ?_
          rw [hj]
          unfold Joining.rooms
          rw [houtlet]
          rfl
  | user =>
      refine h.join (List.mem_append_right _ (List.mem_singleton_self _)) ?_
      rw [hj]
      rfl
  | joined => exact h

/-- A broadcast changes what was received and nothing else. -/
theorem deliver_eq (s : Socket D) (room : String) (m : Message D) :
    ∃ more, s.deliver room m = { s with received := s.received ++ more } ∧
      (more = [] ∨ more = [m] ∧ room ∈ s.rooms) := by
  unfold deliver
  split
  · rename_i h
    exact ⟨[m], rfl, .inr ⟨rfl, h.2⟩⟩
  · exact ⟨[], by rw [List.append_nil], .inl rfl⟩

theorem emitToRooms_eq (m : Message D) (failing rooms : List String) :
    ∀ s : Socket D, ∃ more,
      s.emitToRooms m failing rooms = { s with received := s.received ++ more } ∧
        ∀ m' ∈ more, m' = m ∧ ∃ room ∈ rooms, room ∈ s.rooms := by
  induction rooms with
  | nil => exact fun s => ⟨[], by rw [List.append_nil]; rfl, fun _ h => absurd h List.not_mem_nil⟩
  | cons room rest ih =>
      intro s
      show ∃ more, Socket.emitToRooms (if room ∈ failing then s else s.deliver room m) m failing
        rest = _ ∧ _
      split
      · obtain ⟨more, heq, hmore⟩ := ih s
        refine ⟨more, heq, fun m' hm' => ?_⟩
        obtain ⟨hm, r, hr, hrooms⟩ := hmore m' hm'
        exact ⟨hm, r, List.mem_cons_of_mem _ hr, hrooms⟩
      · obtain ⟨first, hfirst, hcase⟩ := s.deliver_eq room m
        obtain ⟨more, heq, hmore⟩ := ih (s.deliver room m)
        rw [hfirst] at heq hmore ⊢
        refine ⟨first ++ more, ?_, fun m' hm' => ?_⟩
        · rw [heq, List.append_assoc]
        · obtain hm' | hm' := List.mem_append.mp hm'
          · obtain rfl | ⟨rfl, hroom⟩ := hcase
            · cases hm'
            · exact ⟨List.mem_singleton.mp hm', room, List.mem_cons_self, hroom⟩
          · obtain ⟨hm, r, hr, hrooms⟩ := hmore m' hm'
            exact ⟨hm, r, List.mem_cons_of_mem _ hr, hrooms⟩

theorem Kept.emitToRooms (h : s.Kept id) (m : Message D) (failing rooms : List String) :
    (s.emitToRooms m failing rooms).Kept id := by
  obtain ⟨more, heq, -⟩ := Socket.emitToRooms_eq m failing rooms s
  rw [heq]
  exact ⟨h.rooms, h.joined⟩

end Socket

/-! ## Isolation -/

/-- The event and the socket have the tenant, the outlet or the user in common. -/
def Shares (ctx : SocketContext) (p : Payload D) : Prop :=
  p.tenantId = some ctx.tenantId ∨ (∃ o, o ≠ "" ∧ p.outletId = some o ∧ ctx.outletId = some o) ∨
    (p.userId = some ctx.userId ∧ ctx.userId ≠ "")

theorem filter_nonempty {a : Option String} {x : String} :
    a.filter (· ≠ "") = some x ↔ a = some x ∧ x ≠ "" := by
  rw [Option.filter_eq_some_iff]
  simp

theorem mem_roomsOf {room : String} : room ∈ roomsOf e ↔
    ∃ t, t ≠ "" ∧ e.payload.tenantId = some t ∧ (room = tenantRoom t ∨
      (∃ o, (e.payload.outletId = some o ∧ o ≠ "") ∧ outletRoom o = room) ∨
      ∃ u, (e.payload.userId = some u ∧ u ≠ "") ∧ userRoom u = room) := by
  unfold roomsOf toRealtimeRoomRouting
  cases htenant : e.payload.tenantId.filter (· ≠ "") with
  | none =>
      refine iff_of_false (by simp [getRealtimeEventRooms]) ?_
      rintro ⟨t, ht, hpayload, -⟩
      have hsome := filter_nonempty.mpr ⟨hpayload, ht⟩
      rw [htenant] at hsome
      cases hsome
  | some t =>
      obtain ⟨hpayload, ht⟩ := filter_nonempty.mp htenant
      unfold getRealtimeEventRooms
      dsimp only
      rw [if_neg ht]
      simp only [List.mem_append, List.mem_singleton, Option.mem_toList, Option.map_eq_some_iff,
        filter_nonempty, or_assoc]
      constructor
      · intro h
        exact ⟨t, ht, hpayload, h⟩
      · rintro ⟨t', -, hpayload', h⟩
        rw [hpayload] at hpayload'
        cases hpayload'
        exact h

/-- A room that an event goes to and a context stands for is one they share. -/
theorem shares_of_mem {ctx : SocketContext} {room : String} (he : room ∈ roomsOf e)
    (hctx : room ∈ ctx.rooms) : Shares ctx e.payload := by
  obtain ⟨t, -, htenant, hroom⟩ := mem_roomsOf.mp he
  unfold SocketContext.rooms at hctx
  rw [List.mem_append, List.mem_append, List.mem_singleton, List.mem_singleton, Option.mem_toList,
    Option.map_eq_some_iff] at hctx
  obtain (rfl | ⟨o, ho, rfl⟩) | rfl := hctx
  · obtain h | ⟨o', -, h⟩ | ⟨u, -, h⟩ := hroom
    · exact .inl (htenant.trans (congrArg some (tenantRoom_inj h).symm))
    · exact absurd h.symm (tenantRoom_ne_outletRoom _ _)
    · exact absurd h.symm (tenantRoom_ne_userRoom _ _)
  · obtain h | ⟨o', ho', h⟩ | ⟨u, -, h⟩ := hroom
    · exact absurd h.symm (tenantRoom_ne_outletRoom _ _)
    · cases outletRoom_inj h
      exact .inr (.inl ⟨_, ho'.2, ho'.1, (filter_nonempty.mp ho).1⟩)
    · exact absurd h.symm (outletRoom_ne_userRoom _ _)
  · obtain h | ⟨o', -, h⟩ | ⟨u, hu, h⟩ := hroom
    · exact absurd h.symm (tenantRoom_ne_userRoom _ _)
    · exact absurd h (outletRoom_ne_userRoom _ _)
    · cases userRoom_inj h
      exact .inr (.inr hu)

/-- A message that reaches a socket came from an event that shares something with it. -/
theorem Socket.Kept.shares (h : s.Kept id) {failing : List String} {now : Int} {m' : Message D}
    {more : List (Message D)}
    (heq : s.emitToRooms (toMessage e now) failing (roomsOf e) =
      { s with received := s.received ++ more }) (hm' : m' ∈ more) :
    m' = toMessage e now ∧ Shares s.ctx e.payload := by
  obtain ⟨more', heq', hmore⟩ := Socket.emitToRooms_eq (toMessage e now) failing (roomsOf e) s
  rw [heq] at heq'
  have hsame : more = more' := List.append_cancel_left (congrArg Socket.received heq')
  subst hsame
  obtain ⟨rfl, room, hroom, hrooms⟩ := hmore m' hm'
  refine ⟨rfl, ?_⟩
  obtain rfl | hctx := h.rooms room hrooms
  · exact absurd (colon_mem_of_mem_rooms hroom) id.plain
  · exact shares_of_mem hroom hctx

/-- The rule of invariants for one socket: how it begins, and what each event makes of it. -/
theorem Sockets.run_invariant {I : SocketId → Socket D → Prop} (rt : Auth)
    (events : List (GatewayEvent D))
    (hconnect : ∀ id h ctx, GatewayEvent.handshake id h ∈ events →
      authenticateSocket rt h = .ok ctx → I id (.connect id ctx))
    (hjoin : ∀ id s, I id s → I id s.joinNext) (hdisconnect : ∀ id s, I id s → I id s.disconnect)
    (hpublish : ∀ id s e now failing, GatewayEvent.publish e now failing ∈ events → I id s →
      I id (s.emitToRooms (toMessage e now) failing (roomsOf e))) :
    ∀ sockets : Sockets D, (∀ id s, sockets id = some s → I id s) →
      ∀ id s, sockets.run rt events id = some s → I id s := by
  induction events with
  | nil => exact fun _ h => h
  | cons event rest ih =>
      intro sockets hsockets
      refine ih (fun id h ctx hmem => hconnect id h ctx (List.mem_cons_of_mem _ hmem))
        (fun id s e now failing hmem => hpublish id s e now failing (List.mem_cons_of_mem _ hmem))
        (sockets.step rt event) ?_
      have hmap {f : Socket D → Socket D} {id : SocketId} {s : Socket D}
          (hf : ∀ s, I id s → I id (f s)) (hs : (sockets id).map f = some s) : I id s := by
        obtain ⟨s₀, hs₀, rfl⟩ := Option.map_eq_some_iff.mp hs
        exact hf s₀ (hsockets id s₀ hs₀)
      have hupdate {f : Socket D → Socket D} {id₀ : SocketId} (hf : ∀ s, I id₀ s → I id₀ (f s))
          (id : SocketId) (s : Socket D)
          (hs : Function.update sockets id₀ ((sockets id₀).map f) id = some s) : I id s := by
        by_cases hid : id = id₀
        · subst hid
          rw [Function.update_self] at hs
          exact hmap hf hs
        · rw [Function.update_of_ne hid] at hs
          exact hsockets id s hs
      cases event with
      | handshake id₀ h =>
          intro id s hs
          unfold Sockets.step at hs
          cases hold : sockets id₀ with
          | some s₀ =>
              simp only [hold] at hs
              exact hsockets id s hs
          | none =>
              cases hauth : authenticateSocket rt h with
              | error e =>
                  simp only [hold, hauth] at hs
                  exact hsockets id s hs
              | ok ctx =>
                  simp only [hold, hauth] at hs
                  by_cases hid : id = id₀
                  · subst hid
                    rw [Function.update_self] at hs
                    cases hs
                    exact hconnect id h ctx List.mem_cons_self hauth
                  · rw [Function.update_of_ne hid] at hs
                    exact hsockets id s hs
      | join id₀ => exact hupdate (hjoin id₀)
      | disconnect id₀ => exact hupdate (hdisconnect id₀)
      | publish e now failing =>
          intro id s hs
          unfold Sockets.step at hs
          by_cases htype : e.type ∈ subscribedTypes
          · simp only [htype, if_true] at hs
            exact hmap (fun s => hpublish id s e now failing List.mem_cons_self) hs
          · simp only [htype, if_false] at hs
            exact hsockets id s hs

theorem kept_run (events : List (GatewayEvent D)) (id : SocketId) (s : Socket D)
    (hs : Sockets.run rt (fun _ => none) events id = some s) : s.Kept id :=
  Sockets.run_invariant rt events (I := fun id s => Socket.Kept id s)
    (fun id _ ctx _ _ => .connect id ctx)
    (fun _ _ h => h.joinNext) (fun _ s _ => .disconnect s)
    (fun _ _ e now failing _ h => h.emitToRooms (toMessage e now) failing (roomsOf e))
    (fun _ => none) (fun _ _ h => nomatch h) id s hs

/-- Where every token names an outlet and a user of its tenant, and so does every payload, a
socket receives events of its own tenant only, in every run of handshakes, joins, ends and
broadcasts. -/
theorem no_cross_tenant (rt : Auth) (outletTenant userTenant : String → String)
    (events : List (GatewayEvent D))
    (htokens : ∀ id h ctx, GatewayEvent.handshake id h ∈ events →
      authenticateSocket rt h = .ok ctx → userTenant ctx.userId = ctx.tenantId ∧
        ∀ o, ctx.outletId = some o → o ≠ "" → outletTenant o = ctx.tenantId)
    (hpayloads : ∀ e now failing, GatewayEvent.publish e now failing ∈ events →
      ∀ t, e.payload.tenantId = some t →
        (∀ u, e.payload.userId = some u → u ≠ "" → userTenant u = t) ∧
        ∀ o, e.payload.outletId = some o → o ≠ "" → outletTenant o = t)
    (id : SocketId) (s : Socket D)
    (hs : Sockets.run rt (fun _ => none) events id = some s) (m : Message D)
    (hm : m ∈ s.received) : m.data.tenantId = some s.ctx.tenantId := by
  have hrun := Sockets.run_invariant rt events
    (I := fun id s => s.Kept id ∧ (userTenant s.ctx.userId = s.ctx.tenantId ∧
      ∀ o, s.ctx.outletId = some o → o ≠ "" → outletTenant o = s.ctx.tenantId) ∧
      ∀ m ∈ s.received, m.data.tenantId = some s.ctx.tenantId) ?_ ?_ ?_ ?_
    (fun _ => none) (fun _ _ h => nomatch h) id s hs
  · exact hrun.2.2 m hm
  · intro id h ctx hmem hauth
    exact ⟨.connect id ctx, htokens id h ctx hmem hauth, fun _ h => absurd h List.not_mem_nil⟩
  · rintro id s ⟨hkept, hown, hreceived⟩
    have hsame : s.joinNext.ctx = s.ctx ∧ s.joinNext.received = s.received := by
      unfold Socket.joinNext
      cases s.joining with
      | tenant => exact ⟨rfl, rfl⟩
      | outlet =>
          dsimp only
          cases s.ctx.outletId.filter (· ≠ "") with
          | none => exact ⟨rfl, rfl⟩
          | some o => exact ⟨rfl, rfl⟩
      | user => exact ⟨rfl, rfl⟩
      | joined => exact ⟨rfl, rfl⟩
    refine ⟨hkept.joinNext, ?_⟩
    rw [hsame.1, hsame.2]
    exact ⟨hown, hreceived⟩
  · rintro id s ⟨-, hown, hreceived⟩
    exact ⟨.disconnect s, hown, hreceived⟩
  · rintro id s e now failing hmem ⟨hkept, hown, hreceived⟩
    obtain ⟨more, heq, hmore⟩ := Socket.emitToRooms_eq (toMessage e now) failing (roomsOf e) s
    refine ⟨hkept.emitToRooms _ _ _, ?_⟩
    have hshares {m' : Message D} (hm' : m' ∈ more) := hkept.shares heq hm'
    rw [heq]
    refine ⟨hown, fun m' hm' => ?_⟩
    obtain hm' | hm' := List.mem_append.mp hm'
    · exact hreceived m' hm'
    · obtain ⟨-, room, hroom, -⟩ := hmore m' hm'
      obtain ⟨rfl, hshare⟩ := hshares hm'
      obtain ⟨t, -, htenant, -⟩ := mem_roomsOf.mp hroom
      obtain ⟨husers, houtlets⟩ := hpayloads e now failing hmem t htenant
      show e.payload.tenantId = some s.ctx.tenantId
      obtain h | ⟨o, ho, hpayload, hctx⟩ | ⟨hpayload, hu⟩ := hshare
      · exact h
      · rw [htenant, ← houtlets o hpayload ho, hown.2 o hctx ho]
      · rw [htenant, ← husers _ hpayload hu, hown.1]

/-! ## Delivery -/

/-- How many of the rooms of an event a context stands for. -/
def copies (ctx : SocketContext) (p : Payload D) : Nat :=
  match p.tenantId.filter (· ≠ "") with
  | none => 0
  | some t =>
      (if t = ctx.tenantId then 1 else 0) +
        (match p.outletId.filter (· ≠ "") with
          | none => 0
          | some o => if ctx.outletId.filter (· ≠ "") = some o then 1 else 0) +
        match p.userId.filter (· ≠ "") with
        | none => 0
        | some u => if u = ctx.userId then 1 else 0

theorem colon_mem_append {a b : String} (h : ':' ∈ a.toList) : ':' ∈ (a ++ b).toList := by
  rw [String.toList_append]
  exact List.mem_append_left _ h

section membership

variable {ctx : SocketContext}

theorem tenantRoom_mem {t : String} :
    tenantRoom t ∈ id.text :: ctx.rooms ↔ t = ctx.tenantId := by
  have hid : tenantRoom t ≠ id.text := fun h => id.plain (h ▸ colon_mem_append (by decide))
  unfold SocketContext.rooms
  rw [List.mem_cons, List.mem_append, List.mem_append, List.mem_singleton, List.mem_singleton,
    Option.mem_toList, Option.map_eq_some_iff]
  constructor
  · rintro (h | (h | ⟨o, -, h⟩) | h)
    · exact absurd h hid
    · exact tenantRoom_inj h
    · exact absurd h.symm (tenantRoom_ne_outletRoom _ _)
    · exact absurd h (tenantRoom_ne_userRoom _ _)
  · rintro rfl
    exact .inr (.inl (.inl rfl))

theorem outletRoom_mem {o : String} :
    outletRoom o ∈ id.text :: ctx.rooms ↔ ctx.outletId.filter (· ≠ "") = some o := by
  have hid : outletRoom o ≠ id.text := fun h => id.plain (h ▸ colon_mem_append (by decide))
  unfold SocketContext.rooms
  rw [List.mem_cons, List.mem_append, List.mem_append, List.mem_singleton, List.mem_singleton,
    Option.mem_toList, Option.map_eq_some_iff]
  constructor
  · rintro (h | (h | ⟨o', ho', h⟩) | h)
    · exact absurd h hid
    · exact absurd h.symm (tenantRoom_ne_outletRoom _ _)
    · rw [← outletRoom_inj h]
      exact ho'
    · exact absurd h (outletRoom_ne_userRoom _ _)
  · exact fun ho => .inr (.inl (.inr ⟨o, ho, rfl⟩))

theorem userRoom_mem {u : String} : userRoom u ∈ id.text :: ctx.rooms ↔ u = ctx.userId := by
  have hid : userRoom u ≠ id.text := fun h => id.plain (h ▸ colon_mem_append (by decide))
  unfold SocketContext.rooms
  rw [List.mem_cons, List.mem_append, List.mem_append, List.mem_singleton, List.mem_singleton,
    Option.mem_toList, Option.map_eq_some_iff]
  constructor
  · rintro (h | (h | ⟨o, -, h⟩) | h)
    · exact absurd h hid
    · exact absurd h.symm (tenantRoom_ne_userRoom _ _)
    · exact absurd h (outletRoom_ne_userRoom _ _)
    · exact userRoom_inj h
  · rintro rfl
    exact .inr (.inr rfl)

/-- The rooms of an event that a socket has joined, counted. -/
theorem countP_roomsOf (e : DomainEvent D) :
    (roomsOf e).countP (· ∈ id.text :: ctx.rooms) = copies ctx e.payload := by
  unfold roomsOf toRealtimeRoomRouting copies
  cases htenant : e.payload.tenantId.filter (· ≠ "") with
  | none => rfl
  | some t =>
      have ht := (filter_nonempty.mp htenant).2
      have hone (a : String) : [a].countP (· ∈ id.text :: ctx.rooms) =
          if a ∈ id.text :: ctx.rooms then 1 else 0 := by
        rw [List.countP_singleton]
        simp
      unfold getRealtimeEventRooms
      dsimp only
      rw [if_neg ht, List.countP_append, List.countP_append, hone]
      congr 1
      · congr 1
        · exact if_congr tenantRoom_mem rfl rfl
        · cases e.payload.outletId.filter (· ≠ "") with
          | none => rfl
          | some o => exact (hone _).trans (if_congr outletRoom_mem rfl rfl)
      · cases e.payload.userId.filter (· ≠ "") with
        | none => rfl
        | some u => exact (hone _).trans (if_congr userRoom_mem rfl rfl)

end membership

/-- Connected, with all rooms joined. -/
structure Socket.Settled (id : SocketId) (s : Socket D) : Prop where
  connected : s.connected
  joining : s.joining = .joined
  rooms : s.rooms = id.text :: s.ctx.rooms

theorem emitToRooms_connected (m : Message D) (rooms : List String) :
    ∀ s : Socket D, s.connected → s.emitToRooms m [] rooms =
      { s with received := s.received ++ List.replicate (rooms.countP (· ∈ s.rooms)) m } := by
  induction rooms with
  | nil =>
      intro s _
      show s = { s with received := s.received ++ [] }
      rw [List.append_nil]
  | cons room rest ih =>
      intro s hs
      have hstep : s.emitToRooms m [] (room :: rest) =
          (s.deliver room m).emitToRooms m [] rest := by
        show Socket.emitToRooms (if room ∈ [] then s else s.deliver room m) m [] rest = _
        rw [if_neg List.not_mem_nil]
      rw [hstep]
      by_cases hroom : room ∈ s.rooms
      · have hdeliver : s.deliver room m = { s with received := s.received ++ [m] } :=
          if_pos ⟨hs, hroom⟩
        rw [hdeliver]
        refine (ih { s with received := s.received ++ [m] } hs).trans ?_
        rw [List.countP_cons_of_pos (by simpa using hroom), List.replicate_succ, List.append_assoc]
        rfl
      · have hdeliver : s.deliver room m = s := if_neg fun h => hroom h.2
        rw [hdeliver, ih s hs, List.countP_cons_of_neg (by simpa using hroom)]

/-- What an event at the gateway sends to a settled socket. -/
def sent (ctx : SocketContext) : GatewayEvent D → List (Message D)
  | .publish e now _ =>
      if e.type ∈ subscribedTypes then List.replicate (copies ctx e.payload) (toMessage e now)
      else []
  | _ => []

/-- Events that neither end the socket nor fail to be broadcast. -/
def Undisturbed (id : SocketId) : GatewayEvent D → Prop
  | .disconnect id' => id' ≠ id
  | .publish _ _ failing => failing = []
  | _ => True

theorem step_settled (rt : Auth) {sockets : Sockets D} {event : GatewayEvent D}
    (hs : sockets id = some s) (h : s.Settled id) (hevent : Undisturbed id event) :
    sockets.step rt event id =
      some { s with received := s.received ++ sent s.ctx event } := by
  have hsame : some s = some { s with received := s.received ++ [] } := by
    rw [List.append_nil]
  cases event with
  | handshake id' handshake =>
      refine Eq.trans ?_ hsame
      unfold Sockets.step
      cases hold : sockets id' with
      | some s' => simp only [hold, hs]
      | none =>
          have hne : id ≠ id' := by
            rintro rfl
            rw [hs] at hold
            cases hold
          cases hauth : authenticateSocket rt handshake with
          | error e => simp only [hold, hauth, hs]
          | ok ctx =>
              simp only [hold, hauth]
              rw [Function.update_of_ne hne]
              exact hs
  | join id' =>
      refine Eq.trans ?_ hsame
      show Function.update sockets id' ((sockets id').map Socket.joinNext) id = some s
      by_cases hid : id = id'
      · subst hid
        rw [Function.update_self, hs, Option.map_some]
        unfold Socket.joinNext
        rw [h.joining]
      · rw [Function.update_of_ne hid]
        exact hs
  | disconnect id' =>
      refine Eq.trans ?_ hsame
      show Function.update sockets id' ((sockets id').map Socket.disconnect) id = some s
      rw [Function.update_of_ne (Ne.symm hevent)]
      exact hs
  | publish e now failing =>
      have hfailing : failing = [] := hevent
      subst hfailing
      unfold Sockets.step sent
      by_cases htype : e.type ∈ subscribedTypes
      · simp only [htype, if_true]
        rw [hs, Option.map_some, emitToRooms_connected _ _ s h.connected, h.rooms, countP_roomsOf]
      · simp only [htype, if_false]
        exact hs.trans hsame

/-- Once a socket of a run has joined all its rooms, and for as long as it is neither ended nor a
broadcast fails, it receives every event of a subscribed type that shares something with it, in
the order in which they come to the gateway, and as often as they share tenant, outlet and
user. -/
theorem delivered_in_order (rt : Auth) (before after : List (GatewayEvent D)) (id : SocketId)
    (s : Socket D) (hs : Sockets.run rt (fun _ => none) before id = some s)
    (hconnected : s.connected) (hjoined : s.joining = .joined)
    (hafter : ∀ event ∈ after, Undisturbed id event) :
    Sockets.run rt (fun _ => none) (before ++ after) id =
      some { s with received := s.received ++ after.flatMap (sent s.ctx) } := by
  have hsettled : s.Settled id := by
    refine ⟨hconnected, hjoined, ?_⟩
    have hrooms := (kept_run before id s hs).joined hconnected
    rw [hjoined] at hrooms
    exact hrooms
  have hrun : ∀ (after : List (GatewayEvent D)) (sockets : Sockets D) (s : Socket D),
      sockets id = some s → s.Settled id → (∀ event ∈ after, Undisturbed id event) →
        sockets.run rt after id =
          some { s with received := s.received ++ after.flatMap (sent s.ctx) } := by
    intro after
    induction after with
    | nil =>
        intro sockets s hs _ _
        show sockets id = some { s with received := s.received ++ [] }
        rw [List.append_nil]
        exact hs
    | cons event rest ih =>
        intro sockets s hs h hafter
        have hstep := step_settled rt hs h (hafter event List.mem_cons_self)
        have hrest := ih (sockets.step rt event) _ hstep ⟨h.connected, h.joining, h.rooms⟩
          fun event' hevent' => hafter event' (List.mem_cons_of_mem _ hevent')
        show Sockets.run rt (sockets.step rt event) rest id = _
        rw [hrest, List.flatMap_cons, List.append_assoc]
  have happend : Sockets.run rt (fun _ => none) (before ++ after) =
      (Sockets.run rt (fun _ => none) before).run rt after := List.foldl_append
  rw [happend]
  exact hrun after _ s hs hsettled hafter

/-! ## A run -/

def socketA : SocketId := ⟨"a", by decide⟩

def socketB : SocketId := ⟨"b", by decide⟩

/-- Tokens that are `tenant` or `other` name a user of that tenant. -/
def twoTenants : Auth where
  secret := some "s"
  verify := fun token _ =>
    if token = "tenant" then some ⟨some "u", some "t", some "o"⟩
    else if token = "other" then some ⟨some "v", some "x", none⟩
    else none

/-- An event with the outlet of one of them. -/
def paid : DomainEvent Unit := ⟨"sales-order.paid", ⟨some "t", some "o", none, ()⟩, some 0⟩

def connectBoth : List (GatewayEvent Unit) :=
  [.handshake socketA ⟨some "Bearer tenant", none⟩, .handshake socketB ⟨none, some "other"⟩,
    .join socketA, .join socketB, .join socketA, .join socketB, .join socketA, .join socketB]

/-- Both sockets join; the event reaches one of them, once for the tenant and once for the
outlet. -/
theorem delivered_twice :
    (Sockets.run twoTenants (fun _ => none) (connectBoth ++ [.publish paid 1 []]) socketA).map
        Socket.received = some [toMessage paid 1, toMessage paid 1] := by
  have hrun := delivered_in_order twoTenants connectBoth [.publish paid 1 []] socketA
    ⟨⟨"u", "t", some "o"⟩, ["a", "tenant:t", "outlet:o", "user:u"], .joined, true, []⟩
    (by decide +kernel) rfl rfl (fun event hevent => by
      rw [List.mem_singleton.mp hevent]
      exact rfl)
  rw [hrun]
  decide +kernel

/-- The arrival of a transfer is on the bus and comes to no socket. -/
example : Sockets.run twoTenants (fun _ => none) (connectBoth ++
      [.publish { paid with type := "warehouse-transfer.received" } 1 []]) socketA =
    Sockets.run twoTenants (fun _ => none) connectBoth socketA := by
  decide +kernel

theorem no_cross_tenant_two :
    (Sockets.run twoTenants (fun _ => none) (connectBoth ++ [.publish paid 1 []]) socketA).map
        Socket.received = some [toMessage paid 1, toMessage paid 1] ∧
      (toMessage paid 1).data.tenantId = some "t" := by
  refine ⟨by decide +kernel, ?_⟩
  refine no_cross_tenant twoTenants (fun _ => "t") (fun u => if u = "u" then "t" else "x")
    (connectBoth ++ [.publish paid 1 []]) ?_ ?_ socketA
    ⟨⟨"u", "t", some "o"⟩, ["a", "tenant:t", "outlet:o", "user:u"], .joined, true,
      [toMessage paid 1, toMessage paid 1]⟩ (by decide +kernel) (toMessage paid 1)
    List.mem_cons_self
  · intro id h ctx hmem hauth
    have hcases : h = ⟨some "Bearer tenant", none⟩ ∨ h = ⟨none, some "other"⟩ := by
      simp [connectBoth] at hmem
      tauto
    obtain rfl | rfl := hcases
    · have htoken : authenticateSocket twoTenants ⟨some "Bearer tenant", none⟩ =
          .ok ⟨"u", "t", some "o"⟩ := by decide +kernel
      rw [htoken] at hauth
      cases hauth
      exact ⟨by decide, fun _ _ _ => rfl⟩
    · have htoken : authenticateSocket twoTenants ⟨none, some "other"⟩ = .ok ⟨"v", "x", none⟩ := by
        decide +kernel
      rw [htoken] at hauth
      cases hauth
      exact ⟨by decide, nofun⟩
  · intro e now failing hmem t ht
    have he : e = paid := by
      simp [connectBoth] at hmem
      exact hmem.1
    subst he
    cases ht
    exact ⟨nofun, fun _ _ _ => rfl⟩

end Realtime
end ERP
