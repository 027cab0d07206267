import IslandSurvival.Theorems.NullRoom
import IslandSurvival.Theorems.Stack

/-! The use of the ring. A departure uses it only during a game; the requests that use it do not look at the
    status of the room. -/

namespace IslandSurvival

open Prog

/-- A call of `SYN::Add` or `SYN::GetNowFrame` counts when the room is not in game. -/
def misuse : RoomStatus → Nat
  | .ingame => 0
  | _ => 1

theorem misuse_eq_zero {status : RoomStatus} : misuse status = 0 ↔ status = .ingame := by
  cases status <;> simp [misuse]

/-- How often the ring of a room was used that was not in game -/
def misuses : List Event → Nat
  | [] => 0
  | .synUse _ status :: older => misuses older + misuse status
  | _ :: older => misuses older

/-- The requests that use the ring -/
def ringRequests : List Int32 :=
  [Msg.csChoseRole, Msg.csMove, Msg.csKill, Msg.csSkill, Msg.csGamePause, Msg.csGameEnd]

/-! ### Departures -/

/-- A player that is leaving a game leaves a room that is in game. -/
def QuitsInGame (k : List Frame) (s : Server) : Prop :=
  ∀ p pos, k.head? = some (.quitting p pos) → (s.room p).status = .ingame

section
variable {env : Env} {k l : List Frame} {s t : Server} {f : Frame}

theorem QuitsInGame.nil : QuitsInGame [] s := by
  intro p pos top
  cases top

theorem QuitsInGame.pop (stack : Stack (f :: k)) : QuitsInGame k s := by
  intro p pos top
  obtain ⟨role, waits⟩ := stack.waits (List.mem_of_mem_head? top)
  cases waits

theorem QuitsInGame.other (other : ∀ p pos, f ≠ .quitting p pos) : QuitsInGame (f :: k) s := by
  intro p pos top
  exact absurd (Option.some.inj top) (other p pos)

theorem QuitsInGame.departing {p : RoomPtr} {u : Int} (pos : Nat) (room : s.room p = (t.room p).vacate pos) :
    QuitsInGame ((t.room p).departing u p :: k) s := by
  intro q pos' top
  have departs := Option.some.inj top
  unfold Room.departing at departs
  cases status : (t.room p).status with
  | waiting => simp [status] at departs
  | loading => simp [status] at departs
  | ingame =>
    simp only [status, Frame.quitting.injEq] at departs
    obtain ⟨rfl, -⟩ := departs
    simp [room, Room.vacate, Room.setOffline, status]

theorem quits_step (move : Step env k s l t) (stack : Stack k) (h : QuitsInGame k s) : QuitsInGame l t := by
  cases move with
  | updateTime p now =>
    intro q pos top
    have same : ((s.setRoom p { s.room p with syn := (s.room p).syn.updateTime now }).room q).status = (s.room q).status :=
      Server.setRoom_congr (f := Room.status) (by rfl) q
    exact same.trans (h q pos top)
  | @leave _ _ _ _ _ person p _ _ _ _ => exact .departing _ (Server.setRoom_room_self _ p _)
  | everyone may => exact .other fun _ _ => by simp
  | _ => first | exact h | exact .nil | exact .pop stack | exact .other fun _ _ => by simp

/-- A move that is not made by one of the requests for the ring uses it only in a game. -/
theorem misuses_step (move : Step env k s l t) (h : QuitsInGame k s)
    (other : ∀ fd u mess, k = [.handling fd (some u) mess] → mess.head.messageId ∉ ringRequests) :
    misuses t.trace = misuses s.trace := by
  cases move with
  | synUse may =>
    cases may with
    | quitting => exact congrArg (misuses s.trace + ·) (misuse_eq_zero.mpr (h _ _ rfl))
    | plays plays =>
      refine absurd ?_ (other _ _ _ rfl)
      cases plays with
      | member gameplay _ _ =>
        simp only [List.mem_cons, List.not_mem_nil, or_false] at gameplay
        rcases gameplay with id | id | id | id <;> simp [id, ringRequests]
      | pause id _ _ => simp [id, ringRequests]
    | gameEnd id _ => exact absurd (by simp [id, ringRequests]) (other _ _ _ rfl)
  | drop _ _ =>
    obtain ⟨_, _, _, _, _, hs⟩ := dropConnection_eq _ _ s
    rw [hs]
    rfl
  | left => rw [PersonManager.changePersonStatus_eq]
  | create gameMode teamMode _ _ _ =>
    obtain ⟨_, _, _, _, _, _, -, hs⟩ := RoomManager.created_eq _ gameMode teamMode s
    rw [hs]
    rfl
  | join _ _ _ _ _ _ =>
    rw [RoomManager.joined_eq]
    rfl
  | @enter _ _ fd user _ userId _ _ _ _ _ person =>
    rcases @entered_trace _ _ (loginArg fd user) _ _ person with trace | trace
    · rw [trace]
    · rw [trace]
      rfl
  | heartbeat _ old =>
    obtain ⟨_, _, rfl⟩ := Heartbeat.erased old
    rfl
  | gameEnd _ _ _ =>
    rw [PersonManager.changePersonStatus_eq]
    rfl
  | acceptFail sock acc _ =>
    obtain ⟨_, _, _, _, _, rfl⟩ := acceptSocket_eq sock acc
    rfl
  | acceptLost sock acc _ =>
    obtain ⟨_, _, _, _, _, rfl⟩ := acceptSocket_eq sock acc
    rfl
  | accept _ sock acc _ =>
    obtain ⟨_, _, _, hs⟩ := accepted_eq _ _ _
    rw [hs]
    obtain ⟨_, _, _, _, _, rfl⟩ := acceptSocket_eq sock acc
    rfl
  | _ => rfl

end

/-- Every call that a request makes keeps the count, if the request itself does not use the ring. -/
theorem stable_misuses (env : Env) (fd : Int) (user : Option Int) (mess : CMessage) (n : Nat)
    (other : user = none ∨ mess.head.messageId ∉ ringRequests) :
    Stable env [.handling fd user mess] fun k t =>
      Stack (k ++ [.handling fd user mess]) ∧ QuitsInGame (k ++ [.handling fd user mess]) t ∧ misuses t.trace = n where
  step {k s l t} move h := by
    obtain ⟨stack, quits, count⟩ := h
    refine ⟨stack_step move stack, quits_step move stack quits, ?_⟩
    rw [misuses_step move quits fun fd' u req hk => ?_, count]
    have whole : k ++ [.handling fd user mess] = [] ++ [.handling fd' (some u) req] := hk
    obtain ⟨-, same⟩ := List.append_inj' whole rfl
    simp only [List.cons.injEq, Frame.handling.injEq, and_true] at same
    obtain ⟨-, rfl, rfl⟩ := same
    exact other.resolve_left (by simp)

/-! ### The requests that use the ring -/

section
variable {env : Env} {s : Server} {u : Int} {p : RoomPtr} {mess : CMessage}

theorem getNowFrame_misuses : wp (Syn.getNowFrame env p)
    (fun _ t => misuses t.trace = misuses s.trace + misuse (s.room p).status ∧ (t.room p).status = (s.room p).status)
    (fun _ _ => False) s := by
  simp only [Syn.getNowFrame, wp_bind, wp_getNowTimeUs, wp_modifyRoom, wp_getRoom, wp_log, wp_pure,
    Server.setRoom_room_self]
  exact ⟨rfl, rfl⟩

theorem addTo_misuses : wp (Syn.addTo env p mess)
    (fun _ t => misuses t.trace = misuses s.trace + misuse (s.room p).status)
    (fun _ t => misuses t.trace = misuses s.trace + misuse (s.room p).status) s := by
  simp only [Syn.addTo, wp_bind, wp_getNowTimeUs, wp_getRoom, wp_log]
  exact wp_guarded (fun _ _ => rfl) fun _ _ => rfl

/-- From `s` on, `c` uses only rings of rooms that are in game if and only if `P` holds. -/
def CountsIff {α : Type} (s : Server) (P : Prop) (c : M α) : Prop :=
  wp c (fun _ t => misuses t.trace = misuses s.trace ↔ P) (fun _ t => misuses t.trace = misuses s.trace ↔ P) s

/-- A gameplay request uses the ring of its room once or twice, if its user has a slot there. -/
theorem relay_misuses {room : Server → Option RoomPtr} {failed : Int} {reply : RoomPtr → Nat → M CMessage}
    (hreply : ∀ p i, wp (reply p i) (fun _ t => (misuses t.trace = misuses s.trace ∨
      misuses t.trace = misuses s.trace + misuse (s.room p).status) ∧ (t.room p).status = (s.room p).status)
      (fun _ _ => False) s) :
    CountsIff s (∀ p, room s = some p → (s.room p).getPlayerId u ≠ 0 → (s.room p).status = .ingame)
      (MP.relay env room failed u reply) := by
  simp only [CountsIff, MP.relay, wp_bind, wp_get]
  cases here : room s with
  | none => simp
  | some p =>
    simp only [wp_bind, wp_getRoom]
    split
    · rename_i absent
      simp [absent]
    · rename_i player
      simp only [wp_bind, wp_pure]
      refine wp_mono (hreply p _) (fun newmess t replied => ?_) fun _ _ => False.elim
      obtain ⟨before, status⟩ := replied
      have count : ∀ n, n = misuses t.trace + misuse (t.room p).status → (n = misuses s.trace ↔
          ∀ q, some p = some q → (s.room q).getPlayerId u ≠ 0 → (s.room q).status = .ingame) := by
        rintro n rfl
        rw [status]
        constructor
        · intro same q hq _
          obtain rfl := Option.some.inj hq
          exact misuse_eq_zero.mp (by omega)
        · intro ingame
          have none := misuse_eq_zero.mpr (ingame p rfl player)
          omega
      exact wp_mono addTo_misuses (fun _ t' after => count _ after) fun _ t' after => count _ after

/-- What a request sends does not use the ring of a room that is not in game. -/
theorem send_misuses (userId : Int) {reply : CMessage} (may : Reply s reply) : wp (MP.send env userId reply)
    (fun _ t => misuses t.trace = misuses s.trace) (fun _ t => misuses t.trace = misuses s.trace) s := by
  refine wp_mono (MP.send_spec (k := []) (stable_misuses env 0 none reply (misuses s.trace) (.inl rfl)) rfl userId may ?_)
    (fun _ t ht => ht.2.2) fun _ t ⟨_, ht⟩ => ht.2.2
  exact ⟨.outer .request, .other fun _ _ => by simp, rfl⟩

theorem gameEndFromRoom_misuses : wp (RoomManager.gameEndFromRoom u)
    (fun _ t => misuses t.trace = misuses s.trace) (fun _ t => misuses t.trace = misuses s.trace) s := by
  simp only [RoomManager.gameEndFromRoom, wp_bind, wp_get]
  split
  · rfl
  · simp only [wp_bind, wp_modify, Room.gameEnd, wp_getRoom, wp_log]
    split
    · split
      · simp only [wp_bind, wp_modify, wp_pure, PersonManager.changePersonStatus_eq]
        rfl
      · rfl
    · rfl

/-- A `CSGameEnd` uses the ring of the room of its user. -/
theorem csGameEnd_misuses :
    CountsIff s (∀ p, s.belongRoom[u]? = some p → (s.room p).status = .ingame) (MP.csGameEnd env u) := by
  simp only [CountsIff, MP.csGameEnd, wp_bind, wp_get, RoomManager.getRoomByUserId]
  cases belong : s.belongRoom[u]? with
  | none => simp
  | some p =>
    have count : ∀ t : Server, misuses t.trace = misuses s.trace + misuse (s.room p).status →
        (misuses t.trace = misuses s.trace ↔ ∀ q, some p = some q → (s.room q).status = .ingame) := by
      intro t ht
      rw [ht]
      constructor
      · intro same q hq
        obtain rfl := Option.some.inj hq
        exact misuse_eq_zero.mp (by omega)
      · intro ingame
        have none := misuse_eq_zero.mpr (ingame p rfl)
        omega
    simp only [wp_bind, wp_discard, wp_pure]
    refine wp_mono getNowFrame_misuses (fun frame t used => ?_) fun _ _ => False.elim
    obtain ⟨ht, -⟩ := used
    refine wp_mono (send_misuses u .gameEnd) (fun _ t' ht' => ?_)
      fun _ t' ht' => count t' (ht'.trans ht)
    exact wp_mono gameEndFromRoom_misuses (fun _ t'' ht'' => count t'' (ht''.trans (ht'.trans ht)))
      fun _ t'' ht'' => count t'' (ht''.trans (ht'.trans ht))

end

/-! ### Every message -/

/-- The rooms whose ring a request of a user is for -/
def UsesRing (s : Server) (u : Int) (mess : CMessage) (p : RoomPtr) : Prop :=
  Plays s u mess p ∨ (mess.head.messageId = Msg.csGameEnd ∧ s.belongRoom[u]? = some p)

theorem usesRing_log {s : Server} {e : Event} {u : Int} {mess : CMessage} {p : RoomPtr} :
    UsesRing (s.log e) u mess p ↔ UsesRing s u mess p := by
  have plays : Plays (s.log e) u mess p ↔ Plays s u mess p := by
    constructor
    · rintro (⟨gameplay, belong, player⟩ | ⟨pause, room, player⟩)
      · exact .member gameplay belong player
      · exact .pause pause room player
    · rintro (⟨gameplay, belong, player⟩ | ⟨pause, room, player⟩)
      · exact .member gameplay belong player
      · exact .pause pause room player
  exact or_congr plays Iff.rfl

/-- A call leads to a state, whether it returns or stops. -/
def Leads {α : Type} (c : M α) (s t : Server) : Prop := (∃ a, c s = .ok a t) ∨ ∃ e, c s = .error e t

theorem exists_leads {α : Type} (c : M α) (s : Server) : ∃ t, Leads c s t := by
  cases run : c s with
  | ok a t => exact ⟨t, .inl ⟨a, run⟩⟩
  | error e t => exact ⟨t, .inr ⟨e, run⟩⟩

theorem leads_of_wp {α : Type} {c : M α} {s t : Server} {P : Server → Prop} (h : wp c (fun _ t => P t) (fun _ t => P t) s)
    (leads : Leads c s t) : P t := by
  obtain ⟨a, run⟩ | ⟨e, run⟩ := leads
  · exact wp_ok h run
  · exact wp_error h run

section
variable {env : Env} {s t : Server} {fd u : Int} {user : Option Int} {c : SockPtr} {mess : CMessage} {data : Nat → UInt8}
  {size : Nat}

theorem usesRing_member (gameplay : mess.head.messageId ∈ [Msg.csChoseRole, Msg.csMove, Msg.csKill, Msg.csSkill]) :
    (∀ p, UsesRing s u mess p → (s.room p).status = .ingame) ↔
      ∀ p, s.belongRoom[u]? = some p → (s.room p).getPlayerId u ≠ 0 → (s.room p).status = .ingame := by
  constructor
  · exact fun h p belong player => h p (.inl (.member gameplay belong player))
  · rintro h p (plays | ⟨ends, -⟩)
    · cases plays with
      | member _ belong player => exact h p belong player
      | pause id _ _ =>
        rw [id] at gameplay
        exact absurd gameplay (by decide)
    · rw [ends] at gameplay
      exact absurd gameplay (by decide)

theorem usesRing_pause (pause : mess.head.messageId = Msg.csGamePause) :
    (∀ p, UsesRing s u mess p → (s.room p).status = .ingame) ↔
      ∀ p, s.rooms[u]? = some p → (s.room p).getPlayerId u ≠ 0 → (s.room p).status = .ingame := by
  constructor
  · exact fun h p room player => h p (.inl (.pause pause room player))
  · rintro h p (plays | ⟨ends, -⟩)
    · cases plays with
      | member gameplay _ _ =>
        rw [pause] at gameplay
        exact absurd gameplay (by decide)
      | pause _ room player => exact h p room player
    · rw [ends] at pause
      exact absurd pause (by decide)

theorem usesRing_gameEnd (ends : mess.head.messageId = Msg.csGameEnd) :
    (∀ p, UsesRing s u mess p → (s.room p).status = .ingame) ↔
      ∀ p, s.belongRoom[u]? = some p → (s.room p).status = .ingame := by
  constructor
  · exact fun h p belong => h p (.inr ⟨ends, belong⟩)
  · rintro h p (plays | ⟨-, belong⟩)
    · cases plays with
      | member gameplay _ _ =>
        rw [ends] at gameplay
        exact absurd gameplay (by decide)
      | pause id _ _ =>
        rw [ends] at id
        exact absurd id (by decide)
    · exact h p belong

theorem not_usesRing (other : mess.head.messageId ∉ ringRequests) {p : RoomPtr} : ¬UsesRing s u mess p := by
  rintro (plays | ⟨ends, -⟩)
  · cases plays with
    | member gameplay _ _ =>
      refine other ?_
      simp only [List.mem_cons, List.not_mem_nil, or_false] at gameplay
      rcases gameplay with id | id | id | id <;> simp [id, ringRequests]
    | pause id _ _ => exact other (by simp [id, ringRequests])
  · exact other (by simp [ends, ringRequests])

section
variable {proto : Proto} (content : mess.proto = some proto)
include content

theorem csChoseRole_misuses (ofType : proto.type? = some .csChoseRole) : CountsIff s
    (∀ p, s.belongRoom[u]? = some p → (s.room p).getPlayerId u ≠ 0 → (s.room p).status = .ingame)
    (MP.csChoseRole env u mess) := by
  obtain ⟨roleId, rfl⟩ : ∃ roleId, proto = .csChoseRole roleId := by cases proto <;> simp_all [Proto.type?]
  simp only [MP.csChoseRole, content]
  refine relay_misuses fun p i => ?_
  simp only [wp_bind, wp_pure]
  exact wp_post getNowFrame_misuses fun _ t ht => ⟨.inr ht.1, ht.2⟩

theorem csMove_misuses (ofType : proto.type? = some .csMove) : CountsIff s
    (∀ p, s.belongRoom[u]? = some p → (s.room p).getPlayerId u ≠ 0 → (s.room p).status = .ingame)
    (MP.csMove env u mess) := by
  obtain ⟨dir, rfl⟩ : ∃ dir, proto = .csMove dir := by cases proto <;> simp_all [Proto.type?]
  simp only [MP.csMove, content]
  exact relay_misuses fun p i => ⟨.inl rfl, rfl⟩

theorem csKill_misuses (ofType : proto.type? = some .csKill) : CountsIff s
    (∀ p, s.belongRoom[u]? = some p → (s.room p).getPlayerId u ≠ 0 → (s.room p).status = .ingame)
    (MP.csKill env u mess) := by
  obtain ⟨killer, bekilled, rfl⟩ : ∃ killer bekilled, proto = .csKill killer bekilled := by
    cases proto <;> simp_all [Proto.type?]
  simp only [MP.csKill, content]
  exact relay_misuses fun p i => ⟨.inl rfl, rfl⟩

theorem csSkill_misuses (ofType : proto.type? = some .csSkill) : CountsIff s
    (∀ p, s.belongRoom[u]? = some p → (s.room p).getPlayerId u ≠ 0 → (s.room p).status = .ingame)
    (MP.csSkill env u mess) := by
  obtain ⟨skillId, posX, posZ, targetId, rfl⟩ : ∃ skillId posX posZ targetId, proto = .csSkill skillId posX posZ targetId := by
    cases proto <;> simp_all [Proto.type?]
  simp only [MP.csSkill, content]
  exact relay_misuses fun p i => ⟨.inl rfl, rfl⟩

end

/-- The class of a registered message -/
theorem type_eq {type type' : PBType} {id : Int32} (registered : Register.boot.processor id = some type)
    (use : ∀ use ∈ Register.uses, use.1 = id → use.2 = type') : type = type' :=
  use _ (Register.boot_processor registered) rfl

/-- A request for the ring of a room uses it in game exactly when the room is in game. -/
theorem processRequest_misuses {type : PBType} {proto : Proto}
    (registered : Register.boot.processor mess.head.messageId = some type) (content : mess.proto = some proto)
    (ofType : proto.type? = some type) (ring : mess.head.messageId ∈ ringRequests) :
    CountsIff s (∀ p, UsesRing s u mess p → (s.room p).status = .ingame) (processRequest env u mess) := by
  unfold processRequest
  rw [registered]
  simp only [ringRequests, List.mem_cons, List.not_mem_nil, or_false] at ring
  rcases ring with id | id | id | id | id | id
  · obtain rfl : type = .csChoseRole := type_eq registered (by rw [id]; decide)
    rw [usesRing_member (by simp [id])]
    exact csChoseRole_misuses content ofType
  · obtain rfl : type = .csMove := type_eq registered (by rw [id]; decide)
    rw [usesRing_member (by simp [id])]
    exact csMove_misuses content ofType
  · obtain rfl : type = .csKill := type_eq registered (by rw [id]; decide)
    rw [usesRing_member (by simp [id])]
    exact csKill_misuses content ofType
  · obtain rfl : type = .csSkill := type_eq registered (by rw [id]; decide)
    rw [usesRing_member (by simp [id])]
    exact csSkill_misuses content ofType
  · obtain rfl : type = .csGamePause := type_eq registered (by rw [id]; decide)
    rw [usesRing_pause id]
    exact relay_misuses fun p i => ⟨.inl rfl, rfl⟩
  · obtain rfl : type = .csGameEnd := type_eq registered (by rw [id]; decide)
    rw [usesRing_gameEnd id]
    exact csGameEnd_misuses

theorem requestArg_ring (ring : mess.head.messageId ∈ ringRequests) : requestArg fd (some u) mess = u := by
  have other : mess.head.messageId ≠ Msg.csHeartbeat := by
    rintro heartbeat
    rw [heartbeat] at ring
    exact absurd ring (by decide)
  simp [requestArg, loginArg, other]

/-- A request of nobody, or one that is not for the ring -/
theorem keepsRing (conn : s.connects[fd]? = some c) (bound : s.fdToUserId[fd]? = user) (answered : Answered user mess)
    (other : user = none ∨ mess.head.messageId ∉ ringRequests) {P : Server → Prop}
    (hP : ∀ t, misuses t.trace = misuses s.trace → P t) :
    wp (processRequest env (requestArg fd user mess) mess) (fun _ t => P t) (fun _ t => P t)
      (s.log (.request fd user mess)) := by
  refine wp_mono (processRequest_spec (k := []) (stable_misuses env fd user mess (misuses s.trace) other) rfl rfl conn
    bound answered ?_) (fun _ t ht => hP t ht.2.2) fun _ t ⟨_, ht⟩ => hP t ht.2.2
  exact ⟨.outer .request, .other fun _ _ => by simp, rfl⟩

/-- Every message of a connection uses rings only of rooms that are in game if and only if the room that the
    message itself is for is in game. -/
theorem ring_used_in_game_iff (conn : s.connects[fd]? = some c) (parsed : parseStrToMessage env.pb data size = some mess)
    (leads : Leads (dispatch env fd mess) s t) :
    misuses t.trace = misuses s.trace ↔
      ∀ u p, s.fdToUserId[fd]? = some u → UsesRing s u mess p → (s.room p).status = .ingame := by
  refine leads_of_wp (P := fun t => misuses t.trace = misuses s.trace ↔ _) ?_ leads
  obtain ⟨type, registered, proto, content, ofType⟩ := processor_of_parsed parsed
  rw [dispatch_eq]
  simp only [wp_bind, wp_get]
  split
  · rename_i answered
    simp only [wp_bind, wp_log, wp_discard]
    cases user : s.fdToUserId[fd]? with
    | none =>
      rw [user] at answered
      refine keepsRing conn user answered (.inl rfl) fun t ht => ?_
      simp [ht]
    | some u =>
      by_cases ring : mess.head.messageId ∈ ringRequests
      · have arg : requestArg fd (some u) mess = u := requestArg_ring ring
        have counts := @processRequest_misuses env (s.log (.request fd (some u) mess)) u _ _ _ registered
          content ofType ring
        have rooms : (∀ v p, some u = some v → UsesRing s v mess p → (s.room p).status = .ingame) ↔
            ∀ p, UsesRing (s.log (.request fd (some u) mess)) u mess p → (s.room p).status = .ingame := by
          simp only [usesRing_log, Option.some.injEq]
          exact ⟨fun h p => h u p rfl, fun h v p same => same ▸ h p⟩
        rw [arg, rooms]
        exact counts
      · rw [user] at answered
        refine keepsRing conn user answered (.inr ring) fun t ht => ?_
        simp [ht, not_usesRing ring]
  · rename_i ignored
    have none : s.fdToUserId[fd]? = none := by
      cases user : s.fdToUserId[fd]? with
      | none => rfl
      | some u => exact absurd (.inr (.inl (by simp [user]))) ignored
    simp [none]

end

/-- A `CSLoadSucceed` of player 1 does not use a ring. -/
theorem ring_used_in_game_load : ∃ s t, Reachable (Script.oneClient (Script.request 0)) s ∧
    Leads (dispatch (Script.oneClient (Script.request 0)) 4 (Script.parsed 0x12 .csLoadSucceed)) s t ∧
    misuses t.trace = misuses s.trace := by
  obtain ⟨s, reachable, connected⟩ := exists_of_ends 2 (fun s => s.connects[(4 : Int)]?.isSome)
    (Script.reachable (Script.oneClient (Script.request 0))) (by decide +kernel)
  obtain ⟨c, conn⟩ := Option.isSome_iff_exists.mp connected
  have parsed : parseStrToMessage Script.pb (Script.received 0x12) 16 = some (Script.parsed 0x12 .csLoadSucceed) := by
    decide +kernel
  obtain ⟨t, leads⟩ := exists_leads (dispatch (Script.oneClient (Script.request 0)) 4 (Script.parsed 0x12 .csLoadSucceed)) s
  exact ⟨s, t, reachable, leads, (ring_used_in_game_iff conn parsed leads).mpr fun u p _ uses =>
    absurd uses (not_usesRing (by decide))⟩

/-- A `CSChoseRole` of the owner of a room that waits uses the ring of the room. -/
theorem ring_used_while_waiting : ∃ s, Reachable (Script.oneClient (Script.request 0 ++ Script.request 9 ++ Script.request 0x15)) s ∧
    .synUse 0 .waiting ∈ s.trace := by
  obtain ⟨s, reachable, test⟩ := exists_of_ends 2 (fun s => decide (Event.synUse 0 .waiting ∈ s.trace))
    (Script.reachable (Script.oneClient (Script.request 0 ++ Script.request 9 ++ Script.request 0x15))) (by decide +kernel)
  exact ⟨s, reachable, of_decide_eq_true test⟩

end IslandSurvival
