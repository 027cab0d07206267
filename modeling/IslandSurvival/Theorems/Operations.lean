import Mathlib.Data.List.Infix
import IslandSurvival.Theorems.Telling
import IslandSurvival.Theorems.Handlers

/-! The operations on a waiting room: when the players that stay know the room as it is. Of every operation the condition
    looks at the room right after its own change, and at the writes that fail. -/

namespace IslandSurvival

open Prog

/-- What clients do to a waiting room; the messages are the requests. -/
inductive LobbyOp
  | create (userId : Int) (mess : CMessage)
  | join (userId : Int) (mess : CMessage)
  | exit (userId : Int)
  | change (userId : Int) (mess : CMessage)
  | disconnect (fd : Int)

namespace LobbyOp

/-- The call for an operation, which ends when its whole cascade has -/
def run (env : Env) : LobbyOp → M Unit
  | create userId mess => discard (MP.csCreateRoom env userId mess)
  | join userId mess => discard (MP.csJoinRoom env userId mess)
  | exit userId => discard (MP.csPlayerExitRoom env userId)
  | change userId mess => discard (MP.csChangeTeam env userId mess)
  | disconnect fd => deleteClientByFd env fd

/-- The operations on room `p`. Requests that are refused are not among them. -/
inductive On (p : RoomPtr) (s : Server) : LobbyOp → Prop
  | create {u : Int} {mess : CMessage} {gameMode teamMode : Int} (free : u ∉ s.belongRoom)
      (takes : (RoomManager.takeRoom s).1 = p) (content : mess.proto = some (.csCreateRoom gameMode teamMode)) :
      On p s (.create u mess)
  | join {u : Int} {mess : CMessage} {roomId : Int} (free : u ∉ s.belongRoom) (room : s.rooms[roomId]? = some p)
      (status : (s.room p).status = .waiting) (cnt : (s.room p).playerCnt < maxPlayerCnt)
      (content : mess.proto = some (.csJoinRoom roomId)) : On p s (.join u mess)
  | exit {u : Int} (belong : s.belongRoom[u]? = some p) (status : (s.room p).status = .waiting) : On p s (.exit u)
  | change {u : Int} {mess : CMessage} {teamId gameOption : Option Int} (belong : s.belongRoom[u]? = some p)
      (status : (s.room p).status = .waiting) (content : mess.proto = some (.csChangeTeam teamId gameOption)) :
      On p s (.change u mess)
  | disconnect {fd u : Int} {c : SockPtr} (conn : s.connects[fd]? = some c) (user : s.fdToUserId[fd]? = some u)
      (belong : s.belongRoom[u]? = some p) (status : (s.room p).status = .waiting) : On p s (.disconnect fd)

/-- The state when the operation has changed the room, and nobody has been told yet. A member that is disconnected is still
    there. -/
def changed (p : RoomPtr) (s : Server) : LobbyOp → Server
  | create u mess => match mess.proto with
    | some (.csCreateRoom gameMode teamMode) => RoomManager.created u gameMode teamMode s
    | _ => s
  | join u _ => RoomManager.joined u p s
  | exit u => RoomManager.departed u p s
  | change u mess => match mess.proto with
    | some (.csChangeTeam teamId gameOption) =>
      let r := MP.applyChange u teamId gameOption (s.room p)
      (s.setRoom p r).log (r.teamSet p ((s.room p).getPlayerId u))
    | _ => s
  | disconnect _ => s

/-- The user that is disconnected, with the connection -/
def dropped (s : Server) : LobbyOp → List (Int × Int)
  | disconnect fd => s.fdToUserId[fd]?.toList.map fun u => (u, fd)
  | _ => []

/-- The users that lose their connections, as the writes tell that fail -/
def lost (op : LobbyOp) (s : Server) (events : List Event) : List (Int × Int) := op.dropped s ++ failedWrites events

/-- The players of the changed room that keep their connections -/
def stayers (op : LobbyOp) (p : RoomPtr) (s : Server) (events : List Event) : List Int :=
  ((op.changed p s).room p).members.filter fun u => decide (u ∉ (op.lost s events).map Prod.fst)

/-- In `t`, after what happened since `s`, those are in the room that stay, and they have been handed the room as it is if
    and only if everything is settled; or a write failed to a user without a seat. -/
def Knows (op : LobbyOp) (p : RoomPtr) (s t : Server) : Prop :=
  Spoiled p (op.changed p s) t ∨ ∃ events, t.trace = events ++ s.trace ∧
    (t.room p).members.Perm (op.stayers p s events) ∧
    ((∀ u ∈ (t.room p).members, lastHanded u events = some (Room.detailMessage p t)) ↔
      Settled p (fun _ => (t.room p).members.length) events)

end LobbyOp

section
variable {env : Env} {k : List Frame} {op : LobbyOp} {p : RoomPtr} {s a b t : Server} {u fd : Int} {mess : CMessage}
  {events older own : List Event}

theorem Refreshes.finished {out : List Int} (h : Refreshes p out a b events) : Finished p (b.room p).members.length events := by
  rcases h.told with ⟨-, untold⟩ | ⟨told, -⟩
  · exact untold.finished
  · exact told.finished

/-- What follows from departures is told to everybody again. -/
theorem Told.then (h : Told p a older) (h' : Refreshes p [] a b events) : Told p b (events ++ older) := by
  rcases h'.told with ⟨room, untold⟩ | ⟨told, fewer⟩
  · exact h.later h'.toRan room untold h'.clean
  · exact told.of_newer (h.finished.mono (Nat.le_of_lt fewer)) h.clean

/-- The players that stay -/
theorem Ran.stayers (h : Ran p ((op.dropped s).map Prod.fst) (op.changed p s) t events) (none : failedWrites own = []) :
    (t.room p).members.Perm (op.stayers p s (events ++ own)) := by
  refine h.members.trans (List.Perm.of_eq (List.filter_congr fun u _ => ?_))
  simp only [LobbyOp.lost, failedWrites_append, none, List.append_nil, List.map_append, List.mem_append, not_or]

theorem Told.knows (h : Told p t events) (ran : Ran p ((op.dropped s).map Prod.fst) (op.changed p s) t events)
    (trace : (op.changed p s).trace = own ++ s.trace) (none : failedWrites own = []) (untold : Untold own) (clean : Clean own) :
    op.Knows p s t :=
  .inr ⟨events ++ own, by rw [ran.trace, trace, List.append_assoc], ran.stayers none, (h.of_newer untold.finished clean).current⟩

theorem csPlayerExitRoom_knows (h : Config env k s) (belong : s.belongRoom[u]? = some p) (status : (s.room p).status = .waiting) :
    wp (MP.csPlayerExitRoom env u) (fun _ t => LobbyOp.Knows (.exit u) p s t) (fun _ _ => True) s := by
  have pos := Room.getPlayerId_ne_zero.mpr (h.tenancy.1.member belong)
  obtain ⟨slot, online, -⟩ := Room.getPlayerId_spec pos
  have waits : WaitingRoom p (RoomManager.departed u p s) (RoomManager.departed u p s) := by
    refine .start ?_ ?_ h.users.userId
    · rw [departed_room]
      exact (h.rooms.counted (h.rooms.belong belong)).vacate slot online
    · rw [departed_room, Room.vacate_status]
      exact status
  have out : ∀ fd, Seated p (RoomManager.departed u p s) u fd → u ∉ ((RoomManager.departed u p s).room p).members := by
    intro fd seated mem
    have seat := seated.seat
    rw [if_pos mem] at seat
    simp [RoomManager.departed, Server.log, Server.setRoom] at seat
  simp only [MP.csPlayerExitRoom, wp_bind, wp_get, RoomManager.getRoomByUserId, belong, wp_getRoom]
  rw [if_pos status]
  simp only [wp_bind]
  refine deletePlayerFromRoom_departed belong status pos ?_
  refine wp_post (sendMessageToEveryone_tells deleteClientByFd_refreshes waits) fun _ b ends => ?_
  simp only [if_true]
  have reply : Along (Fading p) (MP.sendToRoom env p (MP.exitMessage 1)) := sendMessageToEveryone_fading deleteClientByFd_fading p _
  rcases ends with spoiled | ⟨waits', events, ran, told, -⟩
  · have spoiled : Spoiled p (RoomManager.departed u p s) (PersonManager.changePersonStatus u .inHall b).2 :=
      spoiled.later (.same (by rw [PersonManager.changePersonStatus_eq]) (by rw [PersonManager.changePersonStatus_eq]))
    exact wp_mono (reply _) (fun _ _ later => .inl (spoiled.later later)) fun _ _ _ => trivial
  · have status' := Ran.changePersonStatus p u .inHall b
    have same : (PersonManager.changePersonStatus u .inHall b).2.room p = b.room p := by
      rw [PersonManager.changePersonStatus_eq]
    have waits'' := waits'.changePersonStatus (fun fd first mem => out fd first (ran.mem.mp mem).1) .inHall
    refine wp_post (sendMessageToEveryone_refreshes deleteClientByFd_refreshes rfl waits'') fun _ t sent => ?_
    rcases sent with spoiled | ⟨-, newer, sent⟩
    · exact .inl spoiled
    · refine ((told.later status' same (List.forall_mem_nil _) .nil).then sent).knows ((ran.trans status').trans sent.toRan) rfl rfl
        (List.forall_mem_singleton.mpr rfl) (.single rfl)

theorem csChangeTeam_knows (h : Config env k s) (belong : s.belongRoom[u]? = some p) (status : (s.room p).status = .waiting)
    {teamId gameOption : Option Int} (content : mess.proto = some (.csChangeTeam teamId gameOption)) :
    wp (MP.csChangeTeam env u mess) (fun _ t => LobbyOp.Knows (.change u mess) p s t) (fun _ _ => True) s := by
  have begun : LobbyOp.changed p s (.change u mess) = (s.setRoom p (MP.applyChange u teamId gameOption (s.room p))).log
      ((MP.applyChange u teamId gameOption (s.room p)).teamSet p ((s.room p).getPlayerId u)) := by
    simp only [LobbyOp.changed, content]
  have waits : WaitingRoom p (LobbyOp.changed p s (.change u mess)) (LobbyOp.changed p s (.change u mess)) := by
    obtain ⟨_, _, hr⟩ := MP.applyChange_eq u teamId gameOption (s.room p)
    rw [begun, hr]
    refine .start ?_ ?_ h.users.userId
    all_goals rw [Server.log, Server.setRoom_room_self]
    · exact (h.rooms.counted (h.rooms.belong belong)).congr rfl rfl rfl rfl id
    · exact status
  simp only [MP.csChangeTeam, content, wp_bind, wp_get, RoomManager.getRoomByUserId, belong, wp_getRoom]
  rw [if_neg (not_not_intro status)]
  simp only [wp_bind, wp_modify, wp_get]
  rw [← begun]
  refine wp_post (sendMessageToEveryone_tells deleteClientByFd_refreshes waits) fun _ t ends => ?_
  rcases ends with spoiled | ⟨-, events, ran, told, -⟩
  · exact .inl spoiled
  · refine told.knows ran (by rw [begun]; rfl) rfl (List.forall_mem_singleton.mpr rfl) (.single rfl)

/-- The reply to the user that asks -/
theorem send_refreshes {c : Server} (other : mess.isDetail = false) (h : WaitingRoom p c a) :
    wp (MP.send env u mess) (fun _ b => Refreshed p c [] a b) (fun _ _ => True) a := by
  simp only [MP.send, wp_discard]
  refine wp_post (sendMessageToClient_hands deleteClientByFd_refreshes u mess h) fun _ b sent => ?_
  rcases sent with spoiled | ⟨waits, events, handed⟩
  · exact .inl spoiled
  · have asked : Ran p [] a (a.log (.sendTo u mess)) [.sendTo u mess] := .quiet rfl rfl id rfl (fun _ _ => rfl) rfl
    have opens : (Event.sendTo u mess).opens = true := by simp [Event.opens, other]
    exact (handed.refreshes asked rfl (List.forall_mem_singleton.mpr other) (.single opens) (List.cons_ne_nil _ _)).refreshed waits

theorem csJoinRoom_knows (h : Config env k s) (free : u ∉ s.belongRoom) {roomId : Int} (room : s.rooms[roomId]? = some p)
    (status : (s.room p).status = .waiting) (cnt : (s.room p).playerCnt < maxPlayerCnt)
    (content : mess.proto = some (.csJoinRoom roomId)) :
    wp (MP.csJoinRoom env u mess) (fun _ t => LobbyOp.Knows (.join u mess) p s t) (fun _ _ => True) s := by
  have joins : wp (RoomManager.joinRoom u roomId) (fun ret t => ret = .addPlayerSucceed ∧ t = RoomManager.joined u p s)
      (fun _ _ => True) s := by
    simp only [RoomManager.joinRoom, wp_bind, wp_get, room]
    rw [if_neg free, wp_bind]
    refine Room.addPlayer_spec status cnt ?_
    simp only [if_true, wp_bind, wp_modify, wp_pure]
    exact ⟨trivial, rfl⟩
  have made := RoomManager.joined_eq u p s
  have waits : WaitingRoom p (RoomManager.joined u p s) (RoomManager.joined u p s) := by
    rw [made]
    refine .start ?_ ?_ (h.users.changed .inRoom).userId
    all_goals simp only [Function.update_self]
    · exact (h.rooms.counted (h.rooms.table.room room).1).addSlot cnt
    · exact status
  simp only [MP.csJoinRoom, content, wp_bind]
  refine wp_post joins fun ret t ends => ?_
  obtain ⟨rfl, rfl⟩ := ends
  rw [if_neg (by decide)]
  simp only [wp_bind]
  refine wp_post (send_refreshes rfl waits) fun _ b sent => ?_
  simp only [if_true, wp_bind, wp_get, RoomManager.getRoomByRoomId, RoomManager.detailMessage]
  rcases sent with spoiled | ⟨waits', older, sent⟩
  · cases b.rooms[roomId]? with
    | none => trivial
    | some q =>
      simp only [wp_bind, wp_pure]
      exact wp_mono (sendMessageToEveryone_fading deleteClientByFd_fading q _ b) (fun _ _ later => .inl (spoiled.later later))
        fun _ _ _ => trivial
  · have listed : b.rooms[roomId]? = some p := by
      rw [sent.table, made]
      exact room
    simp only [listed, wp_bind, wp_pure]
    refine wp_post (sendMessageToEveryone_tells deleteClientByFd_refreshes waits') fun _ t ends => ?_
    rcases ends with spoiled | ⟨-, events, ran, told, -⟩
    · exact .inl spoiled
    · have both := told.of_newer (sent.finished.mono ran.length_le) sent.clean
      exact both.knows (sent.toRan.trans ran) (by rw [LobbyOp.changed, made]; rfl) rfl
        (List.forall_mem_singleton.mpr rfl) (.single rfl)

theorem RoomManager.takeRoom_of {roomId : Int} {freeRoom : List RoomPtr} {roomCnt : Nat} {nextRoomId : Int}
    (takes : Takes s p roomId freeRoom roomCnt nextRoomId) : (takeRoom s).1 = p ∧ (takeRoom s).2.1 = roomId := by
  cases takes with
  | free free => simp [takeRoom, free]
  | new free => simp [takeRoom, free]

/-- Nothing is delivered to the players of a room. -/
theorem settled_of_undelivered {bound : CMessage → Nat}
    (none : ∀ i mess, .deliver p i mess ∈ events → mess.isDetail = false) : Settled p bound events := by
  intro newer i mess broken
  have other := none i mess broken.delivered
  rw [broken.1] at other
  cases other

/-- The room that `CreateRoom` takes, with its first player -/
structure Opens (p : RoomPtr) (u : Int) (s c : Server) : Prop where
  waits : WaitingRoom p c c
  members : (c.room p).members = [u]
  room : c.rooms[(RoomManager.takeRoom s).2.1]? = some p
  trace : ∃ own, c.trace = own ++ s.trace ∧ failedWrites own = [] ∧ Untold own

theorem created_opens (h : Config env k s) (gameMode teamMode : Int) :
    Opens (RoomManager.takeRoom s).1 u s (RoomManager.created u gameMode teamMode s) := by
  obtain ⟨p, roomId, freeRoom, roomCnt, nextRoomId, garbage, takes, made⟩ :=
    RoomManager.created_eq u gameMode teamMode s
  obtain ⟨rfl, number⟩ := RoomManager.takeRoom_of takes
  generalize (RoomManager.takeRoom s).1 = p at made ⊢
  have room : (RoomManager.created u gameMode teamMode s).room p =
      (Room.init gameMode teamMode roomId garbage).addSlot u := by
    rw [made]
    exact Function.update_self ..
  refine ⟨.start ?_ ?_ ?_, ?_, ?_, ?_⟩
  · rw [room]
    exact .init_addSlot gameMode teamMode roomId
  · rw [room]
    rfl
  · rw [made]
    exact (h.users.changed .inRoom).userId
  · rw [room, Room.members_addSlot, Room.members_init]
    rfl
  · rw [made, Map.getElem?_insert, if_pos number.symm]
  · rw [made]
    refine ⟨[_, _], rfl, rfl, fun e mem => ?_⟩
    simp only [List.mem_cons, List.not_mem_nil, or_false] at mem
    rcases mem with rfl | rfl <;> rfl

/-- A single player is handed the details of its room. -/
theorem Handed.alone {c : Server} {newer : List Event}
    (h : Handed p u (b.log (.sendTo u (Room.detailMessage p b))) t newer) (sent : Refreshes p [] c b older)
    (members : (c.room p).members = [u]) (quiet : Untold own) :
    (∀ v ∈ (t.room p).members,
        lastHanded v ((newer ++ [.sendTo u (Room.detailMessage p b)] ++ older) ++ own) = some (Room.detailMessage p t)) ↔
      Settled p (fun _ => (t.room p).members.length) ((newer ++ [.sendTo u (Room.detailMessage p b)] ++ older) ++ own) := by
  have own_mem : ∀ {v}, v ∈ (t.room p).members → v = u := by
    intro v mem
    have member : v ∈ (b.room p).members := (h.ran.mem.mp mem).1
    have member := (sent.mem.mp member).1
    rw [members] at member
    exact List.mem_singleton.mp member
  by_cases mem : u ∈ (t.room p).members
  · -- the player is still there, so nobody has left
    have one := sent.length_le
    rw [members] at one
    have stays : 0 < (t.room p).members.length := List.length_pos_of_mem mem
    have fewer : ¬(t.room p).members.length < (b.room p).members.length := Nat.not_lt.mpr (Nat.le_trans one stays)
    obtain ⟨-, untold⟩ := sent.told.resolve_right fun ⟨_, less⟩ => by
      rw [members] at less
      exact absurd (h.ran.mem.mp mem).1 (List.length_eq_zero_iff.mp (Nat.lt_one_iff.mp less) ▸ List.not_mem_nil)
    cases h with
    | lost _ _ less _ => exact absurd less fewer
    | kept ran room untold' =>
      refine iff_of_true (fun v mem' => ?_) (settled_of_undelivered fun i mess mem' => ?_)
      · obtain rfl := own_mem mem'
        have told : Event.told? v (.sendTo v (Room.detailMessage p b)) = some (Room.detailMessage p b) := by
          simp [Event.told?, Room.isDetail_detailMessage]
        have same : Room.detailMessage p t = Room.detailMessage p b := ran.detailMessage room
        rw [List.append_assoc, List.append_assoc, lastHanded_append, untold'.lastHanded, Option.none_or, same]
        unfold lastHanded
        rw [List.singleton_append, List.findSome?_cons, told]
      · rw [List.mem_append, List.mem_append, List.mem_append] at mem'
        rcases mem' with ((mem' | mem') | mem') | mem'
        · exact untold' _ mem'
        · cases List.mem_singleton.mp mem'
        · exact untold _ mem'
        · exact quiet _ mem'
  · have empty : (t.room p).members = [] := List.eq_nil_iff_forall_not_mem.mpr fun v mem' => mem (own_mem mem' ▸ mem')
    rw [empty]
    exact iff_of_true (List.forall_mem_nil _) fun _ _ _ _ => .inl (Nat.zero_le _)

theorem csCreateRoom_knows (h : Config env k s) (free : u ∉ s.belongRoom) (takes : (RoomManager.takeRoom s).1 = p)
    {gameMode teamMode : Int} (content : mess.proto = some (.csCreateRoom gameMode teamMode)) :
    wp (MP.csCreateRoom env u mess) (fun _ t => LobbyOp.Knows (.create u mess) p s t) (fun _ _ => True) s := by
  have opens := created_opens (u := u) h gameMode teamMode
  have begun : LobbyOp.changed p s (.create u mess) = RoomManager.created u gameMode teamMode s := by
    simp only [LobbyOp.changed, content]
  rw [takes, ← begun] at opens
  obtain ⟨waits, members, room, own, trace, none, quiet⟩ := opens
  simp only [MP.csCreateRoom, content, wp_bind]
  refine RoomManager.createRoom_spec gameMode teamMode free ?_
  simp only [wp_bind]
  rw [← begun]
  refine wp_post (send_refreshes rfl waits) fun _ b sent => ?_
  simp only [wp_get, wp_pure]
  have reply : Along (Fading p) (MP.send env u (RoomManager.detailMessage (RoomManager.takeRoom s).2.1 b)) :=
    .discard (sendMessageToClient_fading deleteClientByFd_fading u _)
  rcases sent with spoiled | ⟨waits', older, sent⟩
  · exact wp_mono (reply b) (fun _ _ later => .inl (spoiled.later later)) fun _ _ _ => trivial
  · have listed : b.rooms[(RoomManager.takeRoom s).2.1]? = some p := by
      rw [sent.table]
      exact room
    have detail : RoomManager.detailMessage (RoomManager.takeRoom s).2.1 b = Room.detailMessage p b := by
      simp only [RoomManager.detailMessage, listed]
    rw [detail]
    simp only [MP.send, wp_discard]
    refine wp_post (sendMessageToClient_hands deleteClientByFd_refreshes u _ waits') fun _ t ends => ?_
    rcases ends with spoiled | ⟨-, newer, handed⟩
    · exact .inl spoiled
    · have asked : Ran p [] b (b.log (.sendTo u (Room.detailMessage p b))) [.sendTo u (Room.detailMessage p b)] :=
        .quiet rfl rfl id rfl (fun _ _ => rfl) rfl
      have ran := sent.toRan.trans (asked.trans handed.ran)
      exact .inr ⟨_, by rw [ran.trace, trace, ← List.append_assoc], ran.stayers none, handed.alone sent members quiet⟩

theorem deleteClientByFd_knows (h : Config env k s) (conn : fd ∈ s.connects) (user : s.fdToUserId[fd]? = some u)
    (belong : s.belongRoom[u]? = some p) (status : (s.room p).status = .waiting) (seated : Seated p s u fd)
    (bound : s.userIdToFd[u]? = some fd) :
    wp (deleteClientByFd env fd) (fun _ t => LobbyOp.Knows (.disconnect fd) p s t) (fun _ _ => True) s := by
  have waits : WaitingRoom p s s := .start (h.rooms.counted (h.rooms.belong belong)) status h.users.userId
  have member := h.tenancy.1.member belong
  refine wp_post (deleteClientByFd_refreshes.refreshes waits seated bound conn) fun _ t gone => ?_
  rcases gone with spoiled | ⟨-, events, gone⟩
  · exact .inl spoiled
  · have out : u ∉ (t.room p).members := fun mem => (gone.mem.mp mem).2.1 (List.mem_singleton.mpr rfl)
    have ran : Ran p ((LobbyOp.dropped s (.disconnect fd)).map Prod.fst) s t events := by
      have dropped : (LobbyOp.dropped s (.disconnect fd)).map Prod.fst = [u] := by simp [LobbyOp.dropped, user]
      rw [dropped]
      exact gone.toRan
    exact (gone.told_of_left member out).knows ran (List.nil_append _).symm rfl (List.forall_mem_nil _) .nil

/-- Right after an operation has changed the room, the trace has only become longer. -/
theorem LobbyOp.On.changed_trace (on : op.On p s) : s.trace <:+ (op.changed p s).trace := by
  cases on with
  | create free takes content =>
    simp only [LobbyOp.changed, content]
    obtain ⟨_, _, _, _, _, _, _, made⟩ := RoomManager.created_eq _ _ _ s
    rw [made]
    exact (List.suffix_cons _ _).trans (List.suffix_cons _ _)
  | join free room status cnt content =>
    simp only [LobbyOp.changed, RoomManager.joined_eq]
    exact List.suffix_cons _ _
  | exit _ _ => exact List.suffix_cons _ _
  | change _ _ content =>
    simp only [LobbyOp.changed, content]
    exact List.suffix_cons _ _
  | disconnect _ _ _ _ => exact List.suffix_rfl

theorem LobbyOp.On.knows (h : Config env k s) (on : op.On p s)
    (dropped : ∀ u fd, (u, fd) ∈ op.dropped s → Seated p s u fd ∧ s.userIdToFd[u]? = some fd) :
    wp (op.run env) (fun _ t => op.Knows p s t) (fun _ _ => True) s := by
  cases on with
  | create free takes content =>
    simp only [LobbyOp.run, wp_discard]
    exact csCreateRoom_knows h free takes content
  | join free room status cnt content =>
    simp only [LobbyOp.run, wp_discard]
    exact csJoinRoom_knows h free room status cnt content
  | exit belong status =>
    simp only [LobbyOp.run, wp_discard]
    exact csPlayerExitRoom_knows h belong status
  | change belong status content =>
    simp only [LobbyOp.run, wp_discard]
    exact csChangeTeam_knows h belong status content
  | @disconnect fd u _ conn user belong status =>
    obtain ⟨seated, bound⟩ := dropped u fd (by simp [LobbyOp.dropped, user])
    exact deleteClientByFd_knows h (Map.mem_of_getElem? conn) user belong status seated bound

theorem LobbyOp.Knows.grown (h : op.Knows p s t) (on : op.On p s) : s.trace <:+ t.trace := by
  rcases h with ⟨newer, u, fd, older, trace, since, -⟩ | ⟨events, trace, -⟩
  · rw [trace]
    exact (on.changed_trace.trans since).trans ((List.suffix_cons _ _).trans (List.suffix_append ..))
  · rw [trace]
    exact List.suffix_append ..

end

/-! ### Two runs -/

theorem seated_iff {p : RoomPtr} {s : Server} {u fd : Int} : Seated p s u fd ↔ s.fdToUserId[fd]? = some u ∧
    (s.room p).members.count u ≤ 1 ∧ s.belongRoom[u]? = (if u ∈ (s.room p).members then some p else none) ∧
    (u ∈ (s.room p).members → (s.persons[u]?.any fun person => person.status == .inRoom) = true) := by
  constructor
  · intro h
    refine ⟨h.user, h.once, h.seat, fun mem => ?_⟩
    obtain ⟨person, found, status⟩ := h.person mem
    simp [found, status]
  · intro ⟨user, once, seat, person⟩
    refine ⟨user, once, seat, fun mem => ?_⟩
    obtain ⟨person, found, status⟩ := (Option.any_eq_true _ _).mp (person mem)
    exact ⟨person, found, beq_iff_eq.mp status⟩

instance {p : RoomPtr} {s : Server} {u fd : Int} : Decidable (Seated p s u fd) := decidable_of_iff _ seated_iff.symm

/-- What happened from `s` to `t` -/
def Script.since (s t : Server) : List Event := t.trace.take (t.trace.length - s.trace.length)

end IslandSurvival
