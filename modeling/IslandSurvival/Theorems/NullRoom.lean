import IslandSurvival.Theorems.Codec
import IslandSurvival.Theorems.Faults

/-! The null pointers of the message processors. A lookup that finds no room is checked in every processor but
    one: `MP_CSPlayerExitRoom` uses what it gets. -/

namespace IslandSurvival

open Prog

/-! ### The processors -/

/-- `c` does not use a null pointer, whatever the state. -/
abbrev NoNull {α : Type} (c : M α) : Prop := Raises (· ≠ Fault.nullPointer) c

theorem Calm.noNull {α : Type} {c : M α} (h : Calm c) : NoNull c := by
  refine Raises.mono h fun e he => ?_
  rintro rfl
  simp [Fault.Numeric] at he

variable {env : Env}

namespace Login

theorem realQuery_noNull (sql : Bytes) : NoNull (realQuery env sql) := .bind .get fun _ => .bind .set fun _ => .pure

theorem queryUserId_noNull (name : Bytes) (done : LoginResult) : NoNull (queryUserId env name done) := by
  refine .bind (realQuery_noNull _) fun answer => ?_
  split
  · exact .bind .get fun _ => .pure
  · refine .bind ?_ fun _ => .pure
    unfold readUserId
    split
    · exact .bind .get fun _ => .pure
    · exact .throw (by simp)

theorem loginRequest_noNull (name passwd : Bytes) : NoNull (loginRequest env name passwd) := by
  refine .bind (realQuery_noNull _) fun answer => ?_
  split
  · exact .bind .get fun _ => .pure
  · exact .bind .get fun _ => .pure
  · split
    · exact .ite (.bind .get fun _ => .pure) (queryUserId_noNull _ _)
    · exact .throw (by simp)

theorem newUserRegist_noNull (name passwd : Bytes) : NoNull (newUserRegist env name passwd) := by
  refine .bind (realQuery_noNull _) fun answer => ?_
  split
  · exact .bind .get fun _ => .pure
  · exact .bind .get fun _ => .pure
  · refine .bind (realQuery_noNull _) fun answer => ?_
    split
    · exact .bind .get fun _ => .pure
    · exact queryUserId_noNull _ _

end Login

namespace MP

variable {userId : Int} {mess : CMessage}

theorem send_noNull (userId : Int) (mess : CMessage) : NoNull (send env userId mess) :=
  Calm.noNull (.discard (sendMessageToClient_calm deleteClientByFd_calm _ _))

theorem sendByConnfd_noNull (fd : Int) (mess : CMessage) : NoNull (sendByConnfd env fd mess) :=
  Calm.noNull (.discard (sendMessageByConnfd_calm _ _))

theorem sendToRoom_noNull (p : RoomPtr) (mess : CMessage) : NoNull (sendToRoom env p mess) :=
  Calm.noNull (Room.sendMessageToEveryone_calm deleteClientByFd_calm _ _)

theorem enter_noNull (fd : Int) (id : Bytes) (reply : Int → CMessage) (outcome : LoginResult × Int) :
    NoNull (enter env fd id reply outcome) := by
  unfold enter
  split
  · refine .bind .get fun _ => ?_
    split
    · exact .bind .set fun _ => .bind .modify fun _ => send_noNull _ _
    · exact sendByConnfd_noNull _ _
  · refine .bind .get fun _ => ?_
    split
    · exact .bind .set fun _ => .bind .modify fun _ => send_noNull _ _
    · exact sendByConnfd_noNull _ _
  · exact sendByConnfd_noNull _ _
  · exact sendByConnfd_noNull _ _
  · exact sendByConnfd_noNull _ _

theorem csLogin_noNull : NoNull (csLogin env userId mess) := by
  unfold csLogin
  split
  · exact .bind (Login.loginRequest_noNull _ _) fun _ => .bind (enter_noNull _ _ _ _) fun _ => .pure
  · exact .throw (by simp)

theorem csRegist_noNull : NoNull (csRegist env userId mess) := by
  unfold csRegist
  split
  · exact .bind (Login.newUserRegist_noNull _ _) fun _ => .bind (enter_noNull _ _ _ _) fun _ => .pure
  · exact .throw (by simp)

theorem csHeartbeat_noNull : NoNull (csHeartbeat env userId) := by
  refine .bind (.bind .get fun _ => ?_) fun _ => .pure
  split
  · exact .bind .set fun _ => .bind calm_nowSecond.noNull fun _ => .modify
  · exact .pure

theorem csPullAllRoomInfo_noNull : NoNull (csPullAllRoomInfo env userId) :=
  .bind .get fun _ => .bind (send_noNull _ _) fun _ => .pure

theorem addPlayer_noNull (p : RoomPtr) (u : Int) : NoNull (Room.addPlayer p u) :=
  .bind calm_getRoom.noNull fun _ => .ite (.ite .pure (.bind .modify fun _ => .pure)) .pure

theorem csCreateRoom_noNull : NoNull (csCreateRoom env userId mess) := by
  unfold csCreateRoom
  split
  · refine .bind ?_ fun result => ?_
    · refine .bind .get fun s => .ite .pure ?_
      exact .bind .set fun _ => .bind (.discard (addPlayer_noNull _ _)) fun _ => .pure
    · split
      · exact .bind (send_noNull _ _) fun _ => .bind .get fun _ => .bind (send_noNull _ _) fun _ => .pure
      · exact .bind (send_noNull _ _) fun _ => .pure
  · exact .throw (by simp)

theorem csChangeTeam_noNull : NoNull (csChangeTeam env userId mess) := by
  unfold csChangeTeam
  split
  · refine .bind .get fun s => ?_
    split
    · exact .pure
    · refine .bind calm_getRoom.noNull fun _ => .ite .pure ?_
      exact .bind .modify fun _ => .bind .get fun _ => .bind (sendToRoom_noNull _ _) fun _ => .pure
  · exact .throw (by simp)

theorem csReadyToStart_noNull : NoNull (csReadyToStart env userId) := by
  refine .bind .get fun s => ?_
  split
  · exact .pure
  · refine .bind calm_getRoom.noNull fun _ => .ite .pure ?_
    exact .bind (Room.sendGameLoading_calm deleteClientByFd_calm _).noNull fun _ => .pure

theorem csLoadSucceed_noNull : NoNull (csLoadSucceed env userId) := by
  refine .bind .get fun s => ?_
  split
  · exact .pure
  · refine .bind calm_getRoom.noNull fun _ => .ite (.bind ?_ fun _ => .ite ?_ .pure) .pure
    · refine .bind calm_getRoom.noNull fun _ => .ite ?_ (.ite .pure (.ite .pure (.bind .modify fun _ => .pure)))
      exact .bind (.discard (RoomManager.deletePlayerFromRoom_calm deleteClientByFd_calm _).noNull) fun _ => .pure
    · exact .bind (Room.sendGameStart_calm deleteClientByFd_calm _).noNull fun _ => .pure

theorem relay_noNull {room : Server → Option RoomPtr} {failed : Int} {reply : RoomPtr → Nat → M CMessage}
    (h : ∀ p playerId, NoNull (reply p playerId)) : NoNull (relay env room failed userId reply) := by
  refine .bind .get fun s => ?_
  split
  · exact .pure
  · refine .bind calm_getRoom.noNull fun _ => .ite .pure ?_
    exact .bind (h _ _) fun _ => .bind (Syn.addTo_calm _ _).noNull fun _ => .pure

theorem csChoseRole_noNull : NoNull (csChoseRole env userId mess) := by
  unfold csChoseRole
  split
  · exact relay_noNull fun p _ => .bind (Syn.getNowFrame_calm p).noNull fun _ => .pure
  · exact .throw (by simp)

theorem csMove_noNull : NoNull (csMove env userId mess) := by
  unfold csMove
  split
  · exact relay_noNull fun _ _ => .pure
  · exact .throw (by simp)

theorem csKill_noNull : NoNull (csKill env userId mess) := by
  unfold csKill
  split
  · exact relay_noNull fun _ _ => .pure
  · exact .throw (by simp)

theorem csSkill_noNull : NoNull (csSkill env userId mess) := by
  unfold csSkill
  split
  · exact relay_noNull fun _ _ => .pure
  · exact .throw (by simp)

theorem csGamePause_noNull : NoNull (csGamePause env userId mess) := relay_noNull fun _ _ => .pure

theorem csGameEnd_noNull : NoNull (csGameEnd env userId) := by
  refine .bind .get fun s => ?_
  split
  · exact .pure
  · refine .bind (Syn.getNowFrame_calm _).noNull fun _ => .bind (send_noNull _ _) fun _ => .bind (.discard ?_) fun _ => .pure
    refine .bind .get fun s => ?_
    split
    · exact .pure
    · refine .bind .modify fun _ => .bind calm_getRoom.noNull fun _ => .bind calm_log.noNull fun _ => ?_
      exact .ite (.ite (.bind .modify fun _ => .pure) .pure) .pure

end MP

/-! ### The rooms behind the lookups -/

section
variable {k l : List Frame} {s t : Server} {fd roomId : Int} {user : Option Int} {mess : CMessage}

/-- While a message is processed, no room is recycled. -/
theorem listed_step (move : Step env k s l t) (busy : .handling fd user mess ∈ k) (room : (s.rooms[roomId]?).isSome) :
    (t.rooms[roomId]?).isSome := by
  cases move with
  | drop _ _ =>
    obtain ⟨_, _, _, _, _, hs⟩ := dropConnection_eq _ _ s
    rw [hs]
    exact room
  | left =>
    rw [PersonManager.changePersonStatus_eq]
    exact room
  | create gameMode teamMode _ _ _ =>
    obtain ⟨p, id, _, _, _, _, -, hs⟩ := RoomManager.created_eq _ gameMode teamMode s
    rw [hs]
    simp only [Map.getElem?_insert]
    split
    · rfl
    · exact room
  | recycle _ => simp at busy
  | gameEnd _ _ _ =>
    rw [PersonManager.changePersonStatus_eq]
    exact room
  | join _ _ _ _ _ _ =>
    rw [RoomManager.joined_eq]
    exact room
  | enter _ _ _ person =>
    obtain ⟨_, _, _, _, hs⟩ := entered person
    rw [hs]
    exact room
  | heartbeat nowsec old =>
    obtain ⟨_, _, rfl⟩ := Heartbeat.erased old
    exact room
  | _ => first | exact room | simp at busy

theorem stable_listed (env : Env) (roomId fd : Int) (user : Option Int) (mess : CMessage) :
    Stable env [.handling fd user mess] fun _ t => (t.rooms[roomId]?).isSome where
  step move h := listed_step move (List.mem_append_right _ List.mem_cons_self) h

end

namespace MP

variable {userId : Int} {mess : CMessage}

/-- A room that was joined is in the table. -/
theorem joinRoom_listed (roomId : Int) (s : Server) : wp (RoomManager.joinRoom userId roomId)
    (fun result t => result = .addPlayerSucceed → (t.rooms[roomId]?).isSome) (fun e _ => e ≠ .nullPointer) s := by
  simp only [RoomManager.joinRoom, wp_bind, wp_get]
  split
  · simp
  · rename_i p room
    have listed : (s.rooms[roomId]?).isSome := by simp [room]
    split
    · simp
    · simp only [wp_bind, Room.addPlayer, wp_getRoom]
      split
      · split
        · simp
        · simp only [wp_bind, wp_modify, wp_pure, PersonManager.changePersonStatus_eq, if_true]
          exact fun _ => listed
      · simp

theorem csJoinRoom_noNull : NoNull (csJoinRoom env userId mess) := by
  unfold csJoinRoom
  split
  · rename_i roomId _
    intro s
    simp only [wp_bind]
    refine wp_post (joinRoom_listed roomId s) fun result t listed => ?_
    split
    · trivial
    · simp only [wp_bind]
      have kept : result = .addPlayerSucceed → wp (send env userId (.build Msg.scJoinRoom (-1) (.scJoinRoom result.code)))
          (fun _ t => (t.rooms[roomId]?).isSome) (Fails fun _ t => (t.rooms[roomId]?).isSome) t := fun success =>
        send_spec (k := []) (stable_listed env roomId 0 none mess) rfl userId .join (listed success)
      split
      · rename_i success
        refine wp_mono (wp_and (kept success) (send_noNull _ _ t)) (fun _ t' sent => ?_) fun _ _ sent => sent.2
        simp only [wp_bind, wp_get, RoomManager.getRoomByRoomId]
        split
        · rename_i none
          rw [none] at sent
          cases sent.1
        · exact Raises.bind (sendToRoom_noNull _ _) (fun _ => .pure) t'
      · exact wp_post (send_noNull _ _ t) fun _ _ _ => trivial
  · exact .throw (by simp)

/-- `MP_CSPlayerExitRoom` of a user that is in a room -/
theorem csPlayerExitRoom_bound {s : Server} {p : RoomPtr} (belong : s.belongRoom[userId]? = some p) :
    wp (csPlayerExitRoom env userId) (fun _ _ => True) (fun e _ => e ≠ .nullPointer) s := by
  rw [csPlayerExitRoom, wp_bind]
  simp only [wp_get, RoomManager.getRoomByUserId, belong]
  refine Raises.bind calm_getRoom.noNull (fun _ => .ite ?_ ?_) s
  · exact .bind (RoomManager.deletePlayerFromRoom_calm deleteClientByFd_calm _).noNull fun _ =>
      .bind (sendToRoom_noNull _ _) fun _ => .pure
  · exact .bind (sendToRoom_noNull _ _) fun _ => .pure

/-- The same without a room -/
theorem csPlayerExitRoom_unbound {s : Server} (none : s.belongRoom[userId]? = none) :
    wp (csPlayerExitRoom env userId) (fun _ _ => False) (fun e _ => e = .nullPointer) s := by
  simp only [csPlayerExitRoom, wp_bind, wp_get, RoomManager.getRoomByUserId, none]
  exact rfl

end MP

/-! ### Every message -/

section
variable {s : Server} {fd u : Int} {data : Nat → UInt8} {size : Nat} {mess : CMessage}

theorem processRequest_noNull {type : PBType} {arg : Int} (registered : Register.boot.processor mess.head.messageId = some type)
    (member : mess.head.messageId = Msg.csPlayerExitRoom → ∃ p, s.belongRoom[arg]? = some p) :
    wp (processRequest env arg mess) (fun _ _ => True) (fun e _ => e ≠ .nullPointer) s := by
  unfold processRequest
  rw [registered]
  cases type with
  | csLogin => exact MP.csLogin_noNull s
  | csRegist => exact MP.csRegist_noNull s
  | csHeartbeat => exact MP.csHeartbeat_noNull s
  | csPullAllRoomInfo => exact MP.csPullAllRoomInfo_noNull s
  | csCreateRoom => exact MP.csCreateRoom_noNull s
  | csJoinRoom => exact MP.csJoinRoom_noNull s
  | csPlayerExitRoom =>
    have use : mess.head.messageId = Msg.csPlayerExitRoom := by
      have := Register.boot_processor registered
      simpa [Register.uses] using this
    obtain ⟨p, belong⟩ := member use
    exact MP.csPlayerExitRoom_bound belong
  | csChangeTeam => exact MP.csChangeTeam_noNull s
  | csReadyToStart => exact MP.csReadyToStart_noNull s
  | csLoadSucceed => exact MP.csLoadSucceed_noNull s
  | csChoseRole => exact MP.csChoseRole_noNull s
  | csMove => exact MP.csMove_noNull s
  | csKill => exact MP.csKill_noNull s
  | csSkill => exact MP.csSkill_noNull s
  | csGamePause => exact MP.csGamePause_noNull s
  | csGameEnd => exact MP.csGameEnd_noNull s

/-- A message of a connection that is logged in is processed. -/
theorem dispatch_user (user : s.fdToUserId[fd]? = some u) : dispatch env fd mess s =
    (do log (.request fd (some u) mess); discard (processRequest env (requestArg fd (some u) mess) mess) : M Unit) s := by
  have answered : Answered (some u) mess := .inr (.inl rfl)
  rw [dispatch_eq]
  show (if Answered s.fdToUserId[fd]? mess then _ else _ : M Unit) s = _
  rw [user, if_pos answered]

/-- `CSPlayerExitRoom` of a user that is in no room -/
theorem dispatch_null_room (user : s.fdToUserId[fd]? = some u) (parsed : parseStrToMessage env.pb data size = some mess)
    (exit : mess.head.messageId = Msg.csPlayerExitRoom) (none : s.belongRoom[u]? = none) :
    ∃ t, dispatch env fd mess s = .error .nullPointer t := by
  obtain ⟨type, registered, -⟩ := processor_of_parsed parsed
  obtain rfl : type = .csPlayerExitRoom := by
    have use := Register.boot_processor registered
    rw [exit] at use
    simpa [Register.uses, Msg.csLogin, Msg.csRegist, Msg.csHeartbeat, Msg.csPullAllRoomInfo, Msg.csCreateRoom,
      Msg.csJoinRoom, Msg.csPlayerExitRoom, Msg.csChangeTeam, Msg.csReadyToStart, Msg.csLoadSucceed, Msg.csChoseRole,
      Msg.csMove, Msg.csKill, Msg.csSkill, Msg.csGamePause, Msg.csGameEnd] using use
  have arg : requestArg fd (some u) mess = u := by
    simp [requestArg, loginArg, exit, Msg.csPlayerExitRoom, Msg.csHeartbeat]
  rw [dispatch_user user]
  refine wp_stops ?_
  simp only [wp_bind, wp_log, wp_discard, arg]
  unfold processRequest
  rw [registered]
  exact MP.csPlayerExitRoom_unbound (s := s.log (.request fd (some u) mess)) none

/-- A message is processed without use of a null pointer if and only if it is not a `CSPlayerExitRoom` of
    a user that is in no room. -/
theorem no_null_room_iff (user : s.fdToUserId[fd]? = some u) (parsed : parseStrToMessage env.pb data size = some mess) :
    (∀ t, dispatch env fd mess s ≠ .error .nullPointer t) ↔
      (mess.head.messageId = Msg.csPlayerExitRoom → ∃ p, s.belongRoom[u]? = some p) := by
  constructor
  · intro safe exit
    by_contra bound
    have none : s.belongRoom[u]? = none := Option.eq_none_iff_forall_ne_some.mpr fun p belong => bound ⟨p, belong⟩
    obtain ⟨t, stopped⟩ := dispatch_null_room user parsed exit none
    exact safe t stopped
  · intro member t fails
    obtain ⟨type, registered, -⟩ := processor_of_parsed parsed
    rw [dispatch_user user] at fails
    have safe : wp (do log (.request fd (some u) mess); discard (processRequest env (requestArg fd (some u) mess) mess) : M Unit)
        (fun _ _ => True) (fun e _ => e ≠ .nullPointer) s := by
      simp only [wp_bind, wp_log, wp_discard]
      refine processRequest_noNull registered fun exit => ?_
      simp only [requestArg, exit, loginArg]
      exact member exit
    exact wp_error safe fails rfl

end

/-- Player 1 has logged in and is in no room. -/
theorem Script.loggedIn : ∃ s, Reachable (oneClient (request 0)) s ∧ s.fdToUserId[(4 : Int)]? = some 1 ∧
    s.belongRoom[(1 : Int)]? = none := by
  obtain ⟨s, reachable, test⟩ := exists_of_ends 2
    (fun s => s.fdToUserId[(4 : Int)]? == some 1 && s.belongRoom[(1 : Int)]? == none)
    (reachable (oneClient (request 0))) (by decide +kernel)
  simp only [Bool.and_eq_true, beq_iff_eq] at test
  exact ⟨s, reachable, test⟩

/-- A `CSLoadSucceed` of player 1 is processed. -/
theorem no_null_room_load : ∃ s, Reachable (Script.oneClient (Script.request 0)) s ∧
    ∀ t, dispatch (Script.oneClient (Script.request 0)) 4 (Script.parsed 0x12 .csLoadSucceed) s ≠ .error .nullPointer t := by
  obtain ⟨s, reachable, user, -⟩ := Script.loggedIn
  have parsed : parseStrToMessage Script.pb (Script.received 0x12) 16 = some (Script.parsed 0x12 .csLoadSucceed) := by
    decide +kernel
  exact ⟨s, reachable, (no_null_room_iff user parsed).mpr fun exit => absurd exit (by decide)⟩

/-- A `CSPlayerExitRoom` of player 1 uses the null pointer that the lookup of its room returns. -/
theorem exit_without_room : ∃ s t, Reachable (Script.oneClient (Script.request 0)) s ∧
    s.fdToUserId[(4 : Int)]? = some 1 ∧
    parseStrToMessage Script.pb (Script.received 0x0d) 16 = some (Script.parsed 0x0d .csPlayerExitRoom) ∧
    dispatch (Script.oneClient (Script.request 0)) 4 (Script.parsed 0x0d .csPlayerExitRoom) s = .error .nullPointer t := by
  obtain ⟨s, reachable, user, none⟩ := Script.loggedIn
  have parsed : parseStrToMessage Script.pb (Script.received 0x0d) 16 = some (Script.parsed 0x0d .csPlayerExitRoom) := by
    decide +kernel
  obtain ⟨t, stopped⟩ : ∃ t, dispatch (Script.oneClient (Script.request 0)) 4 (Script.parsed 0x0d .csPlayerExitRoom) s =
      .error .nullPointer t := dispatch_null_room user parsed rfl none
  exact ⟨s, t, reachable, user, parsed, stopped⟩

end IslandSurvival
