import IslandSurvival.Theorems.Clocked
import IslandSurvival.Theorems.Statements

/-! What requests and new connections enter into the tables: heartbeats with the second of the clock, rooms that wait or
    load, and users that the database vouched for. -/

namespace IslandSurvival

open Prog

/-- What the database was asked for a request, and what it answered, the last statement first: an account with this
    password, or a free name that it entered; and then `text` in place of the user id. -/
inductive Login.Accepts (mess : CMessage) (text : Bytes) : List Event → Prop
  | login {id passwd stored : Bytes} {first : Option Bytes} {columns more : List (Option Bytes)}
      (content : mess.proto = some (.csLogin id passwd)) (same : cStr passwd = cStr stored) :
      Accepts mess text [.query (selectUserId id) queryLength (.row (some (some text :: more))),
        .query (selectAll id) queryLength (.row (some (first :: some stored :: columns)))]
  | regist {id passwd : Bytes} {made : Option (List (Option Bytes))} {more : List (Option Bytes)}
      (content : mess.proto = some (.csRegist id passwd)) :
      Accepts mess text [.query (selectUserId id) queryLength (.row (some (some text :: more))),
        .query (insertLogin id passwd) queryLength (.row made), .query (selectAll id) queryLength (.row none)]

/-- What `ReceiveMessage` does: besides what any function of the circle does, the message loop goes on, a room begins to
    wait or to load, a heartbeat is entered, or a user is bound to a connection. -/
inductive Serves (env : Env) : Server → Server → Prop
  | cascade {s t} (h : Cascade env s t) : Serves env s t
  | note {s t e} (still : Server.Still s { t with trace := s.trace }) (trace : t.trace = e :: s.trace)
      (other : ∀ fd u, e ≠ .playerLogin fd u) : Serves env s t
  | reset {s t p} (sheds : Sheds s { t with rooms := s.rooms })
      (rooms : ∀ (roomId : Int) q, t.rooms[roomId]? = some q → s.rooms[roomId]? = some q ∨ q = p)
      (other : ∀ q, q ≠ p → (s.room q).Still (t.room q)) (status : (t.room p).status ≠ .ingame)
      (loading : (t.room p).status = .loading → s.sys < t.sys ∧ (t.room p).loadingTimeSecond = second env s.sys) :
      Serves env s t
  | beat {s t} (still : Server.Still s { t with secFd := s.secFd })
      (secFd : ∀ e ∈ t.secFd, e ∈ s.secFd ∨ s.sys < t.sys ∧ e.1 = second env s.sys) : Serves env s t
  | enter {s fd user mess text u queries older} (request : s.trace = queries ++ .request fd user mess :: older)
      (accepts : Login.Accepts mess text queries) (number : ∀ v, Login.sscanfD text = some v → v = u) :
      Serves env s (playerLogin (loginArg fd user) u s).2
  | trans {s t u} (h : Serves env s t) (h' : Serves env t u) : Serves env s u

instance {env : Env} : IsPreorder Server (Serves env) where
  refl s := .cascade (.still (.refl s))
  trans _ _ _ := .trans

section
variable {env : Env} {s t : Server} {p : RoomPtr} {fd userId : Int} {mess : CMessage}

theorem serves_of_cascade {α : Type} {c : M α} (h : Along (Cascade env) c) : Along (Serves env) c := fun s =>
  wp_mono (h s) (fun _ _ => .cascade) fun _ _ => .cascade

theorem serves_still {f : Server → Server} (still : ∀ s, Server.Still s (f s)) : Along (Serves env) (modify f : M PUnit) :=
  .modify fun s => .cascade (.still (still s))

theorem getRoom_serves : Along (Serves env) (getRoom p) := serves_of_cascade getRoom_cascade

theorem log_serves {e : Event} (other : e.fromClient = false) : Along (Serves env) (log e) :=
  serves_of_cascade (log_cascade other)

/-! ### Sending -/

theorem send_serves (userId : Int) (mess : CMessage) : Along (Serves env) (MP.send env userId mess) :=
  serves_of_cascade (.discard (sendMessageToClient_cascade deleteClientByFd_cascade userId mess))

theorem sendByConnfd_serves (fd : Int) (mess : CMessage) : Along (Serves env) (MP.sendByConnfd env fd mess) :=
  serves_of_cascade (.discard (sendMessageByConnfd_cascade fd mess))

theorem sendToRoom_serves (p : RoomPtr) (mess : CMessage) : Along (Serves env) (MP.sendToRoom env p mess) :=
  serves_of_cascade (sendMessageToEveryone_cascade deleteClientByFd_cascade p mess)

theorem deletePlayerFromRoom_serves (u : Int) :
    Along (Serves env) (RoomManager.deletePlayerFromRoom env (deleteClientByFd env) u) :=
  serves_of_cascade (deletePlayerFromRoom_cascade deleteClientByFd_cascade u)

theorem sendGameStart_serves (p : RoomPtr) : Along (Serves env) (Room.sendGameStart env (deleteClientByFd env) p) :=
  serves_of_cascade (sendGameStart_cascade deleteClientByFd_cascade p)

/-! ### Accounts -/

namespace Login

theorem still_asked (sql : Bytes) (s : Server) : Server.Still s (asked env sql s) :=
  (Server.Still.tickSys 1 s).trans (.log rfl _)

/-- The statements of a request are the last events after it, and where the text that came for the user id holds a number,
    it is that of `u`. -/
def Vouches (fd : Int) (user : Option Int) (mess : CMessage) (u : Int) (s : Server) : Prop :=
  ∃ text queries older, s.trace = queries ++ .request fd user mess :: older ∧ Accepts mess text queries ∧
    ∀ v, sscanfD text = some v → v = u

theorem queryUserId_accepts (name : Bytes) (done : LoginResult) (s : Server) :
    wp (queryUserId env name done)
      (fun out t => Server.Still s t ∧ (out.1 = .dbError ∨ out.1 = done ∧ ∃ text more,
        t.trace = .query (selectUserId name) queryLength (.row (some (some text :: more))) :: s.trace ∧
          ∀ v, sscanfD text = some v → v = out.2)) (fun _ t => Server.Still s t) s := by
  simp only [queryUserId, wp_bind, wp_realQuery]
  have still : Server.Still s (asked env (selectUserId name) s) := still_asked _ s
  split
  · exact ⟨still, .inl rfl⟩
  · rename_i columns answer
    simp only [readUserId, wp_bind]
    split
    · rename_i text more
      refine ⟨still, .inr ⟨rfl, text, more, by rw [← answer]; rfl, fun v number => ?_⟩⟩
      simp only [number, Option.getD_some]
    · exact still

theorem loginRequest_vouches {user : Option Int} {older : List Event} {name passwd : Bytes}
    (request : s.trace = .request fd user mess :: older) (content : mess.proto = some (.csLogin name passwd)) :
    wp (loginRequest env name passwd)
      (fun out t => Server.Still s t ∧ (out.1 = .loginSucceed ∨ out.1 = .registSucceed → Vouches fd user mess out.2 t))
      (fun _ t => Server.Still s t) s := by
  simp only [loginRequest, wp_bind, wp_realQuery]
  have still : Server.Still s (asked env (selectAll name) s) := still_asked _ s
  split
  · exact ⟨still, by simp⟩
  · exact ⟨still, by simp⟩
  · rename_i account
    split
    · split
      · exact ⟨still, by simp⟩
      · rename_i same
        refine wp_mono (queryUserId_accepts name .loginSucceed _) (fun out t answered => ⟨still.trans answered.1, fun done => ?_⟩)
          fun _ _ => still.trans
        rcases answered.2 with failed | ⟨-, text, more, trace, number⟩
        · simp [failed] at done
        · rw [asked_trace, account, request] at trace
          exact ⟨text, _, older, trace, .login content (not_not.mp same), number⟩
    · exact still

theorem newUserRegist_vouches {user : Option Int} {older : List Event} {name passwd : Bytes}
    (request : s.trace = .request fd user mess :: older) (content : mess.proto = some (.csRegist name passwd)) :
    wp (newUserRegist env name passwd)
      (fun out t => Server.Still s t ∧ (out.1 = .loginSucceed ∨ out.1 = .registSucceed → Vouches fd user mess out.2 t))
      (fun _ t => Server.Still s t) s := by
  simp only [newUserRegist, wp_bind, wp_realQuery]
  have still : Server.Still s (asked env (selectAll name) s) := still_asked _ s
  split
  · exact ⟨still, by simp⟩
  · exact ⟨still, by simp⟩
  · rename_i free
    simp only [wp_bind, wp_realQuery]
    have inserted := still.trans (u := asked env (insertLogin name passwd) _) (still_asked _ _)
    split
    · exact ⟨inserted, by simp⟩
    · rename_i made taken
      refine wp_mono (queryUserId_accepts name .registSucceed _)
        (fun out t answered => ⟨inserted.trans answered.1, fun done => ?_⟩) fun _ _ => inserted.trans
      rcases answered.2 with failed | ⟨-, text, more, trace, number⟩
      · simp [failed] at done
      · rw [asked_trace, taken, asked_trace, free, request] at trace
        exact ⟨text, _, older, trace, .regist content, number⟩

end Login

namespace MP

/-- A login that the database vouched for is entered. -/
theorem entered_serves {user : Option Int} {id : Bytes} {u : Int} {done failed : CMessage}
    (vouches : Login.Vouches fd user mess u s) :
    wp (do
      match PersonManager.personLogin u id (← get) with
      | (.success, s) =>
        set s
        modify fun s => (playerLogin (loginArg fd user) u s).2
        send env u done
      | _ => sendByConnfd env (loginArg fd user) failed) (fun _ t => Serves env s t) (fun _ t => Serves env s t) s := by
  obtain ⟨text, queries, older, trace, accepts, number⟩ := vouches
  simp only [wp_bind, wp_get]
  cases person : PersonManager.personLogin u id s with
  | mk ret t =>
    cases ret with
    | success =>
      simp only [wp_bind, wp_set, wp_modify]
      obtain ⟨-, rfl⟩ := PersonManager.personLogin_eq person
      have known : Serves env s { s with persons := s.persons.insert u { name := id, status := .inHall, userId := u } } :=
        .cascade (.still (.same rfl rfl rfl rfl))
      exact (send_serves u done).later (known.trans (.enter trace accepts number))
    | fail => exact sendByConnfd_serves _ failed s
    | error => exact sendByConnfd_serves _ failed s

theorem enter_serves {user : Option Int} {id : Bytes} {reply : Int → CMessage} {outcome : LoginResult × Int}
    (vouches : outcome.1 = .loginSucceed ∨ outcome.1 = .registSucceed → Login.Vouches fd user mess outcome.2 s) :
    wp (enter env (loginArg fd user) id reply outcome) (fun _ t => Serves env s t) (fun _ t => Serves env s t) s := by
  unfold enter
  split
  · exact entered_serves (vouches (.inl rfl))
  · exact entered_serves (vouches (.inr rfl))
  · exact sendByConnfd_serves _ _ s
  · exact sendByConnfd_serves _ _ s
  · exact sendByConnfd_serves _ _ s

theorem csLogin_serves {user : Option Int} {older : List Event} (request : s.trace = .request fd user mess :: older) :
    wp (csLogin env (loginArg fd user) mess) (fun _ t => Serves env s t) (fun _ t => Serves env s t) s := by
  unfold csLogin
  split
  · rename_i id passwd content
    simp only [wp_bind, wp_pure]
    refine wp_mono (Login.loginRequest_vouches request content) (fun out t asked => ?_) fun _ _ still => .cascade (.still still)
    refine wp_mono (enter_serves asked.2) (fun _ _ => ?_) fun _ _ => ?_
    all_goals exact (Serves.cascade (.still asked.1)).trans
  · exact refl_of (Serves env) s

theorem csRegist_serves {user : Option Int} {older : List Event} (request : s.trace = .request fd user mess :: older) :
    wp (csRegist env (loginArg fd user) mess) (fun _ t => Serves env s t) (fun _ t => Serves env s t) s := by
  unfold csRegist
  split
  · rename_i id passwd content
    simp only [wp_bind, wp_pure]
    refine wp_mono (Login.newUserRegist_vouches request content) (fun out t asked => ?_) fun _ _ still => .cascade (.still still)
    refine wp_mono (enter_serves asked.2) (fun _ _ => ?_) fun _ _ => ?_
    all_goals exact (Serves.cascade (.still asked.1)).trans
  · exact refl_of (Serves env) s

theorem csHeartbeat_serves (fd : Int) : Along (Serves env) (csHeartbeat env fd) := by
  refine .bind (fun s => ?_) fun _ => .pure
  simp only [Heartbeat.updateFd, wp_bind, wp_get]
  split
  · rename_i t erased
    have still : Server.Still s t := by
      have still := Server.Still.eraseHeartbeat fd s
      rwa [erased] at still
    simp only [wp_bind, wp_set, wp_getNowTimeSecond, wp_modify]
    refine Serves.trans (.cascade (.still still)) (.beat ?_ fun e mem => ?_)
    · exact .beside (fun _ => .refl _) rfl (Nat.le_succ _) (.refl _)
    · rcases PairSet.mem_insert.mp mem with rfl | mem
      · exact .inr ⟨Nat.lt_succ_self _, rfl⟩
      · exact .inl mem
  · exact refl_of (Serves env) s

/-! #### Rooms -/

theorem csPullAllRoomInfo_serves (u : Int) : Along (Serves env) (csPullAllRoomInfo env u) :=
  .bind .get fun _ => .bind (send_serves _ _) fun _ => .pure

theorem addPlayer_serves (p : RoomPtr) (u : Int) : Along (Serves env) (Room.addPlayer p u) := by
  intro s
  simp only [Room.addPlayer, wp_bind, wp_getRoom]
  split
  · split
    · exact refl_of (Serves env) s
    · simp only [wp_bind, wp_modify, wp_pure]
      refine .cascade (.still (.trans (.trans ?_ (.changePersonStatus u .inRoom _)) (.log rfl _)))
      exact .setRoom (r := (s.room p).addSlot u) ⟨rfl, rfl, rfl, rfl, rfl⟩
  · exact refl_of (Serves env) s

/-- A room that is created waits. -/
theorem created_serves (u gameMode teamMode : Int) (s : Server) :
    Serves env s (RoomManager.created u gameMode teamMode s) := by
  obtain ⟨p, roomId, _, _, _, garbage, -, hs⟩ := RoomManager.created_eq u gameMode teamMode s
  rw [hs]
  refine @Serves.reset env s _ p (.beside rfl (Nat.le_refl _) ((Adds.cons rfl).trans (.cons rfl))) (fun id q found => ?_)
    (fun q other => .of_eq (Function.update_of_ne other ..)) ?_ ?_
  · rw [Map.getElem?_insert] at found
    split at found
    · exact .inr (Option.some.inj found).symm
    · exact .inl found
  · simp [Room.init, Room.addSlot]
  · simp [Room.init, Room.addSlot]

theorem createRoom_serves (u gameMode teamMode : Int) : Along (Serves env) (RoomManager.createRoom u gameMode teamMode) := by
  intro s
  by_cases free : u ∈ s.belongRoom
  · simp only [RoomManager.createRoom, wp_bind, wp_get, if_pos free]
    exact refl_of (Serves env) s
  · exact RoomManager.createRoom_spec gameMode teamMode free (created_serves u gameMode teamMode s)

theorem joinRoom_serves (u roomId : Int) : Along (Serves env) (RoomManager.joinRoom u roomId) := by
  refine .bind .get fun s => ?_
  split
  · exact .pure
  · refine .ite .pure (.bind (addPlayer_serves _ _) fun ret => .ite ?_ .pure)
    exact .bind (serves_still fun _ => .same rfl rfl rfl rfl) fun _ => .pure

theorem csCreateRoom_serves (u : Int) (mess : CMessage) : Along (Serves env) (csCreateRoom env u mess) := by
  unfold csCreateRoom
  split
  · refine .bind (createRoom_serves _ _ _) fun result => ?_
    split
    · exact .bind (send_serves _ _) fun _ => .bind .get fun _ => .bind (send_serves _ _) fun _ => .pure
    · exact .bind (send_serves _ _) fun _ => .pure
  · exact .throw

theorem csJoinRoom_serves (u : Int) (mess : CMessage) : Along (Serves env) (csJoinRoom env u mess) := by
  unfold csJoinRoom
  split
  · refine .bind (joinRoom_serves _ _) fun result => .ite .pure (.bind (send_serves _ _) fun _ => .ite ?_ .pure)
    refine .bind .get fun s => ?_
    split
    · exact .throw
    · exact .bind (sendToRoom_serves _ _) fun _ => .pure
  · exact .throw

theorem csPlayerExitRoom_serves (u : Int) : Along (Serves env) (csPlayerExitRoom env u) := by
  refine .bind .get fun s => ?_
  split
  · exact .throw
  · refine .bind getRoom_serves fun _ => .ite ?_ (.bind (sendToRoom_serves _ _) fun _ => .pure)
    exact .bind (deletePlayerFromRoom_serves _) fun _ => .bind (sendToRoom_serves _ _) fun _ => .pure

theorem csChangeTeam_serves (u : Int) (mess : CMessage) : Along (Serves env) (csChangeTeam env u mess) := by
  unfold csChangeTeam
  split
  · rename_i teamId gameOption _
    refine .bind .get fun s => ?_
    split
    · exact .pure
    · rename_i p _
      refine .bind getRoom_serves fun _ => .ite .pure (.bind (serves_still fun s => (Server.Still.setRoom ?_).trans (.log rfl _)) fun _ => ?_)
      · obtain ⟨_, _, hr⟩ := applyChange_eq u teamId gameOption (s.room p)
        rw [hr]
        exact ⟨rfl, rfl, rfl, rfl, rfl⟩
      · exact .bind .get fun _ => .bind (sendToRoom_serves _ _) fun _ => .pure
  · exact .throw

/-! #### The game -/

/-- A room that loads has the second at which everybody was told. -/
theorem sendGameLoading_serves (p : RoomPtr) : Along (Serves env) (Room.sendGameLoading env (deleteClientByFd env) p) := by
  intro s
  simp only [Room.sendGameLoading, wp_bind, wp_getRoom]
  split
  · exact refl_of (Serves env) s
  · simp only [wp_bind, wp_get, wp_set, wp_getNowTimeSecond, wp_modify]
    have drawn : Cascade env s (s.tickSys 1) := .still (.tickSys 1 s)
    refine wp_mono ((sendMessageToEveryone_cascade deleteClientByFd_cascade p _).later drawn) (fun _ t told => ?_)
      fun _ _ => .cascade
    refine (Serves.cascade told).trans (@Serves.reset env t _ p ?_ (fun _ _ => .inl) (fun q other => ?_) ?_ ?_)
    · exact .beside rfl (Nat.le_succ _) (.cons rfl)
    · exact .of_eq (Server.setRoom_room_ne other)
    · simp [Server.log, Room.startLoading]
    · intro _
      refine ⟨Nat.lt_succ_self _, ?_⟩
      simp [Server.log, Room.startLoading, second]

theorem csReadyToStart_serves (u : Int) : Along (Serves env) (csReadyToStart env u) := by
  refine .bind .get fun s => ?_
  split
  · exact .pure
  · exact .bind getRoom_serves fun _ => .ite .pure (.bind (sendGameLoading_serves _) fun _ => .pure)

theorem addLoadingSucceed_serves (p : RoomPtr) (u : Int) : Along (Serves env) (Room.addLoadingSucceed env p u) := by
  intro s
  simp only [Room.addLoadingSucceed, wp_bind, wp_getRoom]
  split
  · simp only [wp_bind, wp_discard, wp_pure]
    exact deletePlayerFromRoom_serves u s
  · split
    · exact refl_of (Serves env) s
    · split
      · exact refl_of (Serves env) s
      · simp only [wp_bind, wp_modify, wp_pure]
        refine .cascade (.still (.trans ?_ (.log rfl _)))
        exact .setRoom (r := (s.room p).loadSlot ((s.room p).getPlayerId u)) ⟨rfl, rfl, rfl, rfl, rfl⟩

theorem csLoadSucceed_serves (u : Int) : Along (Serves env) (csLoadSucceed env u) := by
  refine .bind .get fun s => ?_
  split
  · exact .pure
  · refine .bind getRoom_serves fun _ => .ite (.bind (addLoadingSucceed_serves _ _) fun _ => .ite ?_ .pure) .pure
    exact .bind (sendGameStart_serves _) fun _ => .pure

theorem relay_serves {room : Server → Option RoomPtr} {failed u : Int} {reply : RoomPtr → Nat → M CMessage}
    (h : ∀ p playerId, Along (Serves env) (reply p playerId)) : Along (Serves env) (relay env room failed u reply) := by
  refine .bind .get fun s => ?_
  split
  · exact .pure
  · refine .bind getRoom_serves fun _ => .ite .pure (.bind (h _ _) fun _ => ?_)
    exact .bind (serves_of_cascade (addTo_cascade _ _)) fun _ => .pure

theorem csChoseRole_serves (u : Int) (mess : CMessage) : Along (Serves env) (csChoseRole env u mess) := by
  unfold csChoseRole
  split
  · exact relay_serves fun p _ => .bind (serves_of_cascade (getNowFrame_cascade p)) fun _ => .pure
  · exact .throw

theorem csMove_serves (u : Int) (mess : CMessage) : Along (Serves env) (csMove env u mess) := by
  unfold csMove
  split
  · exact relay_serves fun _ _ => .pure
  · exact .throw

theorem csKill_serves (u : Int) (mess : CMessage) : Along (Serves env) (csKill env u mess) := by
  unfold csKill
  split
  · exact relay_serves fun _ _ => .pure
  · exact .throw

theorem csSkill_serves (u : Int) (mess : CMessage) : Along (Serves env) (csSkill env u mess) := by
  unfold csSkill
  split
  · exact relay_serves fun _ _ => .pure
  · exact .throw

theorem csGamePause_serves (u : Int) (mess : CMessage) : Along (Serves env) (csGamePause env u mess) :=
  relay_serves fun _ _ => .pure

theorem gameEnd_serves (p : RoomPtr) (u : Int) : Along (Serves env) (Room.gameEnd p u) := by
  intro s
  simp only [Room.gameEnd, wp_bind, wp_getRoom, wp_log]
  have noted : Server.Still s (s.log (.gameEnd u p (s.room p).status)) := .log rfl s
  split
  · split
    · simp only [wp_bind, wp_modify, wp_pure]
      refine .cascade (.still (noted.trans (.trans ?_ (.changePersonStatus u .inHall _))))
      exact .setRoom (r := (s.room p).setOffline ((s.room p).getPlayerId u)) ⟨rfl, rfl, rfl, rfl, rfl⟩
    · exact .cascade (.still noted)
  · exact .cascade (.still noted)

theorem csGameEnd_serves (u : Int) : Along (Serves env) (csGameEnd env u) := by
  refine .bind .get fun s => ?_
  split
  · exact .pure
  · refine .bind (serves_of_cascade (getNowFrame_cascade _)) fun _ => .bind (send_serves _ _) fun _ => ?_
    refine .bind (.discard (.bind .get fun s => ?_)) fun _ => .pure
    split
    · exact .pure
    · exact .bind (serves_still fun _ => .same rfl rfl rfl rfl) fun _ => gameEnd_serves _ _

end MP

theorem processRequest_serves {user : Option Int} {older : List Event}
    (request : s.trace = .request fd user mess :: older) :
    wp (processRequest env (requestArg fd user mess) mess) (fun _ t => Serves env s t) (fun _ t => Serves env s t) s := by
  unfold processRequest
  cases hp : Register.boot.processor mess.head.messageId with
  | none => exact refl_of (Serves env) s
  | some type =>
    have use := Register.boot_processor hp
    cases type <;> simp only [Register.uses, List.mem_cons, Prod.mk.injEq, reduceCtorEq, and_false, and_true,
      List.not_mem_nil, or_false, false_or] at use
    case csLogin =>
      have arg : requestArg fd user mess = loginArg fd user := by simp [requestArg, use, Msg.csLogin, Msg.csHeartbeat]
      simp only [arg]
      exact MP.csLogin_serves request
    case csRegist =>
      have arg : requestArg fd user mess = loginArg fd user := by simp [requestArg, use, Msg.csRegist, Msg.csHeartbeat]
      simp only [arg]
      exact MP.csRegist_serves request
    case csHeartbeat => exact MP.csHeartbeat_serves _ s
    case csPullAllRoomInfo => exact MP.csPullAllRoomInfo_serves _ s
    case csCreateRoom => exact MP.csCreateRoom_serves _ _ s
    case csJoinRoom => exact MP.csJoinRoom_serves _ _ s
    case csPlayerExitRoom => exact MP.csPlayerExitRoom_serves _ s
    case csChangeTeam => exact MP.csChangeTeam_serves _ _ s
    case csReadyToStart => exact MP.csReadyToStart_serves _ s
    case csLoadSucceed => exact MP.csLoadSucceed_serves _ s
    case csChoseRole => exact MP.csChoseRole_serves _ _ s
    case csMove => exact MP.csMove_serves _ _ s
    case csKill => exact MP.csKill_serves _ _ s
    case csSkill => exact MP.csSkill_serves _ _ s
    case csGamePause => exact MP.csGamePause_serves _ _ s
    case csGameEnd => exact MP.csGameEnd_serves _ s

/-! ### `ReceiveMessage` -/

theorem dispatch_serves (fd : Int) (mess : CMessage) : Along (Serves env) (dispatch env fd mess) := by
  rw [dispatch_eq]
  refine .bind .get fun s => .ite (fun t => ?_) .pure
  simp only [wp_bind, wp_log, wp_discard]
  have logged : Serves env t (t.log (.request fd s.fdToUserId[fd]? mess)) := .note (.refl t) rfl (by simp)
  refine wp_mono (processRequest_serves rfl) (fun _ _ => logged.trans) fun _ _ => logged.trans

/-- A connection that is entered has the second at which it was. -/
theorem acceptNew_serves : Along (Serves env) (acceptNew env) := by
  intro s
  simp only [acceptNew, wp_bind, wp_get]
  cases sock : getFreeTcpSocket s with
  | mk c s' =>
    simp only
    cases acc : acceptClient env c s' with
    | mk ret t =>
      have still : Server.Still s t := by
        obtain ⟨_, _, _, _, _, rfl⟩ := acceptSocket_eq sock acc
        exact .beside (fun _ => .refl _) rfl (Nat.le_add_right ..) (.refl _)
      cases ret with
      | success =>
        simp only [wp_bind, wp_set]
        split
        · exact .cascade (.still still)
        · have entered : Serves env s ({ t with
              epoll := t.epoll.insert (t.sock c).iSockfd
              connects := t.connects.insert (t.sock c).iSockfd c }.log (.accept (t.sock c).iSockfd)) :=
            (Serves.cascade (.still still)).trans
              (.note (.beside (fun _ => .refl _) rfl (Nat.le_refl _) (.refl _)) rfl (by simp))
          simp only [wp_bind, wp_set, Heartbeat.initFd, wp_get]
          split
          · exact entered
          · simp only [wp_bind, wp_getNowTimeSecond, wp_modify]
            refine Serves.trans entered (.beat ?_ fun e mem => ?_)
            · exact .beside (fun _ => .refl _) rfl (Nat.le_succ _) (.refl _)
            · rcases PairSet.mem_insert.mp mem with rfl | mem
              · exact .inr ⟨Nat.lt_succ_self _, rfl⟩
              · exact .inl mem
      | fail => exact .cascade (.still (still.trans (.same rfl rfl rfl rfl)))
      | error => exact .cascade (.still (still.trans (.same rfl rfl rfl rfl)))

theorem recvData_serves (fd : Int) (c : SockPtr) : Along (Serves env) (recvData env fd c) := by
  intro s
  simp only [recvData, wp_bind, wp_get]
  refine wp_guarded (fun out _ => ?_) fun _ _ => refl_of (Serves env) s
  simp only [wp_set, wp_pure]
  exact .note (.beside (fun _ => .refl _) rfl (Nat.le_add_right ..) (.refl _)) rfl (by simp)

theorem extractMessage_serves (fd : Int) : Along (Serves env) (extractMessage fd) := by
  intro s
  simp only [extractMessage, wp_bind, wp_get]
  split
  · exact refl_of (Serves env) s
  · split
    · simp only [wp_bind, wp_set, wp_pure]
      exact .note (.beside (fun _ => .refl _) rfl (Nat.le_refl _) (.refl _)) rfl (by simp)
    · exact refl_of (Serves env) s

theorem messageLoop_serves (fd : Int) : ∀ fuel cnt, Along (Serves env) (messageLoop env fd fuel cnt)
  | 0, _ => .throw
  | fuel + 1, cnt => by
    refine .bind (extractMessage_serves fd) fun size => ?_
    split
    · exact .pure
    · refine .bind (.bind .get fun s => ?_) fun n => messageLoop_serves fd fuel (cnt + n)
      split
      · exact .pure
      · exact .bind (dispatch_serves _ _) fun _ => .pure

theorem deleteClientByFd_serves (fd : Int) : Along (Serves env) (deleteClientByFd env fd) :=
  serves_of_cascade (deleteClientByFd_cascade fd)

theorem readClient_serves (fd : Int) (c : SockPtr) : Along (Serves env) (readClient env fd c) := by
  refine .bind (recvData_serves fd c) fun ret => .bind .get fun s => .bind (messageLoop_serves fd _ _) fun cnt => ?_
  exact .ite (.bind (deleteClientByFd_serves fd) fun _ => .pure) .pure

theorem handleEvent_serves (ev : EpollEvent) : Along (Serves env) (handleEvent env ev) := by
  refine .bind (log_serves rfl) fun _ => .bind .get fun s => .ite (.ite ?_ .pure) (.ite ?_ ?_)
  · exact .bind (deleteClientByFd_serves _) fun _ => .pure
  · exact .bind acceptNew_serves fun _ => .pure
  · split
    · exact .pure
    · exact readClient_serves _ _

theorem handleEvents_serves : ∀ events cnt, Along (Serves env) (handleEvents env events cnt)
  | [], _ => .pure
  | ev :: rest, cnt => .bind (handleEvent_serves ev) fun n => handleEvents_serves rest (cnt + n)

theorem receiveMessage_serves : Along (Serves env) (receiveMessage env) := by
  intro s
  simp only [receiveMessage, wp_bind, wp_get, wp_set]
  exact (handleEvents_serves _ 0).later (.cascade (.still (.tickSys 1 s)))

end

end IslandSurvival
