import IslandSurvival.Theorems.Effects
import IslandSurvival.Theorems.Stable

/-! What the moves keep, the message processors keep. -/

namespace IslandSurvival

open Prog

section
variable {env : Env} {base : List Frame} {I : List Frame → Server → Prop} {k : List Frame} {s : Server}
  {fd u : Int} {user : Option Int} {mess : CMessage}

/-- A move that leaves the pending work as it is. -/
theorem Stable.stay {K : List Frame} {s' : Server} (st : Stable env base I) (hk : k ++ base = K)
    (move : Step env K s K s') (h : I k s) : I k s' := by
  subst hk
  exact st.step move h

/-- A move that begins something above the pending work. -/
theorem Stable.push {K : List Frame} {f : Frame} {s' : Server} (st : Stable env base I) (hk : k ++ base = K)
    (move : Step env K s (f :: K) s') (h : I k s) : I (f :: k) s' := by
  subst hk
  exact st.step (l := f :: k) move h

/-! ### Login -/

/-- A database query changes neither connections nor users. -/
def Login.Quiet (s t : Server) : Prop := t.connects = s.connects ∧ t.fdToUserId = s.fdToUserId

namespace Login

theorem realQuery_spec (st : Stable env base I) (sql : Bytes) (h : I k s) :
    wp (realQuery env sql) (fun _ t => I k t ∧ Quiet s t) (Fails I) s := by
  have h₁ : I k (s.tickSys 1) := st.step (.sys 1) h
  simp only [realQuery, wp_bind, wp_get, wp_set, wp_pure]
  exact ⟨st.step (.query sql queryLength _) h₁, rfl, rfl⟩

theorem readUserId_spec (columns : Option (List (Option Bytes))) (h : I k s) :
    wp (readUserId env columns) (fun _ t => t = s) (Fails I) s := by
  unfold readUserId
  split
  · simp only [wp_bind, wp_get, wp_pure]
  · exact wp_throw_of h

theorem queryUserId_spec (st : Stable env base I) (name : Bytes) (done : LoginResult) (h : I k s) :
    wp (queryUserId env name done) (fun _ t => I k t ∧ Quiet s t) (Fails I) s := by
  simp only [queryUserId, wp_bind]
  refine wp_post (realQuery_spec st _ h) fun answer t ⟨ht, quiet⟩ => ?_
  cases answer with
  | error => exact ⟨ht, quiet⟩
  | row columns =>
    simp only [wp_bind, wp_pure]
    refine wp_post (readUserId_spec columns ht) fun userId t' same => ?_
    subst same
    exact ⟨ht, quiet⟩

theorem loginRequest_spec (st : Stable env base I) (name passwd : Bytes) (h : I k s) :
    wp (loginRequest env name passwd) (fun _ t => I k t ∧ Quiet s t) (Fails I) s := by
  simp only [loginRequest, wp_bind]
  refine wp_post (realQuery_spec st _ h) fun answer t ⟨ht, quiet⟩ => ?_
  split
  · exact ⟨ht, quiet⟩
  · exact ⟨ht, quiet⟩
  · split
    · split
      · exact ⟨ht, quiet⟩
      · exact wp_post (queryUserId_spec st _ _ ht) fun _ t' ⟨ht', quiet'⟩ =>
          ⟨ht', quiet'.1.trans quiet.1, quiet'.2.trans quiet.2⟩
    · exact wp_throw_of ht

theorem newUserRegist_spec (st : Stable env base I) (name passwd : Bytes) (h : I k s) :
    wp (newUserRegist env name passwd) (fun _ t => I k t ∧ Quiet s t) (Fails I) s := by
  simp only [newUserRegist, wp_bind]
  refine wp_post (realQuery_spec st _ h) fun answer t ⟨ht, quiet⟩ => ?_
  split
  · exact ⟨ht, quiet⟩
  · exact ⟨ht, quiet⟩
  · simp only [wp_bind]
    refine wp_post (realQuery_spec st _ ht) fun answer' t' ⟨ht', quiet'⟩ => ?_
    have quiet' : Quiet s t' := ⟨quiet'.1.trans quiet.1, quiet'.2.trans quiet.2⟩
    split
    · exact ⟨ht', quiet'⟩
    · exact wp_post (queryUserId_spec st _ _ ht') fun _ t'' ⟨ht'', quiet''⟩ =>
        ⟨ht'', quiet''.1.trans quiet'.1, quiet''.2.trans quiet'.2⟩

end Login

namespace MP

theorem reply_log {reply : CMessage} {e : Event} (may : Reply s reply) : Reply (s.log e) reply := by
  cases may with
  | login => exact .login
  | regist => exact .regist
  | rooms => exact .rooms
  | create => exact .create
  | detail => exact .detail
  | join => exact .join
  | gameEnd => exact .gameEnd

theorem send_spec (st : Stable env base I) (hk : k ++ base = [.handling fd user mess]) (userId : Int)
    {reply : CMessage} (may : Reply s reply) (h : I k s) :
    wp (send env userId reply) (fun _ t => I k t) (Fails I) s := by
  simp only [send, wp_discard]
  exact sendMessageToClient_spec st (deleteClientByFd_spec st) (hk ▸ .reply (reply_log may) rfl)
    (st.stay hk (.reply userId may) h)

theorem sendByConnfd_spec (st : Stable env base I) (hk : k ++ base = [.handling fd user mess]) (connfd : Int)
    {reply : CMessage} (outcome : Outcome reply) (h : I k s) :
    wp (sendByConnfd env connfd reply) (fun _ t => I k t) (Fails I) s := by
  simp only [sendByConnfd, wp_discard]
  exact wp_post (sendMessageByConnfd_spec st connfd (hk ▸ .outcome outcome) h) fun _ _ ht => ht.1

/-- A broadcast of a processor itself. -/
theorem sendToRoom_spec (st : Stable env base I) (hk : k ++ base = [.handling fd user mess]) {p : RoomPtr}
    {reply : CMessage} (may : MayBroadcast s p reply (.handling fd user mess) (.handling fd user mess)) (h : I k s) :
    wp (sendToRoom env p reply) (fun _ t => I k t) (Fails I) s :=
  Room.sendMessageToEveryone_spec st (deleteClientByFd_spec st) (st.push hk (.everyone may) h)

theorem enter_spec (st : Stable env base I) (hk : k ++ base = [.handling fd user mess]) {c : SockPtr}
    (conn : s.connects[fd]? = some c) (bound : s.fdToUserId[fd]? = user)
    (login : mess.head.messageId = Msg.csLogin ∨ mess.head.messageId = Msg.csRegist)
    (id : Bytes) {reply : Int → CMessage} (results : ∀ result, Outcome (reply result)) (outcome : LoginResult × Int)
    (h : I k s) :
    wp (enter env (loginArg fd user) id reply outcome) (fun _ t => I k t) (Fails I) s := by
  obtain ⟨result, userId⟩ := outcome
  have entered : wp (enter env (loginArg fd user) id reply (.loginSucceed, userId)) (fun _ t => I k t)
      (Fails I) s := by
    simp only [enter, wp_bind, wp_get]
    split
    · rename_i t person
      simp only [wp_bind, wp_set, wp_modify]
      exact send_spec st hk _ (results _).reply (st.stay hk (.enter conn bound login person) h)
    · exact sendByConnfd_spec st hk _ (results _) h
  cases result with
  | loginSucceed => exact entered
  | registSucceed => exact entered
  | loginFailed => exact sendByConnfd_spec st hk _ (results _) h
  | registUsed => exact sendByConnfd_spec st hk _ (results _) h
  | dbError => exact sendByConnfd_spec st hk _ (results _) h

theorem csLogin_spec (st : Stable env base I) (hk : k ++ base = [.handling fd user mess]) {c : SockPtr}
    (conn : s.connects[fd]? = some c) (bound : s.fdToUserId[fd]? = user)
    (login : mess.head.messageId = Msg.csLogin) (h : I k s) :
    wp (csLogin env (loginArg fd user) mess) (fun _ t => I k t) (Fails I) s := by
  unfold csLogin
  split
  · simp only [wp_bind, wp_pure]
    refine wp_post (Login.loginRequest_spec st _ _ h) fun outcome t ⟨ht, quiet⟩ => ?_
    exact enter_spec st hk (quiet.1 ▸ conn) (quiet.2 ▸ bound) (.inl login) _ (fun _ => .login) outcome ht
  · exact wp_throw_of h

theorem csRegist_spec (st : Stable env base I) (hk : k ++ base = [.handling fd user mess]) {c : SockPtr}
    (conn : s.connects[fd]? = some c) (bound : s.fdToUserId[fd]? = user)
    (login : mess.head.messageId = Msg.csRegist) (h : I k s) :
    wp (csRegist env (loginArg fd user) mess) (fun _ t => I k t) (Fails I) s := by
  unfold csRegist
  split
  · simp only [wp_bind, wp_pure]
    refine wp_post (Login.newUserRegist_spec st _ _ h) fun outcome t ⟨ht, quiet⟩ => ?_
    exact enter_spec st hk (quiet.1 ▸ conn) (quiet.2 ▸ bound) (.inr login) _ (fun _ => .regist) outcome ht
  · exact wp_throw_of h

theorem csHeartbeat_spec (st : Stable env base I) (hk : k ++ base = [.handling fd user mess]) (h : I k s) :
    wp (csHeartbeat env fd) (fun _ t => I k t) (Fails I) s := by
  simp only [csHeartbeat, Heartbeat.updateFd, wp_bind, wp_get]
  split
  · rename_i t old
    simp only [wp_bind, wp_set, wp_getNowTimeSecond, wp_modify, wp_pure]
    exact st.stay hk (.heartbeat _ old) h
  · exact h

end MP

/-! ### Rooms -/

/-- A successful `AddPlayer` -/
theorem Room.addPlayer_spec {Q : JoinResult → Server → Prop} {E : Fault → Server → Prop} {p : RoomPtr}
    (status : (s.room p).status = .waiting) (cnt : (s.room p).playerCnt < maxPlayerCnt)
    (h : Q .addPlayerSucceed (Room.added p u s)) :
    wp (Room.addPlayer p u) Q E s := by
  simp only [Room.addPlayer, wp_bind, wp_getRoom, status, if_true]
  rw [if_neg (Nat.not_le_of_lt cnt)]
  exact h

/-- A successful `CreateRoom` -/
theorem RoomManager.createRoom_spec {Q : Ret × Int → Server → Prop} {E : Fault → Server → Prop}
    (gameMode teamMode : Int) (free : u ∉ s.belongRoom)
    (h : Q (.success, (RoomManager.takeRoom s).2.1) (RoomManager.created u gameMode teamMode s)) :
    wp (RoomManager.createRoom u gameMode teamMode) Q E s := by
  simp only [RoomManager.createRoom, wp_bind, wp_get]
  rw [if_neg free]
  simp only [wp_bind, wp_set, wp_discard, wp_pure]
  refine Room.addPlayer_spec ?_ ?_ ?_
  · simp [Server.setRoom, Server.log, Room.init]
  · simp [Server.setRoom, Server.log, Room.init, maxPlayerCnt]
  · exact h

namespace MP

section
variable (hk : k ++ base = [.handling fd (some u) mess])
include hk

theorem csPullAllRoomInfo_spec (st : Stable env base I) (h : I k s) :
    wp (csPullAllRoomInfo env u) (fun _ t => I k t) (Fails I) s := by
  simp only [csPullAllRoomInfo, wp_bind, wp_get, wp_pure]
  exact send_spec st hk _ .rooms h

theorem csCreateRoom_spec (st : Stable env base I) (first : s.trace.head? = some (.request fd (some u) mess))
    (bound : s.fdToUserId[fd]? = some u) (h : I k s) :
    wp (csCreateRoom env u mess) (fun _ t => I k t) (Fails I) s := by
  unfold csCreateRoom
  split
  · rename_i gameMode teamMode _
    simp only [wp_bind]
    by_cases free : u ∈ s.belongRoom
    · simp only [RoomManager.createRoom, wp_bind, wp_get, if_pos free, wp_pure]
      exact send_spec st hk _ .create h
    · rename_i free
      refine RoomManager.createRoom_spec gameMode teamMode free ?_
      simp only [wp_bind, wp_pure]
      refine wp_post (send_spec st hk _ .create (st.stay hk (.create gameMode teamMode first bound free) h))
        fun _ t ht => ?_
      simp only [wp_get]
      exact send_spec st hk _ .detail ht
  · exact wp_throw_of h

theorem joinRoom_spec (st : Stable env base I) (first : s.trace.head? = some (.request fd (some u) mess))
    (bound : s.fdToUserId[fd]? = some u) (roomId : Int) (h : I k s) :
    wp (RoomManager.joinRoom u roomId) (fun _ t => I k t) (Fails I) s := by
  simp only [RoomManager.joinRoom, wp_bind, wp_get]
  split
  · exact h
  · rename_i p room
    split
    · exact h
    · rename_i free
      simp only [wp_bind]
      by_cases status : (s.room p).status = .waiting
      · by_cases cnt : (s.room p).playerCnt < maxPlayerCnt
        · refine Room.addPlayer_spec status cnt ?_
          simp only [if_true, wp_bind, wp_modify, wp_pure]
          exact st.stay hk (.join first bound room free status cnt) h
        · simp only [Room.addPlayer, wp_bind, wp_getRoom, status, if_true, if_pos (Nat.le_of_not_lt cnt), wp_pure]
          exact h
      · simp only [Room.addPlayer, wp_bind, wp_getRoom, if_neg status, wp_pure]
        exact h

theorem csJoinRoom_spec (st : Stable env base I) (first : s.trace.head? = some (.request fd (some u) mess))
    (bound : s.fdToUserId[fd]? = some u) (h : I k s) :
    wp (csJoinRoom env u mess) (fun _ t => I k t) (Fails I) s := by
  unfold csJoinRoom
  split
  · simp only [wp_bind]
    refine wp_post (joinRoom_spec hk st first bound _ h) fun result t ht => ?_
    split
    · exact ht
    · simp only [wp_bind]
      refine wp_post (send_spec st hk _ .join ht) fun _ t' ht' => ?_
      split
      · simp only [wp_bind, wp_get]
        split
        · exact wp_throw_of ht'
        · rename_i p room
          simp only [wp_bind, wp_pure, RoomManager.detailMessage]
          rw [RoomManager.getRoomByRoomId] at room
          simp only [room]
          exact sendToRoom_spec st hk (.joined room) ht'
      · exact ht'
  · exact wp_throw_of h

theorem csPlayerExitRoom_spec (st : Stable env base I) (h : I k s) :
    wp (csPlayerExitRoom env u) (fun _ t => I k t) (Fails I) s := by
  simp only [csPlayerExitRoom, wp_bind, wp_get, RoomManager.getRoomByUserId]
  split
  · exact wp_throw_of h
  · rename_i p belong
    have h₁ : I (.exitRequest u p :: k) s := st.push hk (.exitBegin belong) h
    have answer : ∀ t result, I (.exitRequest u p :: k) t →
        wp (sendToRoom env p (exitMessage result)) (fun _ t => I k t) (Fails I) t := fun t result ht =>
      wp_post (Room.everyone_spec st (deleteClientByFd_spec st) .exit ht) fun _ _ ht' =>
        st.step (k := .exitRequest u p :: k) .exitEnd ht'
    simp only [wp_bind, wp_getRoom]
    split
    · rename_i status
      simp only [wp_bind, wp_pure]
      refine wp_post (RoomManager.deletePlayerFromRoom_spec st (deleteClientByFd_spec st) (fun _ => h₁)
        (fun q bound pos => ?_) fun q bound pos => ?_) fun _ t ht => answer t _ ht
      · obtain rfl : p = q := Option.some.inj (belong.symm.trans bound)
        exact st.step (k := .exitRequest u p :: k) (l := .exitRequest u p :: k) (.exitMissing belong status pos) h₁
      · obtain rfl : p = q := Option.some.inj (belong.symm.trans bound)
        simp only [Room.departing, status]
        exact st.step (k := .exitRequest u p :: k) (l := .leaving u p false :: .exitRequest u p :: k)
          (.exitRoom belong status pos) h₁
    · simp only [wp_bind, wp_pure]
      exact answer s 0 h₁

theorem csChangeTeam_spec (st : Stable env base I) (h : I k s) :
    wp (csChangeTeam env u mess) (fun _ t => I k t) (Fails I) s := by
  unfold csChangeTeam
  split
  · simp only [wp_bind, wp_get, RoomManager.getRoomByUserId]
    split
    · exact h
    · rename_i p belong
      simp only [wp_bind, wp_getRoom]
      split
      · exact h
      · rename_i status
        simp only [wp_bind, wp_modify, wp_get, wp_pure]
        exact sendToRoom_spec st hk (.changed belong) (st.stay hk (.change _ _ belong (of_not_not status)) h)
  · exact wp_throw_of h

/-! ### Loading -/

theorem csReadyToStart_spec (st : Stable env base I) (h : I k s) :
    wp (csReadyToStart env u) (fun _ t => I k t) (Fails I) s := by
  simp only [csReadyToStart, wp_bind, wp_get, RoomManager.getRoomByUserId]
  split
  · exact h
  · rename_i p belong
    simp only [wp_bind, wp_getRoom]
    split
    · exact h
    · rename_i owner
      simp only [wp_bind, wp_pure, Room.sendGameLoading, wp_getRoom]
      split
      · exact h
      · rename_i status
        have h₁ : I (.loadingUp p false :: k) s :=
          st.push hk (.loadBegin belong (of_not_not status) (of_not_not owner)) h
        have h₂ : I (.loadingUp p false :: k) (s.tickSys 1) := st.step (.sys 1) h₁
        simp only [wp_bind, wp_get, wp_set]
        refine wp_post (Room.everyone_spec st (deleteClientByFd_spec st) .loadingUp h₂) fun _ t ht => ?_
        have h₃ : I (.loadingUp p true :: k) (t.tickSys 1) := st.step (.sys 1) ht
        simp only [wp_getNowTimeSecond, wp_modify]
        exact st.step (k := .loadingUp p true :: k) (by rw [List.cons_append, hk]; exact .load _) h₃

theorem csLoadSucceed_spec (st : Stable env base I) (h : I k s) :
    wp (csLoadSucceed env u) (fun _ t => I k t) (Fails I) s := by
  simp only [csLoadSucceed, wp_bind, wp_get, RoomManager.getRoomByUserId]
  split
  · exact h
  · rename_i p belong
    simp only [wp_bind, wp_getRoom]
    split
    · rename_i status
      simp only [wp_bind, Room.addLoadingSucceed, wp_getRoom, status, ne_eq, not_true_eq_false, if_false]
      split
      · exact h
      · rename_i pos
        split
        · exact h
        · rename_i unloaded
          have unloaded := eq_false_of_ne_true unloaded
          simp only [wp_bind, wp_modify, wp_pure]
          split
          · rename_i all
            simp only [wp_bind, wp_pure]
            refine Room.sendGameStart_spec st (deleteClientByFd_spec st) (fun _ => ?_) fun idle => ?_
            · exact st.push hk (.reportStart belong status pos unloaded (of_decide_eq_true all)) h
            · exact absurd (by simpa [Server.log, Server.setRoom, Room.loadSlot] using status) idle
          · rename_i waits
            have waits := Int.lt_of_not_ge fun le => waits (decide_eq_true le)
            exact st.stay hk (.loadReport belong status pos unloaded waits) h
    · exact h

/-! ### The game -/

/-- The gameplay requests, for a reply that changes the ring at most. -/
theorem relay_spec (st : Stable env base I) {room : Server → Option RoomPtr} (failed : Int)
    {reply : RoomPtr → Nat → M CMessage}
    (hroom : ∀ p, room s = some p → (s.room p).getPlayerId u ≠ 0 → Plays s u mess p)
    (hreply : ∀ p, Plays s u mess p → I k s → wp (reply p ((s.room p).getPlayerId u))
      (fun newmess t => I k t ∧ Plays t u mess p ∧ Gameplay ((t.room p).getPlayerId u) newmess) (Fails I) s) (h : I k s) :
    wp (relay env room failed u reply) (fun _ t => I k t) (Fails I) s := by
  simp only [relay, wp_bind, wp_get]
  split
  · exact h
  · rename_i p here
    simp only [wp_bind, wp_getRoom]
    split
    · exact h
    · rename_i player
      simp only [wp_bind, wp_pure]
      refine wp_post (hreply p (hroom p here player) h) fun newmess t ⟨ht, plays, gameplay⟩ => ?_
      refine Syn.addTo_spec st (hk ▸ .plays plays) ht fun t' syn slot same h₁ hadd => ?_
      subst same
      refine st.stay hk (.relay (u := u) ?_ gameplay hadd) h₁
      cases plays with
      | member gameplay belong player => exact .member gameplay belong player
      | pause gameplay room player => exact .pause gameplay room player

omit hk in
/-- The room of a member -/
theorem plays_member (gameplay : mess.head.messageId ∈ [Msg.csChoseRole, Msg.csMove, Msg.csKill, Msg.csSkill])
    (p : RoomPtr) (belong : RoomManager.getRoomByUserId s u = some p) (player : (s.room p).getPlayerId u ≠ 0) :
    Plays s u mess p :=
  .member gameplay belong player

theorem csChoseRole_spec (st : Stable env base I) (use : mess.head.messageId = Msg.csChoseRole) (h : I k s) :
    wp (csChoseRole env u mess) (fun _ t => I k t) (Fails I) s := by
  have gameplay : mess.head.messageId ∈ [Msg.csChoseRole, Msg.csMove, Msg.csKill, Msg.csSkill] := by simp [use]
  unfold csChoseRole
  split
  · refine relay_spec hk st 0 (plays_member gameplay) (fun p plays h => ?_) h
    simp only [wp_bind, wp_pure]
    refine wp_post (Syn.getNowFrame_spec st (hk ▸ .plays plays) h) fun _ t ⟨ht, _, syn, hsyn⟩ => ?_
    subst hsyn
    have same : ∀ q, ((((s.log (.synUse p (s.room p).status)).tickSys 1).setRoom p { s.room p with syn }).room q).getPlayerId u =
        (s.room q).getPlayerId u :=
      Server.setRoom_congr (s := (s.log (.synUse p (s.room p).status)).tickSys 1) (f := fun r => r.getPlayerId u) rfl
    refine ⟨ht, ?_, by rw [same]; exact .choseRole⟩
    cases plays with
    | member gameplay belong player => exact .member gameplay belong (by rwa [same])
    | pause gameplay room player => exact .pause gameplay room (by rwa [same])
  · exact wp_throw_of h

theorem csMove_spec (st : Stable env base I) (use : mess.head.messageId = Msg.csMove) (h : I k s) :
    wp (csMove env u mess) (fun _ t => I k t) (Fails I) s := by
  unfold csMove
  split
  · exact relay_spec hk st 0 (plays_member (by simp [use])) (fun _ plays h => ⟨h, plays, .move⟩) h
  · exact wp_throw_of h

theorem csKill_spec (st : Stable env base I) (use : mess.head.messageId = Msg.csKill) (h : I k s) :
    wp (csKill env u mess) (fun _ t => I k t) (Fails I) s := by
  unfold csKill
  split
  · exact relay_spec hk st 0 (plays_member (by simp [use])) (fun _ plays h => ⟨h, plays, .kill⟩) h
  · exact wp_throw_of h

theorem csSkill_spec (st : Stable env base I) (use : mess.head.messageId = Msg.csSkill) (h : I k s) :
    wp (csSkill env u mess) (fun _ t => I k t) (Fails I) s := by
  unfold csSkill
  split
  · exact relay_spec hk st 0 (plays_member (by simp [use])) (fun _ plays h => ⟨h, plays, .skill⟩) h
  · exact wp_throw_of h

theorem csGamePause_spec (st : Stable env base I) (use : mess.head.messageId = Msg.csGamePause) (h : I k s) :
    wp (csGamePause env u mess) (fun _ t => I k t) (Fails I) s :=
  relay_spec hk st 1 (fun _ room player => .pause use room player) (fun _ plays h => ⟨h, plays, .pause⟩) h

theorem csGameEnd_spec (st : Stable env base I) (use : mess.head.messageId = Msg.csGameEnd) (h : I k s) :
    wp (csGameEnd env u) (fun _ t => I k t) (Fails I) s := by
  simp only [csGameEnd, wp_bind, wp_get, RoomManager.getRoomByUserId]
  split
  · exact h
  · rename_i p belong
    simp only [wp_bind, wp_discard, wp_pure]
    refine wp_post (Syn.getNowFrame_spec st (hk ▸ .gameEnd use belong) h) fun frame t ⟨ht, _⟩ => ?_
    refine wp_post (send_spec st hk _ .gameEnd ht) fun _ t' ht' => ?_
    simp only [RoomManager.gameEndFromRoom, wp_bind, wp_get]
    cases belong : t'.belongRoom[u]? with
    | none => exact ht'
    | some p =>
      simp only [wp_bind, wp_modify, Room.gameEnd, wp_getRoom, wp_log]
      split
      · rename_i status
        split
        · rename_i pos
          simp only [wp_bind, wp_modify, wp_pure, status]
          exact st.stay hk (.gameEnd belong status pos) ht'
        · rename_i pos
          exact st.stay hk (.gameEndFail belong (.inr (of_not_not pos))) ht'
      · rename_i status
        exact st.stay hk (.gameEndFail belong (.inl status)) ht'

end

end MP

end

end IslandSurvival
