import IslandSurvival.Lib.Wp
import IslandSurvival.Model.MessageHandler

/-! The server as a transition system. Between two points at which other code can run, a function of
    the server makes one of the moves below; what it still has to do is kept in frames, the innermost
    first. An invariant is proved once, over the moves, and then holds at the end of every call of the
    main loop (`Refine`). -/

namespace IslandSurvival

/-- An activation that waits for a call to return, or that is between two updates. -/
inductive Frame
  /-- `ProcessRequest` for a message of connection `fd` -/
  | handling (fd : Int) (user : Option Int) (mess : CMessage)
  /-- a turn of `RoomManager::OnTick`, with `rooms_` at its begin -/
  | ticking (id : Int) (p : RoomPtr) (rooms : Map RoomPtr)
  | expiring (fd : Int) (next : Option (Int × Int))
  /-- `SendMessageToEveryone` before turn `i`, and in the call of turn `i` -/
  | everyone (p : RoomPtr) (mess : CMessage) (i : Nat)
  | delivering (p : RoomPtr) (mess : CMessage) (i : Nat)
  /-- `SendMessageToClient` after a failed write -/
  | kick (userId fd : Int)
  /-- `DeleteClientByFD` after the connection is erased -/
  | drop (fd : Int)
  /-- `PlayerLogout` before `OnExit`, after it, and without the `Person` -/
  | logout (fd userId fd' : Int)
  | exited (fd userId fd' : Int)
  | forgotten (fd userId fd' : Int)
  /-- `DeletePlayer` after the slot is updated, in the three statuses; `sent` is whether its broadcast began -/
  | leaving (userId : Int) (p : RoomPtr) (sent : Bool)
  | exiting (p : RoomPtr) (pos : Nat) (sent : Bool)
  | quitting (p : RoomPtr) (pos : Nat)
  /-- `MP_CSPlayerExitRoom` with the room of its user -/
  | exitRequest (userId : Int) (p : RoomPtr)
  /-- `SendGameLoading` and `SendGameStart` -/
  | loadingUp (p : RoomPtr) (sent : Bool)
  | starting (p : RoomPtr) (sent : Bool)
  /-- the loop of `Room::OnTick` over the players that take too long -/
  | timeout (p : RoomPtr)
  | kickSlot (p : RoomPtr) (i : Nat)
  | running (p : RoomPtr)
  /-- `SendHeadFrameToAll`: before the test for an empty slot, then before message `i` -/
  | frame (p : RoomPtr) (f : Int) (i : Option Nat)
  | framed (p : RoomPtr)
  | casting (p : RoomPtr) (mess : CMessage) (sent : Bool)

/-- Why a connection may be deleted: a failed write, a player that takes too long to load, an event of
    the connection, or a missing heartbeat. -/
inductive MayDrop (s : Server) (fd : Int) : List Frame → Prop
  | kick {userId : Int} {k : List Frame} : MayDrop s fd (.kick userId fd :: k)
  | slot {p : RoomPtr} {i : Nat} {k : List Frame} (bound : s.userIdToFd[(s.room p).players i]? = some fd) :
      MayDrop s fd (.kickSlot p i :: k)
  | event : MayDrop s fd []
  | expire {next : Option (Int × Int)} : MayDrop s fd [.expiring fd next]

/-- A message that is sent to a whole room, and the activation that sends it, before and after. -/
inductive MayBroadcast (s : Server) (p : RoomPtr) : CMessage → Frame → Frame → Prop
  | changed {fd u : Int} {req : CMessage} (belong : s.belongRoom[u]? = some p) :
      MayBroadcast s p (Room.detailMessage p s) (.handling fd (some u) req) (.handling fd (some u) req)
  | joined {fd id : Int} {user : Option Int} {req : CMessage} (room : s.rooms[id]? = some p) :
      MayBroadcast s p (Room.detailMessage p s) (.handling fd user req) (.handling fd user req)
  | exit {userId result : Int} :
      MayBroadcast s p (MP.exitMessage result) (.exitRequest userId p) (.exitRequest userId p)
  | loadingUp {rand : Int} :
      MayBroadcast s p (.build Msg.scGameLoading (-1) (.scGameLoading rand)) (.loadingUp p false) (.loadingUp p true)
  | starting : MayBroadcast s p (.build Msg.scGameStart (-1) .scGameStart) (.starting p false) (.starting p true)
  | leaving {userId : Int} : MayBroadcast s p (Room.detailMessage p s) (.leaving userId p false) (.leaving userId p true)
  | exiting {pos : Nat} : MayBroadcast s p (Room.exitGameMessage pos (-1)) (.exiting p pos false) (.exiting p pos true)
  | casting {mess : CMessage} : MayBroadcast s p mess (.casting p mess false) (.casting p mess true)

/-- What the message processors send to a single client. -/
inductive Reply (s : Server) : CMessage → Prop
  | login {result : Int} : Reply s (.build Msg.scLogin (-1) (.scLogin result))
  | regist {result : Int} : Reply s (.build Msg.scRegist (-1) (.scRegist result))
  | rooms : Reply s (.build Msg.scPullAllRoomInfo (-1) (.scPullAllRoomInfo (RoomManager.getAllRoomInfo s)))
  | create {result : Bool} {roomId : Int} : Reply s (.build Msg.scCreateRoom (-1) (.scCreateRoom result roomId))
  | detail {roomId : Int} : Reply s (RoomManager.detailMessage roomId s)
  | join {result : JoinResult} : Reply s (.build Msg.scJoinRoom (-1) (.scJoinRoom result.code))
  | gameEnd {frame : Int} : Reply s (.build Msg.scGameEnd (.ofInt frame) .scGameEnd)

/-- The outcome of a login, which is sent to a connection and not to a user. -/
inductive Outcome : CMessage → Prop
  | login {result : Int} : Outcome (.build Msg.scLogin (-1) (.scLogin result))
  | regist {result : Int} : Outcome (.build Msg.scRegist (-1) (.scRegist result))

theorem Outcome.reply {s : Server} {mess : CMessage} (outcome : Outcome mess) : Reply s mess := by
  cases outcome with
  | login => exact .login
  | regist => exact .regist

/-- A message that is being sent to one client. But for the outcome of a login, `SendMessageToClient` has been called
    with it. -/
inductive MaySend (s : Server) (mess : CMessage) : List Frame → Prop
  | reply {fd userId : Int} {user : Option Int} {req : CMessage} (reply : Reply s mess)
      (called : s.trace.head? = some (.sendTo userId mess)) : MaySend s mess [.handling fd user req]
  | outcome {fd : Int} {user : Option Int} {req : CMessage} (outcome : Outcome mess) : MaySend s mess [.handling fd user req]
  | deliver {p : RoomPtr} {i : Nat} {k : List Frame} {userId : Int} (called : s.trace.head? = some (.sendTo userId mess)) :
      MaySend s mess (.delivering p mess i :: k)

/-- An activation in the middle of `SendMessageToClient` -/
inductive Sending : List Frame → Prop
  | reply {fd : Int} {user : Option Int} {req : CMessage} : Sending [.handling fd user req]
  | deliver {p : RoomPtr} {mess : CMessage} {i : Nat} {k : List Frame} : Sending (.delivering p mess i :: k)

theorem MaySend.sending {s : Server} {mess : CMessage} {k : List Frame} (may : MaySend s mess k) : Sending k := by
  cases may with
  | reply _ _ => exact .reply
  | outcome _ => exact .reply
  | deliver _ => exact .deliver

/-- The room whose ring a request is for -/
inductive Plays (s : Server) (u : Int) (mess : CMessage) (p : RoomPtr) : Prop
  | member (gameplay : mess.head.messageId ∈ [Msg.csChoseRole, Msg.csMove, Msg.csKill, Msg.csSkill])
      (belong : s.belongRoom[u]? = some p) (player : (s.room p).getPlayerId u ≠ 0)
  | pause (gameplay : mess.head.messageId = Msg.csGamePause) (room : s.rooms[u]? = some p)
      (player : (s.room p).getPlayerId u ≠ 0)

/-- Where `SYN::Add` and `SYN::GetNowFrame` of room `p` are called. -/
inductive MayUse (s : Server) (p : RoomPtr) : List Frame → Prop
  | quitting {pos : Nat} {k : List Frame} : MayUse s p (.quitting p pos :: k)
  | plays {fd u : Int} {mess : CMessage} (plays : Plays s u mess p) : MayUse s p [.handling fd (some u) mess]
  | gameEnd {fd u : Int} {mess : CMessage} (ends : mess.head.messageId = Msg.csGameEnd)
      (belong : s.belongRoom[u]? = some p) : MayUse s p [.handling fd (some u) mess]

/-- The messages that the gameplay requests of a player leave in the ring. -/
inductive Gameplay (playerId : Nat) : CMessage → Prop
  | choseRole {frame roleId : Int} : Gameplay playerId (.build Msg.scChoseRole (.ofInt frame) (.scChoseRole roleId playerId))
  | move {framenum : Int32} {dir : Int} : Gameplay playerId (.build Msg.scMove framenum (.scMove dir playerId))
  | kill {framenum : Int32} {killer bekilled : Int} :
      Gameplay playerId (.build Msg.scKill framenum (.scKill killer bekilled))
  | skill {framenum : Int32} {skillId targetId : Int} {posX posZ : UInt32} :
      Gameplay playerId (.build Msg.scSkill framenum (.scSkill skillId posX posZ targetId playerId))
  | pause {framenum : Int32} : Gameplay playerId (.build Msg.scGamePause framenum .scGamePause)

/-- `ProcessRequest` gets the user id where there is one, else the descriptor. -/
def loginArg (fd : Int) (user : Option Int) : Int := user.getD fd

/-- The state after a successful `AddPlayer`. -/
def Room.added (p : RoomPtr) (userId : Int) (s : Server) : Server :=
  let r := (s.room p).addSlot userId
  (PersonManager.changePersonStatus userId .inRoom (s.setRoom p r)).2.log (r.teamSet p r.playerCnt)

/-- The state after a successful `CreateRoom`. -/
def RoomManager.created (userId gameMode teamMode : Int) (s : Server) : Server :=
  let (p, roomId, s) := takeRoom s
  let s := { s with belongRoom := s.belongRoom.insert userId p, rooms := s.rooms.insert roomId p }
  Room.added p userId ((s.setRoom p ((s.room p).init gameMode teamMode roomId)).log (.roomInit p))

/-- The state after a successful `JoinRoom`. -/
def RoomManager.joined (userId : Int) (p : RoomPtr) (s : Server) : Server :=
  let s := Room.added p userId s
  { s with belongRoom := s.belongRoom.insert userId p }

/-- The update of `DeletePlayer` before it sends anything. -/
def Room.vacate (pos : Nat) (r : Room) : Room :=
  if r.status = .waiting then r.removeSlot pos else r.setOffline pos

/-- The state in `DeletePlayerFromRoom` when the slot of the user is updated. -/
def RoomManager.departed (userId : Int) (p : RoomPtr) (s : Server) : Server :=
  let pos := (s.room p).getPlayerId userId
  ({ s with belongRoom := s.belongRoom.erase userId }.setRoom p ((s.room p).vacate pos)).log
    (.leave p pos (s.room p).status)

/-- What `DeletePlayer` then still has to do. -/
def Room.departing (userId : Int) (p : RoomPtr) (r : Room) : Frame :=
  match r.status with
  | .waiting => .leaving userId p false
  | .loading => .exiting p (r.getPlayerId userId) false
  | .ingame => .quitting p (r.getPlayerId userId)

/-- The state after an accepted connection is entered, with the heartbeat second. -/
def accepted (c : SockPtr) (nowsec : Int) (s : Server) : Server :=
  let connfd := (s.sock c).iSockfd
  let s := { s with epoll := s.epoll.insert connfd, connects := s.connects.insert connfd c }.log (.accept connfd)
  if connfd ∈ s.fdToSec then s else Heartbeat.insert connfd nowsec (s.tickSys 1)

variable (env : Env)

/-- The moves. A frame list of the form `k` is arbitrary; top-level moves have `[]`. -/
inductive Step : List Frame → Server → List Frame → Server → Prop
  -- anywhere
  | sys {k s} (n : Nat) : Step k s k (s.tickSys n)
  | query {k s} (sql : Bytes) (n : Nat) (answer : QueryAnswer) : Step k s k (s.log (.query sql n answer))
  | write {k s fd c mess out} (conn : s.connects[fd]? = some c) (len : (CMessage.encode env.pb mess).length ≤ maxMessageLen)
      (sent : (s.sock c).sendData (fun n => env.send (s.sys + n)) (CMessage.encode env.pb mess) = .ok out) :
      Step k s k (((s.setSock c out.sock).tickSys out.calls).log (.write fd (CMessage.encode env.pb mess) out.taken out.status))
  | overrun {k s fd c mess} (conn : s.connects[fd]? = some c) (may : MaySend s mess k)
      (long : maxMessageLen < (CMessage.encode env.pb mess).length) : Step k s k (s.log (.overrun fd mess))
  -- a client is deleted
  | kick {k s userId fd} (sending : Sending k) (bound : s.userIdToFd[userId]? = some fd) :
      Step k s (.kick userId fd :: k) (s.log (.writeError userId fd))
  | kicked {k s userId fd} : Step (.kick userId fd :: k) s k s
  | drop {k s fd c} (may : MayDrop s fd k) (conn : s.connects[fd]? = some c) :
      Step k s (.drop fd :: k) (dropConnection fd c s)
  | dropAnon {k s fd} (anon : s.fdToUserId[fd]? = none) : Step (.drop fd :: k) s k s
  | dropStale {k s fd userId} (user : s.fdToUserId[fd]? = some userId) (stale : s.userIdToFd[userId]? = none) :
      Step (.drop fd :: k) s k s
  | logout {k s fd userId fd'} (user : s.fdToUserId[fd]? = some userId) (bound : s.userIdToFd[userId]? = some fd') :
      Step (.drop fd :: k) s (.logout fd userId fd' :: k) { s with userIdToFd := s.userIdToFd.erase userId }
  | noPerson {k s fd userId fd'} (none : s.persons[userId]? = none) :
      Step (.logout fd userId fd' :: k) s (.forgotten fd userId fd' :: k) s
  | inHall {k s fd userId fd' person} (some : s.persons[userId]? = some person) (hall : person.status = .inHall) :
      Step (.logout fd userId fd' :: k) s (.exited fd userId fd' :: k) s
  | notBound {k s fd userId fd' person} (some : s.persons[userId]? = some person) (room : person.status = .inRoom)
      (none : s.belongRoom[person.userId]? = none) :
      Step (.logout fd userId fd' :: k) s (.exited fd userId fd' :: k) s
  | notInRoom {k s fd userId fd' person p} (some : s.persons[userId]? = some person) (room : person.status = .inRoom)
      (belong : s.belongRoom[person.userId]? = .some p) (pos : (s.room p).getPlayerId person.userId = 0) :
      Step (.logout fd userId fd' :: k) s (.exited fd userId fd' :: k)
        { s with belongRoom := s.belongRoom.erase person.userId }
  | leave {k s fd userId fd' person p} (some : s.persons[userId]? = some person) (room : person.status = .inRoom)
      (belong : s.belongRoom[person.userId]? = .some p) (pos : (s.room p).getPlayerId person.userId ≠ 0) :
      Step (.logout fd userId fd' :: k) s ((s.room p).departing person.userId p :: .exited fd userId fd' :: k)
        (RoomManager.departed person.userId p s)
  | forget {k s fd userId fd'} :
      Step (.exited fd userId fd' :: k) s (.forgotten fd userId fd' :: k) { s with persons := s.persons.erase userId }
  | logoutDone {k s fd userId fd'} :
      Step (.forgotten fd userId fd' :: k) s k { s with fdToUserId := s.fdToUserId.erase fd' }
  -- a player leaves a room
  | left {k s userId p} : Step (.leaving userId p true :: k) s k (PersonManager.changePersonStatus userId .inHall s).2
  | uncount {k s p pos} (loaded : (s.room p).isLoadingSucceed pos = true) :
      Step (.exiting p pos true :: k) s k (s.setRoom p ((s.room p).unloadSlot pos))
  | exited {k s p pos} (unloaded : (s.room p).isLoadingSucceed pos = false)
      (waits : (s.room p).loadingSucceedCnt < (s.room p).onlinePlayerCnt ∨ (s.room p).status ≠ .loading) :
      Step (.exiting p pos true :: k) s k
        (s.log (.leaveCheck p (s.room p).overcounted ((s.room p).loadingSucceedCnt ≥ (s.room p).onlinePlayerCnt)))
  | exitStart {k s p pos} (unloaded : (s.room p).isLoadingSucceed pos = false)
      (all : (s.room p).onlinePlayerCnt ≤ (s.room p).loadingSucceedCnt) (status : (s.room p).status = .loading) :
      Step (.exiting p pos true :: k) s (.starting p false :: k)
        (s.log (.leaveCheck p (s.room p).overcounted ((s.room p).loadingSucceedCnt ≥ (s.room p).onlinePlayerCnt)))
  | quit {k s p pos now syn slot}
      (add : (s.room p).syn.add now (Room.exitGameMessage pos (.ofInt (s.room p).syn.nowFrame)) = .ok (syn, slot)) :
      Step (.quitting p pos :: k) s k
        ((s.setRoom p { s.room p with syn }).log
          (.synAdd p (Room.exitGameMessage pos (.ofInt (s.room p).syn.nowFrame)) slot))
  -- a broadcast
  | everyone {k s p mess f f'} (may : MayBroadcast s p mess f f') :
      Step (f :: k) s (.everyone p mess 1 :: f' :: k) (s.log (.broadcast p mess))
  | skipSlot {k s p mess i} (le : i ≤ (s.room p).playerCnt) (offline : (s.room p).isOnline i = false) :
      Step (.everyone p mess i :: k) s (.everyone p mess (i + 1) :: k) s
  | deliver {k s p mess i} (le : i ≤ (s.room p).playerCnt) (online : (s.room p).isOnline i = true) :
      Step (.everyone p mess i :: k) s (.delivering p mess i :: k)
        ((s.log (.deliver p i mess)).log (.sendTo ((s.room p).players i) mess))
  | delivered {k s p mess i} : Step (.delivering p mess i :: k) s (.everyone p mess (i + 1) :: k) s
  | everyoneEnd {k s p mess i} (gt : (s.room p).playerCnt < i) : Step (.everyone p mess i :: k) s k s
  -- the begin of a game
  | loadBegin {s fd u mess p} (belong : s.belongRoom[u]? = some p) (status : (s.room p).status = .waiting)
      (owner : (s.room p).getPlayerId u = 1) :
      Step [.handling fd (some u) mess] s [.loadingUp p false, .handling fd (some u) mess] s
  | load {s fd user mess p} (now : Int) :
      Step [.loadingUp p true, .handling fd user mess] s [.handling fd user mess]
        ((s.setRoom p ((s.room p).startLoading now)).log (.gameLoading p now))
  | loadReport {s fd u mess p} (belong : s.belongRoom[u]? = some p) (status : (s.room p).status = .loading)
      (pos : (s.room p).getPlayerId u ≠ 0) (unloaded : (s.room p).isLoadingSucceed ((s.room p).getPlayerId u) = false)
      (waits : (s.room p).loadingSucceedCnt + 1 < (s.room p).onlinePlayerCnt) :
      Step [.handling fd (some u) mess] s [.handling fd (some u) mess]
        ((s.setRoom p ((s.room p).loadSlot ((s.room p).getPlayerId u))).log (.loadReport p ((s.room p).getPlayerId u)))
  | reportStart {s fd u mess p} (belong : s.belongRoom[u]? = some p) (status : (s.room p).status = .loading)
      (pos : (s.room p).getPlayerId u ≠ 0) (unloaded : (s.room p).isLoadingSucceed ((s.room p).getPlayerId u) = false)
      (all : (s.room p).onlinePlayerCnt ≤ (s.room p).loadingSucceedCnt + 1) :
      Step [.handling fd (some u) mess] s [.starting p false, .handling fd (some u) mess]
        ((s.setRoom p ((s.room p).loadSlot ((s.room p).getPlayerId u))).log (.loadReport p ((s.room p).getPlayerId u)))
  | timeout {s id p rooms now} (status : (s.room p).status = .loading)
      (late : maxLoadingTimeSecond ≤ now - (s.room p).loadingTimeSecond) :
      Step [.ticking id p rooms] s [.timeout p, .ticking id p rooms] (s.log (.loadTimeout p now))
  | kickSlot {k s p i} (le : i ≤ (s.room p).playerCnt) (online : (s.room p).isOnline i = true)
      (unloaded : (s.room p).isLoadingSucceed i = false) :
      Step (.timeout p :: k) s (.kickSlot p i :: .timeout p :: k) s
  | kickedSlot {k s p i} : Step (.kickSlot p i :: k) s k s
  | timeoutStart {k s p} (status : (s.room p).status = .loading) : Step (.timeout p :: k) s (.starting p false :: k) s
  | timeoutEnd {k s p} (status : (s.room p).status ≠ .loading) : Step (.timeout p :: k) s k s
  | start {k s p} (now now' : Int) :
      Step (.starting p true :: k) s k
        ((s.setRoom p ((s.room p).startGame now now')).log (.gameStart p (s.room p).unreported))
  -- the ring
  | synUse {k s p} (may : MayUse s p k) : Step k s k (s.log (.synUse p (s.room p).status))
  | updateTime {k s} (p : RoomPtr) (now : Int) :
      Step k s k (s.setRoom p { s.room p with syn := (s.room p).syn.updateTime now })
  | relay {s fd u mess p now reply syn slot} (plays : Plays s u mess p) (gameplay : Gameplay ((s.room p).getPlayerId u) reply)
      (add : (s.room p).syn.add now reply = .ok (syn, slot)) :
      Step [.handling fd (some u) mess] s [.handling fd (some u) mess]
        ((s.setRoom p { s.room p with syn }).log (.synAdd p reply slot))
  | runBegin {s id p rooms} (now : Int) (status : (s.room p).status = .ingame) :
      Step [.ticking id p rooms] s [.running p, .ticking id p rooms]
        (s.setRoom p { s.room p with syn := (s.room p).syn.updateTime now })
  | frameBegin {k s p} (due : (s.room p).syn.due = .ok true) :
      Step (.running p :: k) s (.frame p (s.room p).syn.headFrame none :: .running p :: k)
        (s.log (.frameBegin p (s.room p).syn.headFrame))
  | castEmpty {k s p f h} (head : Syn.slot (s.room p).syn.head = .ok h) (empty : ((s.room p).syn.oneframe h).num = 0) :
      Step (.frame p f none :: k) s
        (.casting p (.build Msg.scFrameMess (.ofInt (s.room p).syn.headFrame) (.scFrameMess 0)) false :: .frame p f (some 0) :: k)
        (s.log (.synSend p (.build Msg.scFrameMess (.ofInt (s.room p).syn.headFrame) (.scFrameMess 0))))
  | castNone {k s p f h} (head : Syn.slot (s.room p).syn.head = .ok h) (filled : ((s.room p).syn.oneframe h).num ≠ 0) :
      Step (.frame p f none :: k) s (.frame p f (some 0) :: k) s
  | cast {k s p f h i m} (head : Syn.slot (s.room p).syn.head = .ok h)
      (mess : ((s.room p).syn.oneframe h).mess[i]? = some m) :
      Step (.frame p f (some i) :: k) s
        (.casting p (m.setFramenum (s.room p).syn.headFrame) false :: .frame p f (some (i + 1)) :: k)
        ((s.setRoom p { s.room p with syn := (s.room p).syn.stamp h i }).log
          (.synSend p (m.setFramenum (s.room p).syn.headFrame)))
  | castDone {k s p mess} : Step (.casting p mess true :: k) s k (s.log (.synSent p))
  | frameEnd {k s p f h i} (head : Syn.slot (s.room p).syn.head = .ok h)
      (none : ((s.room p).syn.oneframe h).mess[i]? = none) :
      Step (.frame p f (some i) :: k) s (.framed p :: k)
        ((s.setRoom p { s.room p with syn := (s.room p).syn.clear h }).log (.frameEnd p f))
  | advance {k s p syn} (next : (s.room p).syn.advance = .ok syn) :
      Step (.framed p :: k) s k (s.setRoom p { s.room p with syn })
  | runEnd {k s p} : Step (.running p :: k) s k s
  -- requests
  | request {s fd c} (mess : CMessage) (conn : s.connects[fd]? = some c) :
      Step [] s [.handling fd s.fdToUserId[fd]? mess] (s.log (.request fd s.fdToUserId[fd]? mess))
  | reply {s fd user req} (userId : Int) {mess : CMessage} (reply : Reply s mess) :
      Step [.handling fd user req] s [.handling fd user req] (s.log (.sendTo userId mess))
  | handled {s fd user mess} : Step [.handling fd user mess] s [] s
  | enter {s t fd user mess userId name c} (conn : s.connects[fd]? = some c) (bound : s.fdToUserId[fd]? = user)
      (login : mess.head.messageId = Msg.csLogin ∨ mess.head.messageId = Msg.csRegist)
      (person : PersonManager.personLogin userId name s = (.success, t)) :
      Step [.handling fd user mess] s [.handling fd user mess] (playerLogin (loginArg fd user) userId t).2
  | heartbeat {s t fd user mess} (nowsec : Int) (old : Heartbeat.erase fd s = (.success, t)) :
      Step [.handling fd user mess] s [.handling fd user mess] (Heartbeat.insert fd nowsec (t.tickSys 1))
  | create {s fd u mess} (gameMode teamMode : Int) (first : s.trace.head? = some (.request fd (some u) mess))
      (bound : s.fdToUserId[fd]? = some u) (free : u ∉ s.belongRoom) :
      Step [.handling fd (some u) mess] s [.handling fd (some u) mess] (RoomManager.created u gameMode teamMode s)
  | join {s fd u mess p} {id : Int} (first : s.trace.head? = some (.request fd (some u) mess))
      (bound : s.fdToUserId[fd]? = some u) (room : s.rooms[id]? = some p) (free : u ∉ s.belongRoom)
      (status : (s.room p).status = .waiting) (cnt : (s.room p).playerCnt < maxPlayerCnt) :
      Step [.handling fd (some u) mess] s [.handling fd (some u) mess] (RoomManager.joined u p s)
  | exitBegin {s fd u mess p} (belong : s.belongRoom[u]? = some p) :
      Step [.handling fd (some u) mess] s [.exitRequest u p, .handling fd (some u) mess] s
  | exitMissing {k s u p} (belong : s.belongRoom[u]? = some p) (status : (s.room p).status = .waiting)
      (pos : (s.room p).getPlayerId u = 0) :
      Step (.exitRequest u p :: k) s (.exitRequest u p :: k) { s with belongRoom := s.belongRoom.erase u }
  | exitRoom {k s u p} (belong : s.belongRoom[u]? = some p) (status : (s.room p).status = .waiting)
      (pos : (s.room p).getPlayerId u ≠ 0) :
      Step (.exitRequest u p :: k) s (.leaving u p false :: .exitRequest u p :: k) (RoomManager.departed u p s)
  | exitEnd {k s u p} : Step (.exitRequest u p :: k) s k s
  | change {s fd u mess p} (teamId gameOption : Option Int) (belong : s.belongRoom[u]? = some p)
      (status : (s.room p).status = .waiting) :
      Step [.handling fd (some u) mess] s [.handling fd (some u) mess]
        ((s.setRoom p (MP.applyChange u teamId gameOption (s.room p))).log
          ((MP.applyChange u teamId gameOption (s.room p)).teamSet p ((s.room p).getPlayerId u)))
  | gameEnd {s fd u mess p} (belong : s.belongRoom[u]? = some p) (status : (s.room p).status = .ingame)
      (pos : (s.room p).getPlayerId u ≠ 0) :
      Step [.handling fd (some u) mess] s [.handling fd (some u) mess]
        (PersonManager.changePersonStatus u .inHall
          (({ s with belongRoom := s.belongRoom.erase u }.log (.gameEnd u p .ingame)).setRoom p
            ((s.room p).setOffline ((s.room p).getPlayerId u)))).2
  | gameEndFail {s fd u mess p} (belong : s.belongRoom[u]? = some p)
      (fails : (s.room p).status ≠ .ingame ∨ (s.room p).getPlayerId u = 0) :
      Step [.handling fd (some u) mess] s [.handling fd (some u) mess]
        ({ s with belongRoom := s.belongRoom.erase u }.log (.gameEnd u p (s.room p).status))
  -- the main loop
  | tickBegin {s p} {id : Int} (room : s.rooms[id]? = some p) : Step [] s [.ticking id p s.rooms] s
  | recycle {s id p rooms} (empty : (s.room p).onlinePlayerCnt ≤ 0) :
      Step [.ticking id p rooms] s []
        ({ s with freeRoom := s.freeRoom ++ [p], rooms := s.rooms.erase id }.log (.recycle p (s.room p).onlineSlots))
  | tickEnd {s id p rooms} (stays : 0 < (s.room p).onlinePlayerCnt) : Step [.ticking id p rooms] s [] s
  | presec {s} (nowsec : Int) : Step [] s [] { s with presec := nowsec }
  | expire {s sec fd nowsec} (mem : (sec, fd) ∈ s.secFd) (late : 40 < nowsec - sec) :
      Step [] s [.expiring fd (Heartbeat.next s.secFd (sec, fd))] (s.log (.expire fd (Heartbeat.next s.secFd (sec, fd))))
  | expired {s fd next} : Step [.expiring fd next] s [] s
  | epoll {s} (ev : EpollEvent) : Step [] s [] (s.log (.epoll ev))
  | acceptFail {s c s' ret t} (sock : getFreeTcpSocket s = (c, s')) (acc : acceptClient env c s' = (ret, t))
      (fails : ret ≠ .success) : Step [] s [] { t with freeConns := t.freeConns ++ [c] }
  | acceptLost {s c s' t} (sock : getFreeTcpSocket s = (c, s')) (acc : acceptClient env c s' = (.success, t))
      (used : (t.sock c).iSockfd ∈ t.fdToUserId) : Step [] s [] t
  | accept {s c s' t} (nowsec : Int) (sock : getFreeTcpSocket s = (c, s')) (acc : acceptClient env c s' = (.success, t))
      (free : (t.sock c).iSockfd ∉ t.fdToUserId) : Step [] s [] (accepted c nowsec t)
  | recv {s fd c out} (conn : s.connects[fd]? = some c)
      (got : (s.sock c).recvData (fun n => env.recv (s.sys + n)) = .ok out) :
      Step [] s [] (((s.setSock c out.sock).tickSys out.calls).log (.recv fd out.received))
  | extract {s fd c data sock} (conn : s.connects[fd]? = some c)
      (got : (s.sock c).getOneMessage maxMessageLen = (.success, data, sock)) :
      Step [] s [] ({ s.setSock c sock with recvData := Memory.write s.recvData 0 data }.log (.extract fd data))

/-- The configurations that the server can be in at any moment of a run. -/
inductive Config : List Frame → Server → Prop
  | boot {s} (booted : s.Booted) : Config [] s
  | step {k s k' s'} (reached : Config k s) (move : Step env k s k' s') : Config k' s'

end IslandSurvival
