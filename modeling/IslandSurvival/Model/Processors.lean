import IslandSurvival.Model.RoomManager
import IslandSurvival.Model.Login

/-! The message processors `MP_*`. The argument of `ProcessRequest` is a descriptor for `CSLogin`,
    `CSRegist` and `CSHeartbeat`, and a user id for all others. -/

namespace IslandSurvival

/-- `PlayerLogin` -/
def playerLogin (fd userId : Int) (s : Server) : Ret × Server :=
  match s.userIdToFd[userId]? with
  | none =>
    (.success, { s with
      fdToUserId := s.fdToUserId.insert fd userId
      userIdToFd := s.userIdToFd.insert userId fd }.log (.playerLogin fd userId))
  | some _ => (.fail, s)

namespace MP

section
variable (env : Env)

/-- `SERVERFRAME->SendMessageToClient` -/
def send (userId : Int) (mess : CMessage) : M Unit :=
  discard (sendMessageToClient env (deleteClientByFd env) userId mess)

/-- `SERVERFRAME->SendMessageByConnfd` -/
def sendByConnfd (fd : Int) (mess : CMessage) : M Unit := discard (sendMessageByConnfd env fd mess)

/-- `Room::SendMessageToEveryone` -/
def sendToRoom (p : RoomPtr) (mess : CMessage) : M Unit :=
  Room.sendMessageToEveryone env (deleteClientByFd env) p mess

/-! ## Login -/

/-- What `MP_CSLogin` and `MP_CSRegist` do with the outcome of their database request; `reply` is the
    response message with a result code. -/
def enter (fd : Int) (id : Bytes) (reply : Int → CMessage) (outcome : LoginResult × Int) : M Unit := do
  match outcome with
  | (.loginSucceed, userId) | (.registSucceed, userId) =>
    match PersonManager.personLogin userId id (← get) with
    | (.success, s) =>
      set s
      modify fun s => (playerLogin fd userId s).2
      send env userId (reply 2)
    | _ => sendByConnfd env fd (reply 3)
  | (.loginFailed, _) | (.registUsed, _) => sendByConnfd env fd (reply 0)
  | (.dbError, _) => sendByConnfd env fd (reply 1)

def csLogin (fd : Int) (mess : CMessage) : M Int := do
  match mess.proto with
  | some (.csLogin id passwd) =>
    let outcome ← Login.loginRequest env id passwd
    enter env fd id (fun result => .build Msg.scLogin (-1) (.scLogin result)) outcome
    return 0
  | _ => throw .badCast

def csRegist (fd : Int) (mess : CMessage) : M Int := do
  match mess.proto with
  | some (.csRegist id passwd) =>
    let outcome ← Login.newUserRegist env id passwd
    enter env fd id (fun result => .build Msg.scRegist (-1) (.scRegist result)) outcome
    return 0
  | _ => throw .badCast

def csHeartbeat (fd : Int) : M Int := do
  Heartbeat.updateFd env fd
  return 1

/-! ## Rooms -/

def csPullAllRoomInfo (userId : Int) : M Int := do
  let s ← get
  send env userId (.build Msg.scPullAllRoomInfo (-1) (.scPullAllRoomInfo (RoomManager.getAllRoomInfo s)))
  return 0

def csCreateRoom (userId : Int) (mess : CMessage) : M Int := do
  match mess.proto with
  | some (.csCreateRoom gameMode teamMode) =>
    match ← RoomManager.createRoom userId gameMode teamMode with
    | (.success, roomId) =>
      send env userId (.build Msg.scCreateRoom (-1) (.scCreateRoom true roomId))
      send env userId (RoomManager.detailMessage roomId (← get))
      return 0
    | (_, roomId) =>
      send env userId (.build Msg.scCreateRoom (-1) (.scCreateRoom false roomId))
      return 0
  | _ => throw .badCast

def csJoinRoom (userId : Int) (mess : CMessage) : M Int := do
  match mess.proto with
  | some (.csJoinRoom roomId) =>
    let result ← RoomManager.joinRoom userId roomId
    if result = .joinRoomErrorFail then
      return 0
    else
      send env userId (.build Msg.scJoinRoom (-1) (.scJoinRoom result.code))
      if result = .addPlayerSucceed then
        let s ← get
        match RoomManager.getRoomByRoomId s roomId with
        | none => throw .nullPointer
        | some p =>
          sendToRoom env p (RoomManager.detailMessage roomId s)
          return 0
      else
        return 0
  | _ => throw .badCast

/-- The result field is 1 for success and 0 for failure. -/
def exitMessage (result : Int) : CMessage := .build Msg.scPlayerExitRoom (-1) (.scPlayerExitRoom result)

def csPlayerExitRoom (userId : Int) : M Int := do
  match RoomManager.getRoomByUserId (← get) userId with
  | none => throw .nullPointer
  | some p =>
    if (← getRoom p).status = .waiting then
      let ret ← RoomManager.deletePlayerFromRoom env (deleteClientByFd env) userId
      sendToRoom env p (exitMessage (if ret = .success then 1 else 0))
      return 0
    else
      sendToRoom env p (exitMessage 0)
      return 0

/-- The change that a `CSChangeTeam` asks for; a team id takes precedence over a game option. -/
def applyChange (userId : Int) (teamId gameOption : Option Int) (r : Room) : Room :=
  match teamId, gameOption with
  | some teamId, _ => (r.changeTeamId userId teamId).2
  | none, some gameOption => (r.changeGameOption userId gameOption).2
  | none, none => r

def csChangeTeam (userId : Int) (mess : CMessage) : M Int := do
  match mess.proto with
  | some (.csChangeTeam teamId gameOption) =>
    match RoomManager.getRoomByUserId (← get) userId with
    | none => return 1
    | some p =>
      if (← getRoom p).status ≠ .waiting then
        return 1
      else
        modify fun s =>
          let r := applyChange userId teamId gameOption (s.room p)
          (s.setRoom p r).log (r.teamSet p ((s.room p).getPlayerId userId))
        sendToRoom env p (Room.detailMessage p (← get))
        return 0
  | _ => throw .badCast

/-! ## Loading -/

def csReadyToStart (userId : Int) : M Int := do
  match RoomManager.getRoomByUserId (← get) userId with
  | none => return 1
  | some p =>
    if (← getRoom p).getPlayerId userId ≠ 1 then
      return 1
    else
      Room.sendGameLoading env (deleteClientByFd env) p
      return 0

def csLoadSucceed (userId : Int) : M Int := do
  match RoomManager.getRoomByUserId (← get) userId with
  | none => return 0
  | some p =>
    if (← getRoom p).status = .loading then
      if ← Room.addLoadingSucceed env p userId then
        Room.sendGameStart env (deleteClientByFd env) p
        return 1
      else
        return 1
    else
      return 1

/-! ## The game -/

/-- The common part of the gameplay requests: `reply` is built for the player's slot and added to the
    ring of the room. -/
def relay (room : Server → Option RoomPtr) (failed : Int) (userId : Int)
    (reply : RoomPtr → Nat → M CMessage) : M Int := do
  match room (← get) with
  | none => return failed
  | some p =>
    let playerId := (← getRoom p).getPlayerId userId
    if playerId = 0 then
      return failed
    else
      let newmess ← reply p playerId
      Syn.addTo env p newmess
      return 1

def csChoseRole (userId : Int) (mess : CMessage) : M Int := do
  match mess.proto with
  | some (.csChoseRole roleId) =>
    relay env (RoomManager.getRoomByUserId · userId) 0 userId fun p playerId => do
      let frame ← Syn.getNowFrame env p
      return .build Msg.scChoseRole (.ofInt frame) (.scChoseRole roleId playerId)
  | _ => throw .badCast

def csMove (userId : Int) (mess : CMessage) : M Int := do
  match mess.proto with
  | some (.csMove dir) =>
    relay env (RoomManager.getRoomByUserId · userId) 0 userId fun _ playerId =>
      return .build Msg.scMove mess.head.framenum (.scMove dir playerId)
  | _ => throw .badCast

def csKill (userId : Int) (mess : CMessage) : M Int := do
  match mess.proto with
  | some (.csKill killer bekilled) =>
    relay env (RoomManager.getRoomByUserId · userId) 0 userId fun _ _ =>
      return .build Msg.scKill mess.head.framenum (.scKill killer bekilled)
  | _ => throw .badCast

def csSkill (userId : Int) (mess : CMessage) : M Int := do
  match mess.proto with
  | some (.csSkill skillId posX posZ targetId) =>
    relay env (RoomManager.getRoomByUserId · userId) 0 userId fun _ playerId =>
      return .build Msg.scSkill mess.head.framenum (.scSkill skillId posX posZ targetId playerId)
  | _ => throw .badCast

/-- `MP_CSGamePause` looks the room up by the user id taken as a room number. -/
def csGamePause (userId : Int) (mess : CMessage) : M Int :=
  relay env (RoomManager.getRoomByRoomId · userId) 1 userId fun _ _ =>
    return .build Msg.scGamePause mess.head.framenum .scGamePause

def csGameEnd (userId : Int) : M Int := do
  match RoomManager.getRoomByUserId (← get) userId with
  | none => return 0
  | some p =>
    let frame ← Syn.getNowFrame env p
    send env userId (.build Msg.scGameEnd (.ofInt frame) .scGameEnd)
    discard (RoomManager.gameEndFromRoom userId)
    return 1

end

end MP

end IslandSurvival
