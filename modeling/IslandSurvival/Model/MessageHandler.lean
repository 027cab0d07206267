import IslandSurvival.Model.Processors

/-! `MessageProcessorRegister`, the event loop of `MessageHandler`, and `main`. -/

namespace IslandSurvival

/-! ## The register -/

/-- `m_proto_type` and `m_processor`; a processor is named by the class of its requests. -/
structure Register where
  protoType : Int32 → Option PBType
  processor : Int32 → Option PBType

namespace Register

def empty : Register := { protoType := fun _ => none, processor := fun _ => none }

def registMessage (id : Int32) (pb : PBType) (reg : Register) : Register :=
  if (reg.protoType id).isSome then reg else { reg with protoType := Function.update reg.protoType id (some pb) }

def registProcessor (id : Int32) (processor : PBType) (reg : Register) : Register :=
  if (reg.processor id).isSome then
    reg
  else
    { reg with processor := Function.update reg.processor id (some processor) }

/-- `REGISTE_MESSAGE_ID` -/
def registeMessageId (use : Int32 × PBType) (reg : Register) : Register :=
  (reg.registMessage use.1 use.2).registProcessor use.1 use.2

/-- The uses of the macro in the processors' files. -/
def uses : List (Int32 × PBType) :=
  [(Msg.csLogin, .csLogin), (Msg.csRegist, .csRegist), (Msg.csHeartbeat, .csHeartbeat),
    (Msg.csPullAllRoomInfo, .csPullAllRoomInfo), (Msg.csCreateRoom, .csCreateRoom),
    (Msg.csJoinRoom, .csJoinRoom), (Msg.csPlayerExitRoom, .csPlayerExitRoom),
    (Msg.csChangeTeam, .csChangeTeam), (Msg.csReadyToStart, .csReadyToStart),
    (Msg.csLoadSucceed, .csLoadSucceed), (Msg.csChoseRole, .csChoseRole), (Msg.csMove, .csMove),
    (Msg.csKill, .csKill), (Msg.csSkill, .csSkill), (Msg.csGamePause, .csGamePause),
    (Msg.csGameEnd, .csGameEnd)]

/-- The register when `main` starts. -/
@[irreducible] def boot : Register := uses.foldl (fun reg use => reg.registeMessageId use) empty

def createMessage (id : Int32) (reg : Register) : Option PBType := reg.protoType id

end Register

/-- `ParseStrToMessage`; the number is read from the bytes before the length is checked. -/
def parseStrToMessage (pb : Protobuf) (data : Nat → UInt8) (size : Nat) : Option CMessage :=
  CMessage.decode pb (Register.boot.createMessage (ntohl data 4).toInt32) data size

section
variable (env : Env)

/-- `ProcessRequest` of the register. -/
def processRequest (userId : Int) (mess : CMessage) : M Int :=
  match Register.boot.processor mess.head.messageId with
  | none => throw .nullPointer
  | some .csLogin => MP.csLogin env userId mess
  | some .csRegist => MP.csRegist env userId mess
  | some .csHeartbeat => MP.csHeartbeat env userId
  | some .csPullAllRoomInfo => MP.csPullAllRoomInfo env userId
  | some .csCreateRoom => MP.csCreateRoom env userId mess
  | some .csJoinRoom => MP.csJoinRoom env userId mess
  | some .csPlayerExitRoom => MP.csPlayerExitRoom env userId
  | some .csChangeTeam => MP.csChangeTeam env userId mess
  | some .csReadyToStart => MP.csReadyToStart env userId
  | some .csLoadSucceed => MP.csLoadSucceed env userId
  | some .csChoseRole => MP.csChoseRole env userId mess
  | some .csMove => MP.csMove env userId mess
  | some .csKill => MP.csKill env userId mess
  | some .csSkill => MP.csSkill env userId mess
  | some .csGamePause => MP.csGamePause env userId mess
  | some .csGameEnd => MP.csGameEnd env userId

/-! ## `ReceiveMessage` -/

/-- The kernel hands out only descriptors that are not open. -/
def kernelAccept (s : Server) : Option Int :=
  match env.accept s.sys with
  | none => none
  | some fd => if 0 ≤ fd ∧ fd ∉ s.openFds then some fd else none

/-- `GetFreeTcpSocket` -/
def getFreeTcpSocket (s : Server) : SockPtr × Server :=
  match s.freeConns with
  | c :: rest => (c, { s with freeConns := rest }.setSock c (s.sock c).init)
  | [] => (s.sockCnt, { s with sockCnt := s.sockCnt + 1 }.setSock s.sockCnt (s.sock s.sockCnt).init)

/-- `TcpSocket::AcceptClient` -/
def acceptClient (c : SockPtr) (s : Server) : Ret × Server :=
  match kernelAccept env s with
  | none => (.error, (s.setSock c { s.sock c with iSockfd := -1 }).tickSys 1)
  | some fd =>
    let nonBlock := env.setNonBlock (s.sys + 1)
    let sock := { s.sock c with iSockfd := fd, isUsing := nonBlock }
    (if nonBlock then .success else .error,
      { s.setSock c sock with openFds := s.openFds.insert fd }.tickSys 2)

/-- A new client is waiting on the listening socket. -/
def acceptNew : M Unit := do
  let (c, s) := getFreeTcpSocket (← get)
  match acceptClient env c s with
  | (.success, s) =>
    set s
    let connfd := (s.sock c).iSockfd
    if connfd ∈ s.fdToUserId then
      return ()
    else
      set ({ s with epoll := s.epoll.insert connfd, connects := s.connects.insert connfd c }.log (.accept connfd))
      Heartbeat.initFd env connfd
  | (_, s) => set { s with freeConns := s.freeConns ++ [c] }

/-- `RecvData` on the connection of `fd`. -/
def recvData (fd : Int) (c : SockPtr) : M ReadStatus := do
  let s ← get
  let out ← guarded ((s.sock c).recvData fun n => env.recv (s.sys + n))
  set (((s.setSock c out.sock).tickSys out.calls).log (.recv fd out.received))
  return out.status

/-- `ProcessRequest` for a message of connection `fd`: with `fd` for a heartbeat and for a login on a
    connection without user, else with the user id. -/
def dispatch (fd : Int) (mess : CMessage) : M Unit := do
  let user := (← get).fdToUserId[fd]?
  let request (arg : Int) : M Unit := do
    log (.request fd user mess)
    discard (processRequest env arg mess)
  if mess.head.messageId = Msg.csHeartbeat then
    request fd
  else
    match user with
    | none =>
      if mess.head.messageId = Msg.csLogin ∨ mess.head.messageId = Msg.csRegist then request fd else return ()
    | some userId => request userId

/-- `m_connects[fd]->get_one_message(recv_data_, ...)`, with the size of the message -/
def extractMessage (fd : Int) : M (Option Nat) := do
  let s ← get
  match s.connects[fd]? with
  | none => throw (.nullSocket fd)
  | some c =>
    match (s.sock c).getOneMessage maxMessageLen with
    | (.success, data, sock) =>
      set ({ s.setSock c sock with recvData := Memory.write s.recvData 0 data }.log (.extract fd data))
      return some data.length
    | _ => return none

/-- The body of the message loop; a message that cannot be parsed does not count. -/
def handleMessage (fd : Int) (size : Nat) : M Nat := do
  match parseStrToMessage env.pb (← get).recvData size with
  | none => return 0
  | some mess =>
    dispatch env fd mess
    return 1

/-- The message loop, which counts the messages. Every turn takes at least one of the unread bytes. -/
def messageLoop (fd : Int) : Nat → Nat → M Nat
  | 0, _ => throw .fuel
  | fuel + 1, cnt => do
    match ← extractMessage fd with
    | none => return cnt
    | some size =>
      let n ← handleMessage env fd size
      messageLoop fd fuel (cnt + n)

/-- A readable connection. -/
def readClient (fd : Int) (c : SockPtr) : M Nat := do
  let recvRet ← recvData env fd c
  let cnt ← messageLoop env fd (((← get).sock c).unread.length + 1) 0
  if recvRet = .error then
    deleteClientByFd env fd
    return cnt
  else
    return cnt

def handleEvent (ev : EpollEvent) : M Nat := do
  log (.epoll ev)
  let s ← get
  if ev.err || ev.hup || !ev.inn then
    if ev.fd ∈ s.connects then
      deleteClientByFd env ev.fd
      return 0
    else
      return 0
  else if ev.fd = s.listenFd then
    acceptNew env
    return 0
  else
    match s.connects[ev.fd]? with
    | none => return 0
    | some c => readClient env ev.fd c

def maxEpollSize : Nat := 1024

/-- The kernel reports descriptors registered with epoll, each at most once; an answer that it cannot
    give stands for a timeout. -/
def kernelEpollWait (s : Server) : List EpollEvent :=
  let events := env.epollWait s.sys
  if events.length ≤ maxEpollSize ∧ (events.map (·.fd)).Nodup ∧ ∀ ev ∈ events, ev.fd ∈ s.epoll then
    events
  else
    []

def handleEvents : List EpollEvent → Nat → M Nat
  | [], cnt => return cnt
  | ev :: rest, cnt => do
    let n ← handleEvent env ev
    handleEvents rest (cnt + n)

def receiveMessage : M Nat := do
  let s ← get
  set (s.tickSys 1)
  handleEvents env (kernelEpollWait env s) 0

/-! ## `main` -/

namespace Heartbeat

/-- The loop of `OnTick` at iterator `it`. The set only loses elements while it runs. -/
def expireLoop (nowsec : Int) : Nat → Option (Int × Int) → M Unit
  | _, none => return ()
  | 0, some _ => throw .fuel
  | fuel + 1, some it => do
    let s ← get
    if it ∉ s.secFd then
      throw .danglingIterator
    else if (← guarded (sub32 nowsec it.1)) > 40 then
      let it' := next s.secFd it
      log (.expire it.2 it')
      deleteClientByFd env it.2
      expireLoop nowsec fuel it'
    else
      return ()

def onTick (nowsec : Int) : M Unit := do
  let s ← get
  expireLoop env nowsec s.secFd.size s.secFd.min?

end Heartbeat

def runOnTick : M Unit := do
  RoomManager.onTick env
  let nowsec ← getNowTimeSecond env
  let s ← get
  if (← guarded (sub32 nowsec s.presec)) < 40 then
    return ()
  else
    set { s with presec := nowsec }
    Heartbeat.onTick env nowsec

/-- `n` turns of the loop of `main` -/
def mainLoop : Nat → M Unit
  | 0 => return ()
  | n + 1 => do
    runOnTick env
    discard (receiveMessage env)
    mainLoop n

/-- The states of the main loop, between its two calls. -/
inductive Reachable : Server → Prop
  | boot {s : Server} (booted : s.Booted) : Reachable s
  | tick {s t : Server} (reached : Reachable s) (run : runOnTick env s = .ok () t) : Reachable t
  | receive {s t : Server} {n : Nat} (reached : Reachable s) (run : receiveMessage env s = .ok n t) : Reachable t

/-- The states in which a call of the main loop ends, also when it ends the run. -/
inductive Visited : Server → Prop
  | reach {s : Server} (reached : Reachable env s) : Visited s
  | tick {s t : Server} {e : Fault} (reached : Reachable env s) (run : runOnTick env s = .error e t) : Visited t
  | receive {s t : Server} {e : Fault} (reached : Reachable env s) (run : receiveMessage env s = .error e t) :
      Visited t

end

end IslandSurvival
