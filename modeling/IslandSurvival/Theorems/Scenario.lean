import IslandSurvival.Theorems.Refine

/-! Runs that can be computed: turns of `main` in an environment that answers by a script. -/

namespace IslandSurvival

open Prog

/-! ### Turns of the main loop -/

section
variable {env : Env} {s : Server}

/-- The main loop goes through reachable states, and a fault ends it in a visited one. -/
theorem mainLoop_spec : ∀ (n : Nat) (s : Server), Reachable env s →
    wp (mainLoop env n) (fun _ t => Reachable env t) (fun _ t => Visited env t) s
  | 0, _, h => h
  | n + 1, s, h => by
    simp only [mainLoop, wp_bind, wp_discard]
    refine wp_mono wp_self (fun _ t run => ?_) fun _ _ run => .tick h run
    refine wp_mono wp_self (fun _ t' run' => ?_) fun _ _ run' => .receive (.tick h run) run'
    exact mainLoop_spec n t' (.receive (.tick h run) run')

/-- A test of the state after a run. -/
def Ends (env : Env) (n : Nat) (s : Server) (test : Server → Bool) : Bool :=
  match mainLoop env n s with
  | .ok _ t => test t
  | .error _ _ => false

/-- A test of the state in which a fault ends a run. -/
def Faults (env : Env) (n : Nat) (s : Server) (test : Fault → Server → Bool) : Bool :=
  match mainLoop env n s with
  | .ok _ _ => false
  | .error e t => test e t

/-- A test of the state in which a call returns. -/
def Returns {α : Type} (run : EStateM.Result Fault Server α) (test : Server → Bool) : Bool :=
  match run with
  | .ok _ t => test t
  | .error _ _ => false

theorem exists_of_returns {α : Type} {run : EStateM.Result Fault Server α} {test : Server → Bool}
    (returns : Returns run test = true) : ∃ a t, run = .ok a t ∧ test t = true := by
  unfold Returns at returns
  split at returns
  · exact ⟨_, _, rfl, returns⟩
  · cases returns

/-- A test of the fault that stops a call, and of the state that it leaves. -/
def Stops {α : Type} (run : EStateM.Result Fault Server α) (test : Fault → Server → Bool) : Bool :=
  match run with
  | .ok _ _ => false
  | .error e t => test e t

theorem exists_of_stops {α : Type} {run : EStateM.Result Fault Server α} {test : Fault → Server → Bool}
    (stops : Stops run test = true) : ∃ e t, run = .error e t ∧ test e t = true := by
  unfold Stops at stops
  split at stops
  · cases stops
  · exact ⟨_, _, rfl, stops⟩

theorem exists_of_ends (n : Nat) (test : Server → Bool) (h : Reachable env s) (ends : Ends env n s test = true) :
    ∃ t, Reachable env t ∧ test t = true := by
  have spec := mainLoop_spec n s h
  unfold Ends at ends
  unfold wp at spec
  split at ends
  · rename_i t run
    rw [run] at spec
    exact ⟨t, spec, ends⟩
  · cases ends

theorem exists_of_faults (n : Nat) (test : Fault → Server → Bool) (h : Reachable env s)
    (faults : Faults env n s test = true) : ∃ e t, Visited env t ∧ test e t = true := by
  have spec := mainLoop_spec n s h
  unfold Faults at faults
  unfold wp at spec
  split at faults
  · cases faults
  · rename_i e t run
    rw [run] at spec
    exact ⟨e, t, spec, faults⟩

end

/-! ### A script -/

namespace Script

/-- A runtime whose messages have no content of their own. -/
def pb : Protobuf where
  serializeToString _ := []
  parseFromString
    | .csLogin, _ => (.csLogin [97] [97], true)
    | .csRegist, _ => (.csRegist [97] [97], true)
    | .csChangeTeam, _ => (.csChangeTeam none none, true)
    | .csPullAllRoomInfo, _ => (.csPullAllRoomInfo, true)
    | .csCreateRoom, _ => (.csCreateRoom 1 1, true)
    | .csJoinRoom, _ => (.csJoinRoom 1000, true)
    | .csPlayerExitRoom, _ => (.csPlayerExitRoom, true)
    | .csReadyToStart, _ => (.csReadyToStart, true)
    | .csLoadSucceed, _ => (.csLoadSucceed, true)
    | .csChoseRole, _ => (.csChoseRole 1, true)
    | .csMove, _ => (.csMove 1, true)
    | .csKill, _ => (.csKill 1 2, true)
    | .csGamePause, _ => (.csGamePause, true)
    | .csSkill, _ => (.csSkill 1 0 0 2, true)
    | .csHeartbeat, _ => (.csHeartbeat, true)
    | .csGameEnd, _ => (.csGameEnd, true)
  parse_type t _ := by cases t <;> rfl

/-- The frame of a request with message number `id`. -/
def request (id : UInt8) : Bytes := [0, 0, 0, 16, 0, 0, 0, id, 0, 0, 0, 0, 0, 0, 0, 0]

/-- The frame of a request in the receive buffer -/
def received (id : UInt8) (i : Nat) : UInt8 := (request id).getD i 0

/-- The message in it -/
def parsed (id : Int32) (proto : Proto) : CMessage :=
  { head := { packetlen := 16, messageId := id, framenum := 0, messageHash := 0 }, proto := some proto }

def readable (fd : Int) : EpollEvent := { fd, err := false, hup := false, inn := true }

/-- Nothing happens, the kernel takes what is sent, and every account has the password "a". -/
def quiet : Env where
  pb := pb
  clock _ := 0
  epollWait _ := []
  accept _ := none
  setNonBlock _ := true
  recv _ := .again
  send _ := .take 4096
  rand _ := 0
  query _ := .row (some [some [49], some [97]])
  uninit _ := 0

/-- A client connects and sends its requests; the first login is that of user 1, the next that of user 2. -/
def oneClient (requests : Bytes) : Env := { quiet with
  epollWait := fun n => if n = 1 then [readable 3] else if n = 6 then [readable 4] else []
  accept := fun _ => some 4
  recv := fun n => if n = 7 then .data requests else .again
  query := fun n => .row (some [some [if n < 11 then 49 else 50], some [97]]) }

def hungUp (fd : Int) : EpollEvent := { fd, err := false, hup := true, inn := false }

/-- Three clients log in as the users 1, 2 and 3; the first creates a room and the others join it. What
    happens from call 46 of the kernel on is up to the plan: the events, what the clients send, and the
    sends that fail. -/
def party (plan : Nat → List EpollEvent) (requests : Nat → Option Bytes) (broken : Nat → Bool) : Env := { quiet with
  epollWait := fun n =>
    if n = 1 ∨ n = 6 ∨ n = 11 then [readable 3]
    else if n = 16 then [readable 4]
    else if n = 25 then [readable 5]
    else if n = 35 then [readable 6]
    else plan n
  accept := fun n => some (if n < 5 then 4 else if n < 10 then 5 else 6)
  recv := fun n =>
    if n = 17 then .data (request 0 ++ request 9)
    else if n = 26 ∨ n = 36 then .data (request 0 ++ request 11)
    else match requests n with
      | some data => .data data
      | none => .again
  send := fun n => if broken n then .error else .take 4096
  query := fun n => .row (some [some [if n < 25 then 49 else if n < 35 then 50 else 51], some [97]]) }

def room : Room where
  syn := { oneframe := fun _ => .init, head := 0, headFrame := 0, nowFrame := 0, initTime := 0 }
  roomId := 0
  players _ := 0
  teamId _ := 0
  isOnline _ := false
  isLoadingSucceed _ := false
  playerCnt := 0
  onlinePlayerCnt := 0
  status := .waiting
  loadingSucceedCnt := 0
  loadingTimeSecond := 0
  gameMode := 0
  teamMode := 0
  gameOption := 0

def sock : TcpSocket where
  iSockfd := 0
  recvHead := 0
  recvTail := 0
  recvBuffer _ := 0
  sendHead := 0
  sendTail := 0
  sendBuffer _ := 0
  isUsing := false

/-- The server listens on descriptor 3. -/
def server : Server where
  listenFd := 3
  connects := ∅
  userIdToFd := ∅
  fdToUserId := ∅
  freeConns := []
  recvData _ := 0
  secFd := ∅
  fdToSec := ∅
  persons := ∅
  freeRoom := []
  belongRoom := ∅
  rooms := ∅
  nextRoomId := 1000
  presec := 0
  room _ := room
  roomCnt := 0
  sock _ := sock
  sockCnt := 0
  openFds := (∅ : IntSet).insert 3
  epoll := (∅ : IntSet).insert 3
  sys := 0
  trace := []

theorem server_booted : server.Booted where
  connects := rfl
  userIdToFd := rfl
  fdToUserId := rfl
  freeConns := rfl
  secFd := rfl
  fdToSec := rfl
  persons := rfl
  freeRoom := rfl
  belongRoom := rfl
  rooms := rfl
  nextRoomId := rfl
  roomCnt := rfl
  sockCnt := rfl
  listenFd := by simp [server]
  epoll fd := by
    simp only [server, Std.ExtTreeSet.mem_insert, Std.compare_eq_iff_eq, Std.ExtTreeSet.not_mem_empty, or_false]
    exact eq_comm
  trace := rfl

theorem reachable (env : Env) : Reachable env server := .boot server_booted

end Script

end IslandSurvival
