import IslandSurvival.Theorems.Posts
import IslandSurvival.Theorems.Tenants

/-! The replies to the requests about rooms. Three of the handlers reply to the user that asked; the fourth, for a
    player that leaves its room, broadcasts the reply to the room when the player is out of it. -/

namespace IslandSurvival

open Prog

/-- The requests about rooms that have a reply of their own -/
inductive RoomRequest
  | createRoom (gameMode teamMode : Int)
  | joinRoom (roomId : Int)
  | playerExitRoom
  | pullAllRoomInfo

namespace RoomRequest

def number : RoomRequest → Int32
  | createRoom _ _ => Msg.csCreateRoom
  | joinRoom _ => Msg.csJoinRoom
  | playerExitRoom => Msg.csPlayerExitRoom
  | pullAllRoomInfo => Msg.csPullAllRoomInfo

def content : RoomRequest → Proto
  | createRoom gameMode teamMode => .csCreateRoom gameMode teamMode
  | joinRoom roomId => .csJoinRoom roomId
  | playerExitRoom => .csPlayerExitRoom
  | pullAllRoomInfo => .csPullAllRoomInfo

def replyNumber : RoomRequest → Int32
  | createRoom _ _ => Msg.scCreateRoom
  | joinRoom _ => Msg.scJoinRoom
  | playerExitRoom => Msg.scPlayerExitRoom
  | pullAllRoomInfo => Msg.scPullAllRoomInfo

theorem replyNumber_ne (request : RoomRequest) : request.replyNumber ≠ Msg.scPullOneRoomDetail := by
  cases request <;> simp [replyNumber, Msg.scCreateRoom, Msg.scJoinRoom, Msg.scPlayerExitRoom, Msg.scPullAllRoomInfo,
    Msg.scPullOneRoomDetail]

/-- The result field of a reply, if there is one, says whether the user has got what it asked for. -/
def Reports (u : Int) (s t : Server) : RoomRequest → Option Proto → Prop
  | createRoom _ _, some (.scCreateRoom result _) =>
    (result = true ↔ s.belongRoom[u]? = none ∧ (t.belongRoom[u]?).isSome)
  | joinRoom roomId, some (.scJoinRoom result) =>
    (result = JoinResult.addPlayerSucceed.code ↔
      s.belongRoom[u]? = none ∧ ∃ p, s.rooms[roomId]? = some p ∧ t.belongRoom[u]? = some p)
  | playerExitRoom, some (.scPlayerExitRoom result) => (result = 1 ↔ t.belongRoom[u]? = none)
  | pullAllRoomInfo, some (.scPullAllRoomInfo _) => True
  | _, _ => False

end RoomRequest

/-- Whether a user has a connection -/
def Server.isClient (s : Server) (u : Int) : Bool := (s.userIdToFd[u]?).any fun fd => s.connects.contains fd

/-- What is sent with a number to users that have a connection -/
def sentTo (s : Server) (id : Int32) (l : List (Int × CMessage)) : List (Int × CMessage) :=
  l.filter fun post => decide (post.2.head.messageId = id) && s.isClient post.1

/-- From `s` to `t`, the only reply to the request goes to user `u`, and its result is true. -/
def Replied (request : RoomRequest) (u : Int) (s t : Server) : Prop :=
  ∃ events reply, t.trace = events ++ s.trace ∧ sentTo s request.replyNumber (posts events) = [(u, reply)] ∧
    request.Reports u s t reply.proto

section
variable {env : Env} {k : List Frame} {s t : Server} {u : Int} {p : RoomPtr} {mess : CMessage} {id : Int32}
  {request : RoomRequest}

/-! ### Replies and posts -/

theorem posts_append (events older : List Event) : posts (events ++ older) = posts events ++ posts older :=
  List.filterMap_append

theorem replied_iff {l : List (Int × CMessage)} (later : s.trace <:+ t.trace) (posted : posts t.trace = l.reverse ++ posts s.trace) :
    Replied request u s t ↔ ∃ reply, sentTo s request.replyNumber l = [(u, reply)] ∧ request.Reports u s t reply.proto := by
  obtain ⟨events, trace⟩ := later
  have here : posts events = l.reverse := by
    rw [← trace, posts_append] at posted
    exact List.append_cancel_right posted
  have back : sentTo s request.replyNumber l.reverse = (sentTo s request.replyNumber l).reverse := List.filter_reverse
  constructor
  · rintro ⟨events', reply, trace', replies, reports⟩
    obtain rfl := List.append_cancel_right (trace'.symm.trans trace.symm)
    rw [here, back, List.reverse_eq_cons_iff] at replies
    exact ⟨reply, by simpa using replies, reports⟩
  · rintro ⟨reply, replies, reports⟩
    exact ⟨events, reply, trace.symm, by rw [here, back, replies]; rfl, reports⟩

theorem sentTo_append (l l' : List (Int × CMessage)) : sentTo s id (l ++ l') = sentTo s id l ++ sentTo s id l' :=
  List.filter_append ..

/-- What is sent to several users, some of them gone -/
theorem sentTo_map (users : List Int) (mess : CMessage) : sentTo s id (users.map fun v => (v, mess)) =
    if mess.head.messageId = id then (users.filter s.isClient).map fun v => (v, mess) else [] := by
  unfold sentTo
  rw [List.filter_map]
  by_cases here : mess.head.messageId = id
  · simp [here, Function.comp_def]
  · simp [here, Function.comp_def]

theorem sentTo_client (client : s.isClient u = true) (mess : CMessage) : sentTo s id [(u, mess)] =
    if mess.head.messageId = id then [(u, mess)] else [] := by
  have one := @sentTo_map s id [u] mess
  simpa [client] using one

theorem detailMessage_number (roomId : Int) (s : Server) :
    (RoomManager.detailMessage roomId s).head.messageId = Msg.scPullOneRoomDetail := by
  unfold RoomManager.detailMessage
  split <;> rfl

/-! ### The handlers -/

/-- A request that gets its reply: not one to join a room from inside another one, and to leave a room only when
    the room sends to nobody but the user. In a waiting room the user has left one of its slots by then. -/
def RoomRequest.Answerable (u : Int) (s : Server) : RoomRequest → Prop
  | createRoom _ _ => True
  | joinRoom roomId => s.rooms[roomId]? = none ∨ s.belongRoom[u]? = none
  | playerExitRoom => ∃ p, s.belongRoom[u]? = some p ∧
      (s.room p).members.filter s.isClient = if (s.room p).status = .waiting then [u, u] else [u]
  | pullAllRoomInfo => True

/-- What is sent from `s` to `t` has the reply in it exactly when there has to be one. -/
def AnswersIff (request : RoomRequest) (u : Int) (s t : Server) : Prop :=
  ∃ l, posts t.trace = l.reverse ++ posts s.trace ∧
    ((∃ reply, sentTo s request.replyNumber l = [(u, reply)] ∧ request.Reports u s t reply.proto) ↔ request.Answerable u s)

/-- A reply that the user gets -/
theorem AnswersIff.reply (rest : List (Int × CMessage)) {reply : CMessage} (client : s.isClient u = true)
    (posted : posts t.trace = ((u, reply) :: rest).reverse ++ posts s.trace) (number : reply.head.messageId = request.replyNumber)
    (others : ∀ post ∈ rest, post.2.head.messageId = Msg.scPullOneRoomDetail)
    (reports : request.Reports u s t reply.proto) (answerable : request.Answerable u s) : AnswersIff request u s t := by
  refine ⟨_, posted, iff_of_true ⟨reply, ?_, reports⟩ answerable⟩
  have none : sentTo s request.replyNumber rest = [] := by
    rw [sentTo, List.filter_eq_nil_iff]
    intro post mem
    simp [others post mem, Ne.symm request.replyNumber_ne]
  rw [← List.singleton_append, sentTo_append, sentTo_client client, if_pos number, none, List.append_nil]

theorem send_quietly (u : Int) (mess : CMessage) : Quietly (MP.send env u mess) (fun _ t => Posted [(u, mess)] s t) s := by
  simp only [Quietly, MP.send, wp_discard]
  exact sendMessageToClient_quietly deleteClientByFd_grows u mess

theorem send_grows (u : Int) (mess : CMessage) : Grows (MP.send env u mess) :=
  .discard (sendMessageToClient_grows deleteClientByFd_grows u mess)

theorem sendToRoom_grows (p : RoomPtr) (mess : CMessage) : Grows (MP.sendToRoom env p mess) :=
  sendMessageToEveryone_grows deleteClientByFd_grows p mess

theorem csPullAllRoomInfo_answers (client : s.isClient u = true) :
    Quietly (MP.csPullAllRoomInfo env u) (fun _ t => AnswersIff .pullAllRoomInfo u s t) s := by
  simp only [MP.csPullAllRoomInfo]
  rw [Quietly, wp_bind, wp_get]
  refine (send_quietly u _).bind (fun _ => .pure) fun _ t posted => .pure ?_
  exact .reply [] client posted.posts rfl (by simp) trivial trivial

theorem csCreateRoom_answers (client : s.isClient u = true) {gameMode teamMode : Int}
    (content : mess.proto = some (.csCreateRoom gameMode teamMode)) :
    Quietly (MP.csCreateRoom env u mess) (fun _ t => AnswersIff (.createRoom gameMode teamMode) u s t) s := by
  simp only [MP.csCreateRoom, content]
  rw [Quietly, wp_bind]
  by_cases free : u ∈ s.belongRoom
  · simp only [RoomManager.createRoom, wp_bind, wp_get, if_pos free, wp_pure]
    have sends := (@send_quietly env s u (.build Msg.scCreateRoom (-1) (.scCreateRoom false 0)))
    refine sends.post fun _ t posted => ?_
    obtain ⟨p, belong⟩ := Map.mem_iff.mp free
    refine .reply [] client posted.posts rfl (by simp) ?_ trivial
    simp [RoomRequest.Reports, CMessage.build, belong]
  · refine RoomManager.createRoom_spec gameMode teamMode free ?_
    generalize (RoomManager.takeRoom s).2.1 = roomId
    obtain ⟨p, _, _, _, _, _, -, made⟩ := RoomManager.created_eq u gameMode teamMode s
    have sends : Quietly (do
        MP.send env u (.build Msg.scCreateRoom (-1) (.scCreateRoom true roomId))
        MP.send env u (RoomManager.detailMessage roomId (← get))
        return 0 : M Int) (fun _ t => AnswersIff (.createRoom gameMode teamMode) u s t)
        (RoomManager.created u gameMode teamMode s) := by
      refine (send_quietly u _).bind (fun _ => .bind .get fun _ => .bind (send_grows u _) fun _ => .pure) fun _ t posted => ?_
      rw [Quietly, wp_bind, wp_get]
      refine (send_quietly u _).bind (fun _ => .pure) fun _ t' posted' => .pure ?_
      have both := posted.trans posted'
      have belong : t'.belongRoom[u]? = some p := by
        obtain ⟨_, _, _, rfl⟩ := both.same
        rw [made, Map.getElem?_insert, if_pos rfl]
      have all : posts t'.trace = [(u, .build Msg.scCreateRoom (-1) (.scCreateRoom true roomId)),
          (u, RoomManager.detailMessage roomId t)].reverse ++ posts s.trace := by
        rw [both.posts, made]
        rfl
      refine .reply _ client all rfl (by simp [detailMessage_number]) ?_ trivial
      simp [RoomRequest.Reports, CMessage.build, belong, Std.ExtTreeMap.getElem?_eq_none free]
    refine sends.from_later ?_ ?_
    · rw [made]
      exact (List.suffix_cons _ _).trans (List.suffix_cons _ _)
    · rw [made]
      rfl

/-- How `JoinRoom` ends -/
inductive JoinEnds (s : Server) (u roomId : Int) : JoinResult → Server → Prop
  | notExist (none : s.rooms[roomId]? = none) : JoinEnds s u roomId .joinRoomNotExist s
  | errorFail {p : RoomPtr} (room : s.rooms[roomId]? = some p) (busy : u ∈ s.belongRoom) :
      JoinEnds s u roomId .joinRoomErrorFail s
  | refused {p : RoomPtr} {result : JoinResult} (room : s.rooms[roomId]? = some p) (free : u ∉ s.belongRoom)
      (refused : result = .addPlayerFull ∨ result = .addPlayerNoWaiting) : JoinEnds s u roomId result s
  | succeed {p : RoomPtr} (room : s.rooms[roomId]? = some p) (free : u ∉ s.belongRoom)
      (cnt : (s.room p).playerCnt < maxPlayerCnt) : JoinEnds s u roomId .addPlayerSucceed (RoomManager.joined u p s)

theorem joinRoom_ends (roomId : Int) : wp (RoomManager.joinRoom u roomId) (JoinEnds s u roomId) (fun _ _ => False) s := by
  simp only [RoomManager.joinRoom, wp_bind, wp_get]
  cases room : s.rooms[roomId]? with
  | none => exact .notExist room
  | some p =>
    simp only
    split
    · rename_i busy
      exact .errorFail room busy
    · rename_i free
      rw [wp_bind]
      by_cases status : (s.room p).status = .waiting
      · by_cases cnt : (s.room p).playerCnt < maxPlayerCnt
        · refine Room.addPlayer_spec status cnt ?_
          simp only [if_true, wp_bind, wp_modify, wp_pure]
          exact .succeed room free cnt
        · simp only [Room.addPlayer, wp_bind, wp_getRoom, status, if_true, if_pos (Nat.le_of_not_lt cnt), wp_pure]
          exact .refused room free (.inl rfl)
      · simp only [Room.addPlayer, wp_bind, wp_getRoom, if_neg status, wp_pure]
        exact .refused room free (.inr rfl)

/-- A join that is refused with a reply -/
theorem AnswersIff.refused (client : s.isClient u = true) {roomId : Int} {result : JoinResult}
    (posted : Posted [(u, .build Msg.scJoinRoom (-1) (.scJoinRoom result.code))] s t) (refused : result ≠ .addPlayerSucceed)
    (answerable : s.rooms[roomId]? = none ∨ s.belongRoom[u]? = none) : AnswersIff (.joinRoom roomId) u s t := by
  refine .reply [] client posted.posts rfl (by simp) ?_ answerable
  obtain ⟨_, _, _, rfl⟩ := posted.same
  have code : result.code ≠ JoinResult.addPlayerSucceed.code := by cases result <;> simp [JoinResult.code] at refused ⊢
  refine iff_of_false code ?_
  rintro ⟨free, p, -, belong⟩
  rw [free] at belong
  cases belong

theorem csJoinRoom_answers (client : s.isClient u = true) {roomId : Int} (content : mess.proto = some (.csJoinRoom roomId)) :
    Quietly (MP.csJoinRoom env u mess) (fun _ t => AnswersIff (.joinRoom roomId) u s t) s := by
  simp only [MP.csJoinRoom, content]
  rw [Quietly, wp_bind]
  refine wp_mono (joinRoom_ends roomId) (fun result t ends => ?_) fun _ _ => False.elim
  cases ends with
  | notExist none =>
    rw [if_neg (by simp)]
    refine (send_quietly u _).bind (fun _ => ?_) fun _ t posted => ?_
    · rw [if_neg (by simp)]
      exact .pure
    · rw [if_neg (by simp)]
      exact .pure (.refused client posted (by simp) (.inl none))
  | @errorFail p room busy =>
    rw [if_pos rfl]
    refine Quietly.pure ⟨[], rfl, iff_of_false ?_ ?_⟩
    · rintro ⟨reply, none, -⟩
      cases none
    · obtain ⟨q, belong⟩ := Map.mem_iff.mp busy
      simp [RoomRequest.Answerable, room, belong]
  | refused room free refused =>
    have other : result ≠ .addPlayerSucceed := by rintro rfl; simp at refused
    rw [if_neg (by rintro rfl; simp at refused)]
    refine (send_quietly u _).bind (fun _ => ?_) fun _ t posted => ?_
    · rw [if_neg other]
      exact .pure
    · rw [if_neg other]
      exact .pure (.refused client posted other (.inr (Std.ExtTreeMap.getElem?_eq_none free)))
  | @succeed p room free cnt =>
    have made := RoomManager.joined_eq u p s
    rw [if_neg (by simp)]
    refine Quietly.from_later ((send_quietly u _).bind (fun _ => ?_) fun _ t posted => ?_) (made ▸ List.suffix_cons _ _) ?_
    · rw [if_pos rfl]
      refine .bind .get fun s => ?_
      split
      · exact .throw
      · exact .bind (sendToRoom_grows _ _) fun _ => .pure
    · rw [if_pos rfl]
      have listed : RoomManager.getRoomByRoomId t roomId = some p := by
        obtain ⟨_, _, _, rfl⟩ := posted.same
        rw [RoomManager.getRoomByRoomId, made]
        exact room
      have slots : (t.room p).playerCnt ≤ maxPlayerCnt := by
        rw [posted.room, made]
        simp only [Function.update_self]
        exact cnt
      rw [Quietly, wp_bind, wp_get]
      simp only [listed]
      refine (sendMessageToEveryone_quietly deleteClientByFd_grows slots _).bind (fun _ => .pure) fun _ t' posted' => .pure ?_
      have both := posted.trans posted'
      have belong : t'.belongRoom[u]? = some p := by
        obtain ⟨_, _, _, rfl⟩ := both.same
        rw [made, Map.getElem?_insert, if_pos rfl]
      have all := both.posts
      rw [made] at all
      refine .reply _ client all rfl (fun post mem => ?_) ?_ (.inr (Std.ExtTreeMap.getElem?_eq_none free))
      · obtain ⟨v, -, rfl⟩ := List.mem_map.mp mem
        exact detailMessage_number roomId t
      · exact iff_of_true rfl ⟨Std.ExtTreeMap.getElem?_eq_none free, p, room, belong⟩
    · rw [made]
      rfl

/-- A user that leaves a waiting room -/
theorem deletePlayerFromRoom_quietly (belong : s.belongRoom[u]? = some p) (status : (s.room p).status = .waiting)
    (pos : (s.room p).getPlayerId u ≠ 0) (cnt : (s.room p).playerCnt ≤ maxPlayerCnt) :
    Quietly (RoomManager.deletePlayerFromRoom env (deleteClientByFd env) u) (fun ret t => ret = .success ∧
      t.room p = (s.room p).removeSlot ((s.room p).getPlayerId u) ∧ t.belongRoom = s.belongRoom.erase u ∧
        ∃ l : List (Int × CMessage), posts t.trace = l.reverse ++ posts s.trace ∧
          ∀ post ∈ l, post.2.head.messageId = Msg.scPullOneRoomDetail) s := by
  simp only [Quietly, RoomManager.deletePlayerFromRoom, wp_bind, wp_get, belong, wp_modify, Room.deletePlayer, wp_getRoom,
    if_neg pos, status, wp_pure, PersonManager.changePersonStatus_eq]
  set s' := ({ s with belongRoom := s.belongRoom.erase u }.setRoom p ((s.room p).removeSlot ((s.room p).getPlayerId u))).log
    (.leave p ((s.room p).getPlayerId u) .waiting) with removed
  have here : s'.room p = (s.room p).removeSlot ((s.room p).getPlayerId u) := by
    rw [removed]
    exact Server.setRoom_room_self _ p _
  have slots : (s'.room p).playerCnt ≤ maxPlayerCnt := by
    rw [here]
    exact Nat.le_trans (Nat.sub_le _ _) cnt
  have sends := @sendMessageToEveryone_quietly env (deleteClientByFd env) s' deleteClientByFd_grows p slots (Room.detailMessage p s')
  have later : s.trace <:+ s'.trace := List.suffix_cons _ _
  refine wp_mono (sends.from_later later rfl) (fun _ t ends => ⟨ends.1, fun quiet => ?_⟩) fun _ _ => id
  have posted := ends.2 quiet
  refine ⟨trivial, by rw [posted.room, here], ?_, _, posted.posts, fun post mem => ?_⟩
  · obtain ⟨_, _, _, rfl⟩ := posted.same
    rfl
  · obtain ⟨v, -, rfl⟩ := List.mem_map.mp mem
    rfl

/-- One of two slots is left. -/
theorem members_left {r : Room} (counted : r.Counted) (status : r.status = .waiting) (pos : r.getPlayerId u ≠ 0)
    {client : Int → Bool} (here : client u = true) :
    (r.removeSlot (r.getPlayerId u)).members.filter client = [u] ↔ r.members.filter client = [u, u] := by
  obtain ⟨slot, -, player⟩ := Room.getPlayerId_spec pos
  have perm := (Room.members_removeSlot slot (counted.waiting status)).filter client
  rw [player, List.filter_cons_of_pos here] at perm
  constructor
  · intro left
    rw [left] at perm
    exact (List.perm_replicate (n := 2)).mp perm.symm
  · intro both
    rw [both] at perm
    exact (List.perm_replicate (n := 1)).mp perm.cons_inv

theorem exitMessage_number (result : Int) : (MP.exitMessage result).head.messageId = Msg.scPlayerExitRoom := (rfl)

theorem exists_reply_iff {users : List Int} {Q : CMessage → Prop} :
    (∃ reply, (users.map fun v => (v, mess)) = [(u, reply)] ∧ Q reply) ↔ users = [u] ∧ Q mess := by
  constructor
  · rintro ⟨reply, only, h⟩
    obtain ⟨v, rfl, same⟩ := List.map_eq_singleton_iff.mp only
    obtain ⟨rfl, rfl⟩ := Prod.mk.inj same
    exact ⟨rfl, h⟩
  · rintro ⟨rfl, h⟩
    exact ⟨mess, rfl, h⟩

theorem csPlayerExitRoom_answers (client : s.isClient u = true) (belong : s.belongRoom[u]? = some p)
    (counted : (s.room p).Counted) (pos : (s.room p).getPlayerId u ≠ 0) :
    Quietly (MP.csPlayerExitRoom env u) (fun _ t => AnswersIff .playerExitRoom u s t) s := by
  simp only [MP.csPlayerExitRoom]
  rw [Quietly, wp_bind, wp_get]
  simp only [RoomManager.getRoomByUserId, belong, wp_bind, wp_getRoom]
  by_cases status : (s.room p).status = .waiting
  · rw [if_pos status]
    refine (deletePlayerFromRoom_quietly belong status pos counted.playerCnt).bind
      (fun _ => .bind (sendToRoom_grows _ _) fun _ => .pure) fun ret t ends => ?_
    obtain ⟨rfl, removed, erased, l, posted, details⟩ := ends
    have slots : (t.room p).playerCnt ≤ maxPlayerCnt := by
      rw [removed]
      exact Nat.le_trans (Nat.sub_le _ _) counted.playerCnt
    refine (sendMessageToEveryone_quietly deleteClientByFd_grows slots _).bind (fun _ => .pure) fun _ t' posted' => .pure ?_
    have gone : t'.belongRoom[u]? = none := by
      obtain ⟨_, _, _, rfl⟩ := posted'.same
      rw [erased, Map.getElem?_erase, if_pos rfl]
    have before : sentTo s Msg.scPlayerExitRoom l = [] := by
      rw [sentTo, List.filter_eq_nil_iff]
      intro post mem
      simp [details post mem, Msg.scPlayerExitRoom, Msg.scPullOneRoomDetail]
    refine ⟨l ++ (t.room p).members.map fun v => (v, MP.exitMessage 1), ?_, ?_⟩
    · rw [posted'.posts, posted, List.reverse_append, List.append_assoc]
      rfl
    · simp only [RoomRequest.replyNumber, sentTo_append, before, List.nil_append, sentTo_map]
      rw [if_pos (exitMessage_number 1), exists_reply_iff, removed, members_left counted status pos client]
      simp [RoomRequest.Answerable, belong, status, RoomRequest.Reports, MP.exitMessage, CMessage.build, gone]
  · rw [if_neg status]
    refine (sendMessageToEveryone_quietly deleteClientByFd_grows counted.playerCnt _).bind (fun _ => .pure) fun _ t posted => .pure ?_
    have stays : t.belongRoom[u]? = some p := by
      obtain ⟨_, _, _, rfl⟩ := posted.same
      exact belong
    refine ⟨_, posted.posts, ?_⟩
    simp only [RoomRequest.replyNumber, sentTo_map]
    rw [if_pos (exitMessage_number 0), exists_reply_iff]
    simp [RoomRequest.Answerable, belong, status, RoomRequest.Reports, MP.exitMessage, CMessage.build, stays]

theorem processRequest_answers (h : Config env k s) (client : s.isClient u = true)
    (member : request = .playerExitRoom → u ∈ s.belongRoom) (number : mess.head.messageId = request.number)
    (content : mess.proto = some request.content) :
    Quietly (processRequest env u mess) (fun _ t => AnswersIff request u s t) s := by
  unfold processRequest
  rw [number]
  cases request with
  | createRoom gameMode teamMode =>
    rw [RoomRequest.number, Register.boot_processor_of Msg.csCreateRoom .csCreateRoom (by decide)]
    exact csCreateRoom_answers client content
  | joinRoom roomId =>
    rw [RoomRequest.number, Register.boot_processor_of Msg.csJoinRoom .csJoinRoom (by decide)]
    exact csJoinRoom_answers client content
  | playerExitRoom =>
    rw [RoomRequest.number, Register.boot_processor_of Msg.csPlayerExitRoom .csPlayerExitRoom (by decide)]
    obtain ⟨p, belong⟩ := Map.mem_iff.mp (member rfl)
    have pos := Room.getPlayerId_ne_zero.mpr (h.tenancy.1.member belong)
    exact csPlayerExitRoom_answers client belong (h.rooms.counted (h.rooms.belong belong)) pos
  | pullAllRoomInfo =>
    rw [RoomRequest.number, Register.boot_processor_of Msg.csPullAllRoomInfo .csPullAllRoomInfo (by decide)]
    exact csPullAllRoomInfo_answers client

/-- At every moment of a run: a request of a user with a connection in which no write fails returns, unless an
    encoding is too long for the buffer. Then the user gets its one reply, with a true result, and nobody else does,
    if and only if the request is answerable. -/
theorem request_replied_iff (h : Config env k s) (client : s.isClient u = true)
    (member : request = .playerExitRoom → u ∈ s.belongRoom) (number : mess.head.messageId = request.number)
    (content : mess.proto = some request.content) :
    (∀ e t, processRequest env u mess s = .error e t → failures t.trace = failures s.trace → Overran t) ∧
    ∀ n t, processRequest env u mess s = .ok n t → failures t.trace = failures s.trace →
      (Replied request u s t ↔ request.Answerable u s) := by
  have answers := processRequest_answers h client member number content
  constructor
  · intro e t run
    exact (wp_error answers run).2
  · intro n t run quiet
    obtain ⟨later, ends⟩ := wp_ok answers run
    obtain ⟨l, posted, answered⟩ := ends quiet
    exact (replied_iff later posted).trans answered

end

/-! ### A room of one player -/

/-- A user that has just logged in creates a room, and is told so. -/
theorem request_replied_create : ∃ s t, Reachable (Script.oneClient (Script.request 0)) s ∧
    Replied (.createRoom 1 1) 1 s t := by
  obtain ⟨s, reachable, test⟩ := exists_of_ends 2
    (fun s => s.isClient 1 && Returns (processRequest (Script.oneClient (Script.request 0)) 1
      (Script.parsed Msg.csCreateRoom (.csCreateRoom 1 1)) s) fun t => failures t.trace == failures s.trace)
    (Script.reachable (Script.oneClient (Script.request 0))) (by decide +kernel)
  rw [Bool.and_eq_true] at test
  obtain ⟨n, t, run, quiet⟩ := exists_of_returns test.2
  have legal : RoomRequest.createRoom 1 1 = .playerExitRoom → 1 ∈ s.belongRoom := by simp
  have replied := (request_replied_iff reachable.config test.1 legal rfl rfl).2 n t run
  exact ⟨s, t, reachable, (replied (beq_iff_eq.mp quiet)).mpr trivial⟩

/-- The only player of a room leaves it, and is told nothing. -/
theorem exit_not_replied : ∃ s n t, Reachable (Script.oneClient (Script.request 0 ++ Script.request 9)) s ∧
    s.isClient 1 = true ∧ 1 ∈ s.belongRoom ∧
    processRequest (Script.oneClient (Script.request 0 ++ Script.request 9)) 1
      (Script.parsed Msg.csPlayerExitRoom .csPlayerExitRoom) s = .ok n t ∧
    failures t.trace = failures s.trace ∧ t.belongRoom[(1 : Int)]? = none ∧ ¬Replied .playerExitRoom 1 s t := by
  obtain ⟨s, reachable, test⟩ := exists_of_ends 2
    (fun s => s.isClient 1 && decide (1 ∈ s.belongRoom) && Returns (processRequest
      (Script.oneClient (Script.request 0 ++ Script.request 9)) 1 (Script.parsed Msg.csPlayerExitRoom .csPlayerExitRoom) s)
      fun t => failures t.trace == failures s.trace && t.belongRoom[(1 : Int)]? == none && posts t.trace == posts s.trace)
    (Script.reachable (Script.oneClient (Script.request 0 ++ Script.request 9))) (by decide +kernel)
  simp only [Bool.and_eq_true, decide_eq_true_eq] at test
  obtain ⟨⟨client, member⟩, returns⟩ := test
  obtain ⟨n, t, run, after⟩ := exists_of_returns returns
  simp only [Bool.and_eq_true, beq_iff_eq] at after
  obtain ⟨⟨quiet, left⟩, silent⟩ := after
  refine ⟨s, n, t, reachable, client, member, run, quiet, left, ?_⟩
  rintro ⟨events, reply, trace, replies, -⟩
  rw [trace, posts_append] at silent
  have none : posts events = [] := List.append_cancel_right (silent.trans (List.nil_append _).symm)
  rw [none] at replies
  cases replies

end IslandSurvival
