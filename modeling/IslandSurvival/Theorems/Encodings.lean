import IslandSurvival.Model.Serialize
import IslandSurvival.Theorems.Codec
import IslandSurvival.Theorems.Ring
import IslandSurvival.Theorems.Scenario
import Mathlib.Algebra.Order.BigOperators.Group.List
import Mathlib.Algebra.Order.Ring.Nat

/-! The encodings and the buffer that they are written to. `encode` does not look at the size of `send_data_`. Most
    messages consist of a few numbers and always fit; but the list of all rooms and the details of a room grow with
    the rooms and with the names of the players. -/

namespace IslandSurvival

open Prog

/-! ### Sizes -/

theorem length_writeInt32_le {field : Nat} (few : field < 16) (v : Int) : (writeInt32 field v).length ≤ 11 :=
  WireFormat.length_int32_le few _

theorem length_writeInt32 {field : Nat} (few : field < 16) (v : Int) : (writeInt32 field v).length = int32Size v :=
  WireFormat.length_int32 few (toInt32_bounds v).1 (toInt32_bounds v).2

theorem PBRoomInfo.length_serialize (info : PBRoomInfo) : info.serialize.length = info.byteSize := by
  simp only [serialize, List.length_append, length_writeInt32, byteSize, Nat.reduceLT]

theorem int32Size_le (v : Int) : int32Size v ≤ 11 := by
  have one : 1 < 16 := by decide
  rw [← length_writeInt32 one]
  exact length_writeInt32_le one v

theorem PBRoomInfo.byteSize_le (info : PBRoomInfo) : info.byteSize ≤ 55 := by
  have id := int32Size_le info.id
  have have_ := int32Size_le info.have_
  have limit := int32Size_le info.limit
  have gameMode := int32Size_le info.gameMode
  have teamMode := int32Size_le info.teamMode
  unfold byteSize
  omega

theorem PBDetailRoomInfo.length_serialize {info : PBDetailRoomInfo}
    (short : ∀ name ∈ info.players, name.length < 34359738368) : info.serialize.length = info.byteSize := by
  have players : (info.players.flatMap (WireFormat.lengthDelimited 1)).length =
      (info.players.map fun name => delimitedSize name.length).sum := by
    rw [List.length_flatMap]
    exact congrArg List.sum (List.map_congr_left fun name mem => WireFormat.length_lengthDelimited (by decide) (short name mem))
  have numbers : ∀ (field : Nat) (l : List Int), field < 16 → (l.flatMap (writeInt32 field)).length = (l.map int32Size).sum := by
    intro field l few
    rw [List.length_flatMap]
    exact congrArg List.sum (List.map_congr_left fun v _ => length_writeInt32 few v)
  rw [serialize, List.length_append, List.length_append, List.length_append, players, numbers 2 _ (by decide),
    numbers 3 _ (by decide), length_writeInt32 (by decide), byteSize]

/-- The bytes for the rooms of a list, or for the players of a room; other messages have neither. -/
def CMessage.listSize (mess : CMessage) : Nat :=
  match mess.proto with
  | some (.scPullAllRoomInfo rooms) => (rooms.map fun info => delimitedSize info.byteSize).sum
  | some (.scPullOneRoomDetail (some info)) => delimitedSize info.byteSize
  | _ => 0

/-- The rooms or players of a message take no more bytes than `send_data_` has left behind the header. -/
def CMessage.Fits (mess : CMessage) : Prop := headSize + mess.listSize ≤ maxMessageLen

instance (mess : CMessage) : Decidable mess.Fits := inferInstanceAs (Decidable (_ ≤ _))

/-- A message of the server. -/
def CMessage.FromServer (mess : CMessage) : Prop := ∀ proto, mess.proto = some proto → proto.type? = none

/-- Two fields -/
theorem length_pair_le {a b : Bytes} {m n : Nat} (ha : a.length ≤ m) (hb : b.length ≤ n) : (a ++ b).length ≤ m + n := by
  rw [List.length_append]
  exact Nat.add_le_add ha hb

/-- Apart from the two that grow, the messages of the server are short. -/
theorem Proto.length_serialize_le {proto : Proto} (own : proto.type? = none)
    (rooms : ∀ infos, proto ≠ .scPullAllRoomInfo infos) (detail : ∀ info, proto ≠ .scPullOneRoomDetail (some info)) :
    proto.serialize.length ≤ 43 := by
  have int := fun (field : Nat) (few : field < 16) (v : Int) => length_writeInt32_le few v
  have one : ∀ v, (writeInt32 1 v).length ≤ 43 := fun v => Nat.le_trans (int 1 (by decide) v) (by decide)
  have two : ∀ v w, (writeInt32 1 v ++ writeInt32 2 w).length ≤ 43 := fun v w =>
    Nat.le_trans (length_pair_le (int 1 (by decide) v) (int 2 (by decide) w)) (by decide)
  cases proto with
  | scPullAllRoomInfo infos => exact absurd rfl (rooms infos)
  | scPullOneRoomDetail info =>
    cases info with
    | none => exact Nat.zero_le 43
    | some info => exact absurd rfl (detail info)
  | scCreateRoom result roomId =>
    exact Nat.le_trans (length_pair_le (Nat.le_of_eq (WireFormat.length_bool (by decide) result)) (int 2 (by decide) roomId))
      (by decide)
  | scChoseRole roleId playerId => exact two roleId playerId
  | scMove dir playerId => exact two dir playerId
  | scKill killer bekilled => exact two killer bekilled
  | scSkill skillId posX posZ targetId attackerId =>
    have x : (WireFormat.fixed32 2 posX).length ≤ 5 := Nat.le_of_eq (WireFormat.length_fixed32 (by decide) posX)
    have z : (WireFormat.fixed32 3 posZ).length ≤ 5 := Nat.le_of_eq (WireFormat.length_fixed32 (by decide) posZ)
    have place := length_pair_le (length_pair_le (int 1 (by decide) skillId) x) z
    exact length_pair_le (length_pair_le place (int 4 (by decide) targetId)) (int 5 (by decide) attackerId)
  | scGameStart => exact Nat.zero_le 43
  | scGamePause => exact Nat.zero_le 43
  | scGameEnd => exact Nat.zero_le 43
  | scLogin result => exact one result
  | scRegist result => exact one result
  | scJoinRoom result => exact one result
  | scPlayerExitRoom result => exact one result
  | scGameLoading rand => exact one rand
  | scPlayerExitGame player => exact one player
  | scFrameMess operation => exact one operation
  | _ => cases own

theorem PBRoomInfo.length_delimited (info : PBRoomInfo) :
    (WireFormat.lengthDelimited 1 info.serialize).length = delimitedSize info.byteSize := by
  have short := info.byteSize_le
  rw [WireFormat.length_lengthDelimited (by decide) (by rw [info.length_serialize]; omega), info.length_serialize]
  rfl

/-- Where a detail fits, by its size or by its bytes, its names are short enough for the two to be the same. -/
theorem PBDetailRoomInfo.fits_iff (info : PBDetailRoomInfo) : headSize + delimitedSize info.byteSize ≤ maxMessageLen ↔
    headSize + (WireFormat.lengthDelimited 1 info.serialize).length ≤ maxMessageLen := by
  have same : (∀ name ∈ info.players, name.length < 34359738368) → info.serialize.length < 34359738368 →
      (WireFormat.lengthDelimited 1 info.serialize).length = delimitedSize info.byteSize := by
    intro short small
    rw [WireFormat.length_lengthDelimited (by decide) small, info.length_serialize short]
    rfl
  simp only [headSize, maxMessageLen]
  constructor
  · intro fits
    have part : info.byteSize ≤ delimitedSize info.byteSize := Nat.le_add_left _ _
    have short : ∀ name ∈ info.players, name.length < 34359738368 := by
      intro name mem
      have here : name.length ≤ delimitedSize name.length := Nat.le_add_left _ _
      have le : delimitedSize name.length ≤ (info.players.map fun name => delimitedSize name.length).sum :=
        List.le_sum_of_mem (List.mem_map_of_mem mem)
      have all : (info.players.map fun name => delimitedSize name.length).sum ≤ info.byteSize := by
        unfold byteSize
        omega
      omega
    rwa [same short (by rw [info.length_serialize short]; omega)]
  · intro fits
    have part := WireFormat.length_le_lengthDelimited 1 info.serialize
    have short : ∀ name ∈ info.players, name.length < 34359738368 := by
      intro name mem
      have here := WireFormat.length_le_lengthDelimited 1 name
      have le : (WireFormat.lengthDelimited 1 name).length ≤ (info.players.flatMap (WireFormat.lengthDelimited 1)).length := by
        rw [List.length_flatMap]
        exact List.le_sum_of_mem (List.mem_map_of_mem mem)
      have head : (info.players.flatMap (WireFormat.lengthDelimited 1)).length ≤ info.serialize.length := by
        simp only [serialize, List.length_append]
        omega
      omega
    rwa [← same short (by omega)]

theorem CMessage.fits_iff {mess : CMessage} {proto : Proto} (content : mess.proto = some proto) (own : proto.type? = none) :
    mess.Fits ↔ headSize + proto.serialize.length ≤ maxMessageLen := by
  unfold Fits listSize
  rw [content]
  by_cases list : ∃ rooms, proto = .scPullAllRoomInfo rooms
  · obtain ⟨rooms, rfl⟩ := list
    simp only [Proto.serialize, List.length_flatMap, PBRoomInfo.length_delimited]
  · by_cases detail : ∃ info, proto = .scPullOneRoomDetail (some info)
    · obtain ⟨info, rfl⟩ := detail
      exact info.fits_iff
    · have short := Proto.length_serialize_le own (fun rooms same => list ⟨rooms, same⟩) fun info same => detail ⟨info, same⟩
      refine iff_of_true ?_ (by simp only [headSize, maxMessageLen]; omega)
      split
      · rename_i rooms same
        exact absurd ⟨rooms, Option.some.inj same⟩ list
      · rename_i info same
        exact absurd ⟨info, Option.some.inj same⟩ detail
      · decide

/-- A message of the server is encoded within the buffer if and only if it fits. -/
theorem length_encode_le_iff {pb : Protobuf} {mess : CMessage} (generated : pb.Generated) (own : mess.FromServer) :
    (mess.encode pb).length ≤ maxMessageLen ↔ mess.Fits := by
  cases content : mess.proto with
  | none =>
    have empty : mess.Fits := by
      unfold CMessage.Fits CMessage.listSize
      rw [content]
      decide
    rw [CMessage.encode, content]
    exact iff_of_true (Nat.zero_le _) empty
  | some proto =>
    rw [CMessage.encode_eq content, List.length_append, CMessageHead.length_encode, generated]
    exact (CMessage.fits_iff content (own proto content)).symm

/-! ### What the server sends -/

theorem CMessage.fromServer_build {number framenum : Int32} {proto : Proto} (own : proto.type? = none) :
    (build number framenum proto).FromServer := by
  intro content same
  obtain rfl := Option.some.inj same
  exact own

theorem Gameplay.fromServer {playerId : Nat} {mess : CMessage} (h : Gameplay playerId mess) : mess.FromServer := by
  cases h <;> exact CMessage.fromServer_build rfl

theorem Reply.fromServer {s : Server} {mess : CMessage} (h : Reply s mess) : mess.FromServer := by
  cases h with
  | @detail roomId =>
    unfold RoomManager.detailMessage
    split <;> exact CMessage.fromServer_build rfl
  | _ => exact CMessage.fromServer_build rfl

section
variable {p : RoomPtr} {w w' : List Frame} {r r' : Room} {tr tr' : List Event}

theorem addsOwn_step (move : RoomStep p w r tr w' r' tr') (h : everyAdd CMessage.FromServer tr) :
    everyAdd CMessage.FromServer tr' := by
  cases move with
  | quit add => exact ⟨CMessage.fromServer_build rfl, h⟩
  | relay gameplay add => exact ⟨gameplay.fromServer, h⟩
  | _ => exact h

theorem RoomRun.addsOwn (h : RoomRun p w r tr) : everyAdd CMessage.FromServer tr := by
  induction h with
  | init _ _ _ _ => trivial
  | step _ move ih => exact addsOwn_step move ih

/-- The message that an activation is sending -/
def Frame.mess? : Frame → Option CMessage
  | .everyone _ mess _ | .delivering _ mess _ | .casting _ mess _ => some mess
  | _ => none

def SendsOwn (w : List Frame) : Prop := ∀ mess ∈ w.filterMap Frame.mess?, mess.FromServer

theorem sendsOwn_step (run : RoomRun p w r tr) (move : RoomStep p w r tr w' r' tr') (h : SendsOwn w) : SendsOwn w' := by
  cases move with
  | leave _ _ =>
    unfold Room.departing
    split <;> exact h
  | everyone cast =>
    cases cast with
    | casting => exact List.forall_mem_cons.mpr ⟨h _ List.mem_cons_self, h⟩
    | _ => exact List.forall_mem_cons.mpr ⟨CMessage.fromServer_build rfl, h⟩
  | castEmpty _ _ => exact List.forall_mem_cons.mpr ⟨CMessage.fromServer_build rfl, h⟩
  | cast _ mess =>
    obtain ⟨game, hgame, m, hm, frame, same⟩ := run.ring.fromGame (by simp [Frame.ring?]) (List.mem_of_getElem? mess) 0
    refine List.forall_mem_cons.mpr ⟨fun proto content => ?_, h⟩
    refine run.addsOwn.stored hgame m hm proto ?_
    exact (congrArg CMessage.proto same).symm.trans content
  | everyoneEnd _ => exact fun m hm => h m (List.mem_cons_of_mem _ hm)
  | castDone => exact fun m hm => h m (List.mem_cons_of_mem _ hm)
  | _ => exact h

theorem RoomRun.sendsOwn (h : RoomRun p w r tr) : SendsOwn w := by
  induction h with
  | init _ _ _ _ => exact fun _ hm => absurd hm List.not_mem_nil
  | step run move ih => exact sendsOwn_step run move ih

end

section
variable {env : Env} {k k' : List Frame} {s s' : Server} {p : RoomPtr} {mess : CMessage}

theorem Config.sendsOwn {i : Nat} (h : Config env (.delivering p mess i :: k) s) : mess.FromServer := by
  have here : Frame.delivering p mess i ∈ roomFrames p (.delivering p mess i :: k) :=
    List.mem_filter.mpr ⟨List.mem_cons_self, by simp [Frame.room?]⟩
  by_cases alloc : p < s.roomCnt
  · exact (h.roomRun alloc).sendsOwn mess (List.mem_filterMap.mpr ⟨_, here, rfl⟩)
  · rw [((h.roomRuns p).2 (Nat.le_of_not_lt alloc)).1] at here
    exact absurd here List.not_mem_nil

theorem MaySend.fromServer (h : Config env k s) (may : MaySend s mess k) : mess.FromServer := by
  cases may with
  | reply reply _ => exact reply.fromServer
  | outcome outcome => exact (outcome.reply (s := s)).fromServer
  | deliver _ => exact h.sendsOwn

/-! ### Overruns -/

/-- The messages that were longer than the buffer -/
def overruns (tr : List Event) : List CMessage := tr.filterMap fun e => match e with
  | .overrun _ mess => some mess
  | _ => none

/-- Only a message that may be sent overruns the buffer. -/
theorem overruns_step (move : Step env k s k' s') : overruns s'.trace = overruns s.trace ∨
    ∃ mess, overruns s'.trace = mess :: overruns s.trace ∧ MaySend s mess k ∧ maxMessageLen < (mess.encode env.pb).length := by
  cases move with
  | overrun _ may long => exact .inr ⟨_, rfl, may, long⟩
  | drop _ _ =>
    obtain ⟨_, _, _, _, _, hs⟩ := dropConnection_eq _ _ s
    rw [hs]
    exact .inl rfl
  | left => exact .inl (by rw [PersonManager.changePersonStatus_eq])
  | enter _ _ _ person =>
    rcases entered_trace person with same | same
    · exact .inl (by rw [same])
    · rw [same]
      exact .inl rfl
  | heartbeat _ old =>
    obtain ⟨_, _, rfl⟩ := Heartbeat.erased old
    exact .inl rfl
  | create _ _ _ _ _ =>
    obtain ⟨_, _, _, _, _, _, _, hs⟩ := RoomManager.created_eq _ _ _ s
    rw [hs]
    exact .inl rfl
  | join _ _ _ _ _ _ =>
    rw [RoomManager.joined_eq]
    exact .inl rfl
  | gameEnd _ _ _ =>
    rw [PersonManager.changePersonStatus_eq]
    exact .inl rfl
  | acceptFail sock acc _ =>
    obtain ⟨_, _, _, _, _, rfl⟩ := acceptSocket_eq sock acc
    exact .inl rfl
  | acceptLost sock acc _ =>
    obtain ⟨_, _, _, _, _, rfl⟩ := acceptSocket_eq sock acc
    exact .inl rfl
  | accept _ sock acc _ =>
    obtain ⟨_, _, _, hs⟩ := accepted_eq _ _ _
    rw [hs]
    obtain ⟨_, _, _, _, _, rfl⟩ := acceptSocket_eq sock acc
    exact .inl rfl
  | _ => exact .inl rfl

/-- A message that overran the buffer had been handed to `SendMessageToClient`, and did not fit. -/
theorem Config.overruns (generated : env.pb.Generated) (h : Config env k s) :
    ∀ mess ∈ IslandSurvival.overruns s.trace, (∃ u, .sendTo u mess ∈ s.trace) ∧ ¬mess.Fits := by
  induction h with
  | boot booted =>
    rw [booted.trace]
    exact List.forall_mem_nil _
  | @step _ s _ s' reached move ih =>
    have later := trace_step move
    have older : ∀ mess ∈ IslandSurvival.overruns s.trace, (∃ u, .sendTo u mess ∈ s'.trace) ∧ ¬mess.Fits :=
      fun mess mem => ⟨(ih mess mem).1.imp fun u sent => later.subset sent, (ih mess mem).2⟩
    rcases overruns_step move with same | ⟨mess, more, may, long⟩
    · rwa [same]
    · have unfit : ¬mess.Fits :=
        mt (length_encode_le_iff generated (may.fromServer reached)).mpr (Nat.not_le_of_lt long)
      rw [more]
      refine List.forall_mem_cons.mpr ⟨⟨?_, unfit⟩, older⟩
      cases may with
      | @reply _ u _ _ _ called => exact ⟨u, later.subset (List.mem_of_mem_head? called)⟩
      | outcome outcome => cases outcome <;> exact absurd (by decide : headSize ≤ maxMessageLen) unfit
      | @deliver _ _ _ u called => exact ⟨u, later.subset (List.mem_of_mem_head? called)⟩

/-- In a run in which every list of rooms and every detail of a room that is sent fits, no encoding is longer than
    `send_data_`. -/
theorem encodings_fit (generated : env.pb.Generated) (h : Visited env s)
    (fits : ∀ u mess, .sendTo u mess ∈ s.trace → mess.Fits) (fd : Int) (mess : CMessage) :
    .overrun fd mess ∉ s.trace := by
  intro overrun
  obtain ⟨k, config⟩ := h.config
  obtain ⟨⟨u, sent⟩, unfit⟩ := config.overruns generated mess (List.mem_filterMap.mpr ⟨_, overrun, rfl⟩)
  exact unfit (fits u mess sent)

end

/-! ### Names -/

namespace Script

/-- The vendored runtime, as far as the clients below use it to read -/
def wire : Protobuf where
  serializeToString := Proto.serialize
  parseFromString
    | .csLogin, 10 :: low :: rest =>
      let size := if low.toNat < 128 then low.toNat else low.toNat - 128 + 128 * (rest.headD 0).toNat
      let rest := if low.toNat < 128 then rest else rest.tail
      (.csLogin (rest.take size) (rest.drop (size + 2)), true)
    | .csCreateRoom, [8, gameMode, 16, teamMode] => (.csCreateRoom gameMode.toNat teamMode.toNat, true)
    | type, data => pb.parseFromString type data
  parse_type type data := by
    split
    · rfl
    · rfl
    · exact pb.parse_type type data

/-- A user with this name logs in and creates a room. -/
def named (name : Bytes) : Env := { oneClient ((CMessage.build Msg.csLogin 0 (.csLogin name [97])).encode wire ++
    (CMessage.build Msg.csCreateRoom 0 (.csCreateRoom 1 1)).encode wire) with pb := wire }

/-- Whether all that was sent fits -/
def allFit (tr : List Event) : Bool := tr.all fun e => match e with
  | .sendTo _ mess => decide mess.Fits
  | _ => true

theorem fits_of_allFit {tr : List Event} (all : allFit tr = true) (u : Int) (mess : CMessage)
    (sent : .sendTo u mess ∈ tr) : mess.Fits :=
  of_decide_eq_true (List.all_eq_true.mp all _ sent)

end Script

/-- The user "a" gets the details of its room. -/
theorem encodings_fit_shortName : ∃ s, Visited (Script.named [97]) s ∧ (s.room 0).playerCnt = 1 ∧
    ∀ fd mess, .overrun fd mess ∉ s.trace := by
  obtain ⟨s, reachable, test⟩ := exists_of_ends 2 (fun s => (s.room 0).playerCnt == 1 && Script.allFit s.trace)
    (Script.reachable (Script.named [97])) (by decide +kernel)
  rw [Bool.and_eq_true, beq_iff_eq] at test
  have fits := @encodings_fit (Script.named [97]) s (fun _ => rfl) (.reach reachable) (Script.fits_of_allFit test.2)
  exact ⟨s, .reach reachable, test.1, fits⟩

/-- A name of 4070 bytes that every account matches -/
def Script.longName : Bytes := Login.ascii "' or 1=1 limit 1 -- " ++ List.replicate 4050 97

/-- With the details of its room the user would get more than the buffer holds. -/
theorem long_name_overruns : (Script.named Script.longName).pb.Generated ∧
    ∃ s, Visited (Script.named Script.longName) s ∧ ∃ fd mess, .overrun fd mess ∈ s.trace := by
  obtain ⟨_, s, visited, test⟩ := exists_of_faults 2 (fun _ s => (overruns s.trace).length == 1)
    (Script.reachable (Script.named Script.longName)) (by decide +kernel)
  obtain ⟨mess, long⟩ := List.length_eq_one_iff.mp (beq_iff_eq.mp test)
  have mem : mess ∈ overruns s.trace := long ▸ List.mem_singleton_self mess
  obtain ⟨e, mem, here⟩ := List.mem_filterMap.mp mem
  refine ⟨fun _ => rfl, s, visited, ?_⟩
  cases e with
  | overrun fd mess => exact ⟨fd, mess, mem⟩
  | _ => cases here

end IslandSurvival
