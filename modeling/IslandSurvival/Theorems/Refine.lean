import IslandSurvival.Theorems.Handlers

/-! What the moves keep, the main loop keeps: every state of a run is a configuration that the moves
    lead to. -/

namespace IslandSurvival

open Prog

/-! ### The register -/

namespace Register

@[simp] theorem registMessage_processor (id : Int32) (type : PBType) (reg : Register) :
    (reg.registMessage id type).processor = reg.processor := by
  unfold registMessage
  split <;> rfl

theorem registeMessageId_processor {use : Int32 × PBType} {reg : Register} {id : Int32} {t : PBType}
    (h : (reg.registeMessageId use).processor id = some t) : reg.processor id = some t ∨ (id, t) = use := by
  unfold registeMessageId registProcessor at h
  split at h
  · exact .inl (by simpa using h)
  · by_cases hid : id = use.1
    · subst hid
      simp only [Function.update_self, Option.some.injEq] at h
      exact .inr (by rw [← h])
    · exact .inl (by simpa [hid] using h)

theorem foldl_processor {id : Int32} {t : PBType} :
    ∀ (uses : List (Int32 × PBType)) (reg : Register),
      (uses.foldl (fun reg use => reg.registeMessageId use) reg).processor id = some t →
        reg.processor id = some t ∨ (id, t) ∈ uses
  | [], _, h => .inl h
  | use :: uses, reg, h => by
    rcases foldl_processor uses _ h with h | h
    · rcases registeMessageId_processor h with h | h
      · exact .inl h
      · exact .inr (h ▸ List.mem_cons_self)
    · exact .inr (List.mem_cons_of_mem _ h)

/-- A message is processed by the processor it was registered with. -/
theorem boot_processor {id : Int32} {t : PBType} (h : boot.processor id = some t) : (id, t) ∈ uses := by
  rw [boot] at h
  exact (foldl_processor uses empty h).resolve_left (by simp [empty])

end Register

section
variable {env : Env} {base : List Frame} {I : List Frame → Server → Prop} {k : List Frame} {s : Server}
  {fd : Int} {user : Option Int} {mess : CMessage} {c : SockPtr}

/-! ### Requests -/

/-- The argument that `ProcessRequest` gets. -/
def requestArg (fd : Int) (user : Option Int) (mess : CMessage) : Int :=
  if mess.head.messageId = Msg.csHeartbeat then fd else loginArg fd user

/-- Whether a message of a connection is processed. -/
def Answered (user : Option Int) (mess : CMessage) : Prop :=
  mess.head.messageId = Msg.csHeartbeat ∨ user.isSome ∨
    mess.head.messageId = Msg.csLogin ∨ mess.head.messageId = Msg.csRegist

instance : Decidable (Answered user mess) := inferInstanceAs (Decidable (_ ∨ _))

theorem dispatch_eq : dispatch env fd mess = (do
    let user := (← get).fdToUserId[fd]?
    if Answered user mess then
      log (.request fd user mess)
      discard (processRequest env (requestArg fd user mess) mess)
    else
      return ()) := by
  simp only [dispatch, Answered, requestArg, loginArg]
  congr 1
  funext s
  split
  · rename_i heartbeat
    rw [if_pos (.inl heartbeat)]
  · rename_i heartbeat
    cases s.fdToUserId[fd]? <;> simp [heartbeat]

/-- Only a login or a heartbeat is processed without a user. -/
theorem user_of_answered (answered : Answered user mess) (heartbeat : mess.head.messageId ≠ Msg.csHeartbeat)
    (login : mess.head.messageId ≠ Msg.csLogin) (regist : mess.head.messageId ≠ Msg.csRegist) :
    ∃ u, user = some u ∧ requestArg fd user mess = u := by
  rcases answered with h | h | h | h
  · exact absurd h heartbeat
  · obtain ⟨u, rfl⟩ := Option.isSome_iff_exists.mp h
    exact ⟨u, rfl, by simp [requestArg, heartbeat, loginArg]⟩
  · exact absurd h login
  · exact absurd h regist

theorem processRequest_spec (st : Stable env base I) (hk : k ++ base = [.handling fd user mess])
    (first : s.trace.head? = some (.request fd user mess)) (conn : s.connects[fd]? = some c)
    (bound : s.fdToUserId[fd]? = user) (answered : Answered user mess) (h : I k s) :
    wp (processRequest env (requestArg fd user mess) mess) (fun _ t => I k t) (Fails I) s := by
  unfold processRequest
  cases hp : Register.boot.processor mess.head.messageId with
  | none => exact wp_throw_of h
  | some type =>
    have use := Register.boot_processor hp
    have asUser : mess.head.messageId ≠ Msg.csHeartbeat → mess.head.messageId ≠ Msg.csLogin →
        mess.head.messageId ≠ Msg.csRegist → ∃ u, user = some u ∧ requestArg fd user mess = u :=
      user_of_answered answered
    cases type <;> simp only [Register.uses, List.mem_cons, Prod.mk.injEq, reduceCtorEq, and_false, and_true,
      List.not_mem_nil, or_false, false_or] at use
    case csHeartbeat =>
      simp only [requestArg, use, if_true]
      exact MP.csHeartbeat_spec st hk h
    case csLogin =>
      have arg : requestArg fd user mess = loginArg fd user := by simp [requestArg, use, Msg.csLogin, Msg.csHeartbeat]
      simp only [arg]
      exact MP.csLogin_spec st hk conn bound use h
    case csRegist =>
      have arg : requestArg fd user mess = loginArg fd user := by simp [requestArg, use, Msg.csRegist, Msg.csHeartbeat]
      simp only [arg]
      exact MP.csRegist_spec st hk conn bound use h
    all_goals
      obtain ⟨u, rfl, arg⟩ := asUser (by rw [use]; decide) (by rw [use]; decide) (by rw [use]; decide)
      simp only [arg]
    case csPullAllRoomInfo => exact MP.csPullAllRoomInfo_spec hk st h
    case csCreateRoom => exact MP.csCreateRoom_spec hk st first bound h
    case csJoinRoom => exact MP.csJoinRoom_spec hk st first bound h
    case csPlayerExitRoom => exact MP.csPlayerExitRoom_spec hk st h
    case csChangeTeam => exact MP.csChangeTeam_spec hk st h
    case csReadyToStart => exact MP.csReadyToStart_spec hk st h
    case csLoadSucceed => exact MP.csLoadSucceed_spec hk st h
    case csChoseRole => exact MP.csChoseRole_spec hk st use h
    case csMove => exact MP.csMove_spec hk st use h
    case csKill => exact MP.csKill_spec hk st use h
    case csSkill => exact MP.csSkill_spec hk st use h
    case csGamePause => exact MP.csGamePause_spec hk st use h
    case csGameEnd => exact MP.csGameEnd_spec hk st use h

/-! ### `ReceiveMessage` -/

theorem Stable.of (step : ∀ {k s k' s'}, Step env k s k' s' → I k s → I k' s') : Stable env [] I where
  step {k _ l _} move h := step (List.append_nil k ▸ List.append_nil l ▸ move) h

/-- Every move leaves the older events as they are. -/
theorem stable_trace (env : Env) (base : List Frame) (s : Server) : Stable env base fun _ t => s.trace <:+ t.trace where
  step move h := h.trans (trace_step move)

theorem dispatch_spec (st : Stable env [] I) (conn : s.connects[fd]? = some c) (h : I [] s) :
    wp (dispatch env fd mess) (fun _ t => I [] t) (Fails I) s := by
  rw [dispatch_eq]
  simp only [wp_bind, wp_get]
  split
  · rename_i answered
    simp only [wp_bind, wp_log, wp_discard]
    have h₁ : I [.handling fd s.fdToUserId[fd]? mess] (s.log (.request fd s.fdToUserId[fd]? mess)) :=
      st.step (k := []) (l := [.handling _ _ _]) (.request mess conn) h
    refine wp_post (processRequest_spec st (k := [.handling _ _ _]) rfl rfl conn rfl answered h₁) fun _ t ht => ?_
    exact st.step (k := [.handling _ _ _]) (l := []) .handled ht
  · exact h

theorem extractMessage_spec (st : Stable env [] I) (h : I [] s) :
    wp (extractMessage fd) (fun size t => I [] t ∧ (size.isSome → ∃ c, t.connects[fd]? = some c)) (Fails I) s := by
  simp only [extractMessage, wp_bind, wp_get]
  split
  · exact wp_throw_of h
  · rename_i c conn
    split
    · rename_i data sock got
      exact ⟨st.step (k := []) (l := []) (.extract conn got) h, fun _ => ⟨c, conn⟩⟩
    · exact ⟨h, fun none => absurd none (by simp)⟩

theorem handleMessage_spec (st : Stable env [] I) (size : Nat) (conn : s.connects[fd]? = some c) (h : I [] s) :
    wp (handleMessage env fd size) (fun _ t => I [] t) (Fails I) s := by
  simp only [handleMessage, wp_bind, wp_get]
  split
  · exact h
  · simp only [wp_bind, wp_pure]
    exact dispatch_spec st conn h

theorem messageLoop_spec (st : Stable env [] I) :
    ∀ fuel cnt s, I [] s → wp (messageLoop env fd fuel cnt) (fun _ t => I [] t) (Fails I) s
  | 0, _, _, h => wp_throw_of h
  | fuel + 1, cnt, s, h => by
    simp only [messageLoop, wp_bind]
    refine wp_post (extractMessage_spec st h) fun size t ⟨ht, live⟩ => ?_
    cases size with
    | none => exact ht
    | some size =>
      obtain ⟨c, conn⟩ := live rfl
      simp only [wp_bind]
      exact wp_post (handleMessage_spec st size conn ht) fun n t' ht' => messageLoop_spec st fuel (cnt + n) t' ht'

theorem readClient_spec (st : Stable env [] I) (conn : s.connects[fd]? = some c) (h : I [] s) :
    wp (readClient env fd c) (fun _ t => I [] t) (Fails I) s := by
  simp only [readClient, recvData, wp_bind, wp_get]
  refine wp_guarded (fun out got => ?_) fun _ _ => .intro h
  simp only [wp_set, wp_pure]
  refine wp_post (messageLoop_spec st _ 0 _ (st.step (k := []) (l := []) (.recv conn got) h)) fun cnt t ht => ?_
  split
  · simp only [wp_bind, wp_pure]
    exact deleteClientByFd_spec st [] fd t .event ht
  · exact ht

theorem acceptNew_spec (st : Stable env [] I) : Spec I [] (acceptNew env) [] := by
  intro s h
  simp only [acceptNew, wp_bind, wp_get]
  cases hsock : getFreeTcpSocket s with
  | mk c s' =>
    simp only
    split
    · rename_i t acc
      simp only [wp_bind, wp_set]
      split
      · rename_i used
        exact st.step (k := []) (l := []) (.acceptLost hsock acc used) h
      · rename_i free
        have h₁ := st.step (k := []) (l := []) (.accept (toInt32 (env.clock t.sys / 1000000)) hsock acc free) h
        simp only [wp_bind, wp_set, Heartbeat.initFd, wp_get]
        simp only [accepted] at h₁
        split
        · rename_i mem
          rwa [if_pos mem] at h₁
        · rename_i mem
          rwa [if_neg mem] at h₁
    · rename_i ret t fails acc
      rw [wp_set]
      refine st.step (k := []) (l := []) (.acceptFail hsock acc ?_) h
      rintro rfl
      exact fails rfl

theorem handleEvent_spec (st : Stable env [] I) (ev : EpollEvent) : Spec I [] (handleEvent env ev) [] := by
  intro s h
  have h₁ : I [] (s.log (.epoll ev)) := st.step (k := []) (l := []) (.epoll ev) h
  simp only [handleEvent, wp_bind, wp_log, wp_get]
  split
  · split
    · simp only [wp_bind, wp_pure]
      exact deleteClientByFd_spec st [] _ _ .event h₁
    · exact h₁
  · split
    · simp only [wp_bind, wp_pure]
      exact acceptNew_spec st _ h₁
    · split
      · exact h₁
      · rename_i c conn
        exact readClient_spec st conn h₁

theorem handleEvents_spec (st : Stable env [] I) :
    ∀ evs cnt, Spec I [] (handleEvents env evs cnt) []
  | [], _, _, h => h
  | ev :: rest, cnt, s, h => by
    simp only [handleEvents, wp_bind]
    exact wp_post (handleEvent_spec st ev s h) fun n t ht => handleEvents_spec st rest (cnt + n) t ht

theorem receiveMessage_spec (st : Stable env [] I) : Spec I [] (receiveMessage env) [] := by
  intro s h
  simp only [receiveMessage, wp_bind, wp_get, wp_set]
  exact handleEvents_spec st _ 0 _ (st.step (k := []) (l := []) (.sys 1) h)

/-! ### `RunOnTick` -/

theorem expireLoop_spec (st : Stable env [] I) (nowsec : Int) :
    ∀ fuel it s, I [] s → wp (Heartbeat.expireLoop env nowsec fuel it) (fun _ t => I [] t) (Fails I) s
  | 0, none, _, h => h
  | 0, some _, _, h => wp_throw_of h
  | fuel + 1, none, _, h => h
  | fuel + 1, some (sec, fd), s, h => by
    simp only [Heartbeat.expireLoop, wp_bind, wp_get]
    split
    · exact wp_throw_of h
    · rename_i mem
      simp only [wp_bind]
      refine wp_sub32 ?_ fun _ => .intro h
      split
      · rename_i late
        simp only [wp_bind, wp_log]
        have h₁ := st.step (k := []) (l := [.expiring _ _]) (.expire (of_not_not mem) late) h
        refine wp_post (deleteClientByFd_spec st [.expiring _ _] fd _ .expire h₁) fun _ t ht => ?_
        exact expireLoop_spec st nowsec fuel _ t (st.step (k := [.expiring _ _]) (l := []) .expired ht)
      · exact h

/-- One turn of `Heartbeat::OnTick` -/
theorem onTick_heartbeat_spec (st : Stable env [] I) (nowsec : Int) : Spec I [] (Heartbeat.onTick env nowsec) [] := by
  intro s h
  simp only [Heartbeat.onTick, wp_bind, wp_get]
  exact expireLoop_spec st nowsec _ _ s h

theorem kickUnloaded_spec (st : Stable env base I) {p : RoomPtr} {i : Nat} (h : I (.timeout p :: k) s)
    (hi : i ≤ (s.room p).playerCnt) :
    wp (Room.kickUnloaded env p i) (fun _ t => I (.timeout p :: k) t) (Fails I) s := by
  simp only [Room.kickUnloaded, wp_bind, wp_getRoom]
  split
  · rename_i hslot
    simp only [Bool.and_eq_true, Bool.not_eq_true'] at hslot
    have h₁ := st.step (k := .timeout p :: k) (l := .kickSlot p i :: .timeout p :: k)
      (.kickSlot hi hslot.1 hslot.2) h
    have done : ∀ t, I (.kickSlot p i :: .timeout p :: k) t → I (.timeout p :: k) t :=
      fun t ht => st.step (k := .kickSlot p i :: .timeout p :: k) .kickedSlot ht
    simp only [deleteClientByUserId, wp_bind, wp_get]
    split
    · exact done s h₁
    · rename_i fd bound
      exact wp_post (deleteClientByFd_spec st _ fd s (.slot bound) h₁) fun _ t ht => done t ht
  · exact h

theorem onTick_room_spec (st : Stable env [] I) {id : Int} {p : RoomPtr} {rooms : Map RoomPtr} :
    Spec I [.ticking id p rooms] (Room.onTick env p) [.ticking id p rooms] := by
  intro s h
  have step := fun k' {s t} (hs : I [.ticking id p rooms] s) (move : Step env [.ticking id p rooms] s k' t) =>
    st.step (k := [.ticking id p rooms]) (l := k') (by rwa [List.append_nil, List.append_nil]) hs
  simp only [Room.onTick, wp_bind, wp_getRoom]
  cases status : (s.room p).status with
  | waiting => exact h
  | loading =>
    have h₁ := step [.ticking id p rooms] h (.sys 1)
    simp only [wp_bind, wp_getNowTimeSecond]
    refine wp_sub32 ?_ fun _ => .intro h₁
    split
    · rename_i late
      simp only [wp_bind, wp_log]
      have h₂ := step [.timeout p, .ticking id p rooms] h₁ (.timeout status late)
      refine wp_post (Room.forSlots_spec (K := fun _ => [.timeout p, .ticking id p rooms])
        (fun i s hs hi => kickUnloaded_spec st hs hi) maxPlayerCnt 1 _ h₂) fun _ t ⟨_, ht, _⟩ => ?_
      refine Room.sendGameStart_spec st (deleteClientByFd_spec st) (fun loading => ?_) fun idle => ?_
      · exact st.step (k := [.timeout p, .ticking id p rooms]) (l := [.starting p false, .ticking id p rooms])
          (.timeoutStart loading) ht
      · exact st.step (k := [.timeout p, .ticking id p rooms]) (l := [.ticking id p rooms]) (.timeoutEnd idle) ht
    · exact h₁
  | ingame =>
    have h₁ := step [.ticking id p rooms] h (.sys 1)
    simp only [Syn.run, wp_bind, wp_getNowTimeUs, wp_modifyRoom]
    exact Syn.runLoop_spec st (deleteClientByFd_spec st) _ _
      (step [.running p, .ticking id p rooms] h₁ (.runBegin _ status))

/-! ### The rooms of a tick -/

/-- The tick that an activation is. -/
def Frame.tick? : Frame → Option (Int × RoomPtr × Map RoomPtr)
  | .ticking id p rooms => some (id, p, rooms)
  | _ => none

/-- A tick of a room knows all rooms. -/
def Snapshot (k : List Frame) (s : Server) : Prop :=
  ∀ tick ∈ k.filterMap Frame.tick?, s.rooms = tick.2.2 ∧ tick.2.2[tick.1]? = some tick.2.1

theorem Room.departing_tick (u : Int) (p : RoomPtr) (r : Room) : (r.departing u p).tick? = none := by
  unfold Room.departing
  split <;> rfl

theorem snapshot_step {k' : List Frame} {s' : Server} (move : Step env k s k' s') (h : Snapshot k s) :
    Snapshot k' s' := by
  cases move with
  | tickBegin room =>
    rintro tick (_ | ⟨_, ⟨⟩⟩)
    exact ⟨rfl, room⟩
  | drop _ _ =>
    obtain ⟨_, _, _, _, _, hs⟩ := dropConnection_eq _ _ s
    rw [hs]
    exact h
  | left =>
    rw [PersonManager.changePersonStatus_eq]
    exact h
  | leave _ _ _ _ =>
    unfold Snapshot
    rw [List.filterMap_cons_none (Room.departing_tick _ _ _)]
    exact h
  | everyone may => cases may <;> exact h
  | _ => first | exact h | exact fun _ hm => absurd hm List.not_mem_nil

theorem Config.snapshot (h : Config env k s) : Snapshot k s := by
  induction h with
  | boot => exact fun _ hm => absurd hm List.not_mem_nil
  | step _ move ih => exact snapshot_step move ih

/-- What one turn of `RoomManager::OnTick` leaves of the other rooms. -/
theorem tickRoom_rooms (st : Stable env [] I) {id : Int} {p : RoomPtr} (room : s.rooms[id]? = some p) (h : I [] s) :
    wp (RoomManager.tickRoom env id p)
      (fun _ t => I [] t ∧ (t.rooms = s.rooms ∨ t.rooms = s.rooms.erase id)) (Fails I) s := by
  have snap : Stable env [] Snapshot := .of snapshot_step
  have begin : Snapshot [.ticking id p s.rooms] s := by
    rintro tick (_ | ⟨_, ⟨⟩⟩)
    exact ⟨rfl, room⟩
  have h₁ := st.step (k := []) (l := [.ticking id p s.rooms]) (.tickBegin room) h
  simp only [RoomManager.tickRoom, wp_bind]
  refine wp_mono (onTick_room_spec (st.and snap) s ⟨h₁, begin⟩) (fun _ t ⟨ht, rooms⟩ => ?_)
    fun e t ⟨k, ht⟩ => ⟨k, ht.1⟩
  have rooms : t.rooms = s.rooms := (rooms _ List.mem_cons_self).1
  simp only [wp_getRoom]
  split
  · rename_i empty
    exact ⟨st.step (k := [.ticking id p s.rooms]) (l := []) (.recycle empty) ht, .inr (rooms ▸ rfl)⟩
  · rename_i stays
    exact ⟨st.step (k := [.ticking id p s.rooms]) (l := []) (.tickEnd (Int.lt_of_not_ge stays)) ht, .inl rooms⟩

theorem tickRooms_spec (st : Stable env [] I) :
    ∀ (list : List (Int × RoomPtr)) (s : Server), (list.map Prod.fst).Nodup →
      (∀ entry ∈ list, s.rooms[entry.1]? = some entry.2) → I [] s →
        wp (RoomManager.tickRooms env list) (fun _ t => I [] t) (Fails I) s
  | [], _, _, _, h => h
  | (id, p) :: rest, s, nodup, live, h => by
    simp only [List.map_cons, List.nodup_cons, List.mem_map, not_exists, not_and] at nodup
    simp only [RoomManager.tickRooms, wp_bind]
    refine wp_post (tickRoom_rooms st (live _ List.mem_cons_self) h) fun _ t ⟨ht, rooms⟩ => ?_
    refine tickRooms_spec st rest t nodup.2 (fun entry hentry => ?_) ht
    have here := live entry (List.mem_cons_of_mem _ hentry)
    rcases rooms with rooms | rooms
    · rwa [rooms]
    · have ne : id ≠ entry.1 := fun heq => nodup.1 entry hentry heq.symm
      rw [rooms, Std.ExtTreeMap.getElem?_erase]
      simpa [ne] using here

theorem runOnTick_spec (st : Stable env [] I) : Spec I [] (runOnTick env) [] := by
  intro s h
  simp only [runOnTick, RoomManager.onTick, wp_bind, wp_get]
  refine wp_post (tickRooms_spec st _ s ?_ (fun entry hentry => ?_) h) fun _ t ht => ?_
  · rw [Std.ExtTreeMap.map_fst_toList_eq_keys]
    exact Std.ExtTreeMap.nodup_keys
  · exact Std.ExtTreeMap.mem_toList_iff_getElem?_eq_some.mp hentry
  · have h₁ := st.step (k := []) (l := []) (.sys 1) ht
    simp only [wp_getNowTimeSecond]
    refine wp_sub32 ?_ fun _ => .intro h₁
    split
    · exact h₁
    · simp only [wp_bind, wp_set]
      exact onTick_heartbeat_spec st _ _ (st.step (k := []) (l := []) (.presec _) h₁)

/-! ### Runs -/

/-- Between two calls of the main loop nothing is pending. -/
theorem Reachable.config (h : Reachable env s) : Config env [] s := by
  have st : Stable env [] (Config env) := .of fun move h => h.step move
  induction h with
  | boot booted => exact .boot booted
  | tick _ run ih => exact wp_ok (c := runOnTick env) (runOnTick_spec st _ ih) run
  | receive _ run ih => exact wp_ok (c := receiveMessage env) (receiveMessage_spec st _ ih) run

/-- Also a call that ends the run ends it in a configuration. -/
theorem Visited.config (h : Visited env s) : ∃ k, Config env k s := by
  have st : Stable env [] (Config env) := .of fun move h => h.step move
  cases h with
  | reach reached => exact ⟨[], reached.config⟩
  | tick reached run => exact wp_error (runOnTick_spec st _ reached.config) run
  | receive reached run => exact wp_error (receiveMessage_spec st _ reached.config) run

end

end IslandSurvival
