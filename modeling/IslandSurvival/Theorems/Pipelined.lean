import IslandSurvival.Theorems.Draining
import IslandSurvival.Theorems.Failures

/-! Messages that a client sends in a row. The loop of `ReceiveMessage` takes one after the other out of
    `m_connects[fd]` without a look at whether the last one has deleted the connection; it does so exactly when a write
    to the client fails meanwhile. -/

namespace IslandSurvival

open Prog

/-! ### The processors -/

/-- `c` deletes the connections on which a write fails, and uses none that is not there. -/
def Handles {α : Type} (c : M α) : Prop :=
  ∀ s, wp c (fun _ t => Falls s t) (fun e _ => e ≠ .fuel ∧ ∀ fd, e ≠ .nullSocket fd) s

namespace Handles

variable {α β : Type} {c : M α}

theorem pure {a : α} : Handles (pure a : M α) := Falls.refl

theorem throw {e : Fault} (fuel : e ≠ .fuel) (other : ∀ fd, e ≠ .nullSocket fd) : Handles (throw e : M α) :=
  fun _ => ⟨fuel, other⟩

/-- From a later state -/
theorem later (hc : Handles c) {s t : Server} (falls : Falls s t) :
    wp c (fun _ u => Falls s u) (fun e _ => e ≠ .fuel ∧ ∀ fd, e ≠ .nullSocket fd) t :=
  wp_post (hc t) fun _ _ => falls.trans

theorem bind {f : α → M β} (hc : Handles c) (hf : ∀ a, Handles (f a)) : Handles (c >>= f) := by
  intro s
  rw [wp_bind]
  exact wp_post (hc s) fun a t falls => (hf a).later falls

theorem get : Handles (get : M Server) := Falls.refl

theorem discard (hc : Handles c) : Handles (discard c) := bind hc fun _ => pure

theorem ite {b : Prop} [Decidable b] {d : M α} (hc : Handles c) (hd : Handles d) : Handles (if b then c else d) := by
  split
  · exact hc
  · exact hd

theorem modify {f : Server → Server} (falls : ∀ s, Falls s (f s)) : Handles (modify f) := falls

theorem log {e : Event} (closed : closes [e] = []) (failed : failures [e] = []) : Handles (log e) := by
  refine modify fun s => .keeps rfl ?_ ?_
  · cases e <;> first | rfl | simp [closes] at closed
  · cases e <;> first | rfl | simp [failures] at failed

theorem now {env : Env} : Handles (getNowTimeUs env) := fun _ => .keeps rfl rfl rfl

theorem getRoom {p : RoomPtr} : Handles (getRoom p) := bind get fun _ => pure

theorem modifyRoom {p : RoomPtr} {f : Room → Room} : Handles (modifyRoom p f) := modify fun _ => .keeps rfl rfl rfl

/-- What the functions of the circle do -/
theorem of_within (within : ∀ n, ∃ c', Within n c c') (calm : Calm c) : Handles c := by
  intro s
  obtain ⟨c', same⟩ := within s.connects.size
  refine wp_mono (wp_and (same s (Nat.le_refl _)).2 (calm s)) (fun _ t ends => ends.1) fun e t stops => ?_
  obtain ⟨⟨fuel, -⟩, numeric⟩ := stops
  refine ⟨fuel, fun fd => ?_⟩
  rintro rfl
  simp [Fault.Numeric] at numeric

end Handles

variable {env : Env}

theorem sendMessageToEveryone_handles (p : RoomPtr) (mess : CMessage) :
    Handles (Room.sendMessageToEveryone env (deleteClientByFd env) p mess) :=
  .of_within (fun n => ⟨_, Room.sendMessageToEveryone_within (deleteClientByFd_deleters n) p mess⟩)
    (Room.sendMessageToEveryone_calm deleteClientByFd_calm p mess)

theorem deletePlayerFromRoom_handles (u : Int) : Handles (RoomManager.deletePlayerFromRoom env (deleteClientByFd env) u) :=
  .of_within (fun n => ⟨_, RoomManager.deletePlayerFromRoom_within (deleteClientByFd_deleters n) u⟩)
    (RoomManager.deletePlayerFromRoom_calm deleteClientByFd_calm u)

theorem sendGameStart_handles (p : RoomPtr) : Handles (Room.sendGameStart env (deleteClientByFd env) p) :=
  .of_within (fun n => ⟨_, Room.sendGameStart_within (deleteClientByFd_deleters n) p⟩)
    (Room.sendGameStart_calm deleteClientByFd_calm p)

theorem sendGameLoading_handles (p : RoomPtr) : Handles (Room.sendGameLoading env (deleteClientByFd env) p) := by
  refine .bind .getRoom fun _ => .ite .pure fun s => ?_
  simp only [wp_bind, wp_get, wp_set]
  have sys : Falls s (s.tickSys 1) := .keeps rfl rfl rfl
  refine wp_post ((sendMessageToEveryone_handles p _).later sys) fun _ t falls => ?_
  simp only [wp_getNowTimeSecond, wp_modify]
  exact falls.trans (.keeps rfl rfl rfl)

theorem getNowFrame_handles (p : RoomPtr) : Handles (Syn.getNowFrame env p) :=
  .of_within (fun _ => ⟨_, Syn.getNowFrame_within p⟩) (Syn.getNowFrame_calm p)

theorem addTo_handles (p : RoomPtr) (mess : CMessage) : Handles (Syn.addTo env p mess) :=
  .of_within (fun _ => ⟨_, Syn.addTo_within p mess⟩) (Syn.addTo_calm p mess)

namespace Login

theorem realQuery_handles (sql : Bytes) : Handles (realQuery env sql) := fun _ => .keeps rfl rfl rfl

theorem queryUserId_handles (name : Bytes) (done : LoginResult) : Handles (queryUserId env name done) := by
  refine .bind (realQuery_handles _) fun answer => ?_
  split
  · exact .bind .get fun _ => .pure
  · refine .bind ?_ fun _ => .pure
    unfold readUserId
    split
    · exact .bind .get fun _ => .pure
    · exact .throw (by simp) (by simp)

theorem loginRequest_handles (name passwd : Bytes) : Handles (loginRequest env name passwd) := by
  refine .bind (realQuery_handles _) fun answer => ?_
  split
  · exact .bind .get fun _ => .pure
  · exact .bind .get fun _ => .pure
  · split
    · exact .ite (.bind .get fun _ => .pure) (queryUserId_handles _ _)
    · exact .throw (by simp) (by simp)

theorem newUserRegist_handles (name passwd : Bytes) : Handles (newUserRegist env name passwd) := by
  refine .bind (realQuery_handles _) fun answer => ?_
  split
  · exact .bind .get fun _ => .pure
  · exact .bind .get fun _ => .pure
  · refine .bind (realQuery_handles _) fun answer => ?_
    split
    · exact .bind .get fun _ => .pure
    · exact queryUserId_handles _ _

end Login

namespace MP

variable {userId : Int} {mess : CMessage}

theorem send_handles (userId : Int) (mess : CMessage) : Handles (send env userId mess) :=
  .discard (.of_within (fun n => ⟨_, sendMessageToClient_within (deleteClientByFd_deleters n) userId mess⟩)
    (sendMessageToClient_calm deleteClientByFd_calm userId mess))

theorem sendByConnfd_handles (fd : Int) (mess : CMessage) : Handles (sendByConnfd env fd mess) := by
  refine .discard fun s => ?_
  refine wp_mono (wp_and (sendMessageByConnfd_live fd mess s) (sendMessageByConnfd_calm fd mess s)) (fun _ t sent => sent.1.1)
    fun e t stops => ?_
  obtain ⟨⟨fuel, -⟩, numeric⟩ := stops
  refine ⟨fuel, fun fd' => ?_⟩
  rintro rfl
  simp [Fault.Numeric] at numeric

/-- An account check that succeeded -/
theorem entered_handles (fd userId : Int) (id : Bytes) (done failed : CMessage) :
    Handles (do
      match PersonManager.personLogin userId id (← get) with
      | (.success, s) =>
        set s
        modify fun s => (playerLogin fd userId s).2
        send env userId done
      | _ => sendByConnfd env fd failed) := by
  intro s
  simp only [wp_bind, wp_get]
  cases person : PersonManager.personLogin userId id s with
  | mk ret t =>
    cases ret with
    | success =>
      simp only [wp_bind, wp_set, wp_modify]
      refine (send_handles userId done).later ?_
      obtain ⟨_, _, _, trace, hs⟩ := @entered _ _ fd _ _ person
      have same := @entered_trace _ _ fd _ _ person
      rw [hs] at same ⊢
      rcases same with rfl | rfl
      · exact .keeps rfl rfl rfl
      · exact .keeps rfl rfl rfl
    | fail => exact sendByConnfd_handles fd failed s
    | error => exact sendByConnfd_handles fd failed s

theorem enter_handles (fd : Int) (id : Bytes) (reply : Int → CMessage) (outcome : LoginResult × Int) :
    Handles (enter env fd id reply outcome) := by
  unfold enter
  split
  · exact entered_handles _ _ _ _ _
  · exact entered_handles _ _ _ _ _
  · exact sendByConnfd_handles _ _
  · exact sendByConnfd_handles _ _
  · exact sendByConnfd_handles _ _

theorem csLogin_handles : Handles (csLogin env userId mess) := by
  unfold csLogin
  split
  · exact .bind (Login.loginRequest_handles _ _) fun _ => .bind (enter_handles _ _ _ _) fun _ => .pure
  · exact .throw (by simp) (by simp)

theorem csRegist_handles : Handles (csRegist env userId mess) := by
  unfold csRegist
  split
  · exact .bind (Login.newUserRegist_handles _ _) fun _ => .bind (enter_handles _ _ _ _) fun _ => .pure
  · exact .throw (by simp) (by simp)

theorem csHeartbeat_handles : Handles (csHeartbeat env userId) := by
  refine .bind (fun s => ?_) fun _ => .pure
  simp only [Heartbeat.updateFd, wp_bind, wp_get]
  cases old : Heartbeat.erase userId s with
  | mk ret t =>
    obtain ⟨_, _, rfl⟩ := Heartbeat.erased old
    cases ret with
    | success => exact .keeps rfl rfl rfl
    | fail => exact .refl s
    | error => exact .refl s

/-! #### Rooms -/

theorem csPullAllRoomInfo_handles : Handles (csPullAllRoomInfo env userId) :=
  .bind .get fun _ => .bind (send_handles _ _) fun _ => .pure

theorem addPlayer_handles (p : RoomPtr) (u : Int) : Handles (Room.addPlayer p u) := by
  refine .bind .getRoom fun r => .ite (.ite .pure (.bind (.modify fun s => ?_) fun _ => .pure)) .pure
  rw [PersonManager.changePersonStatus_eq]
  exact .keeps rfl rfl rfl

theorem createRoom_handles (u gameMode teamMode : Int) : Handles (RoomManager.createRoom u gameMode teamMode) := by
  intro s
  simp only [RoomManager.createRoom, wp_bind, wp_get]
  split
  · exact .refl s
  · cases takes : RoomManager.takeRoom s with
    | mk p rest =>
      obtain ⟨roomId, t⟩ := rest
      have taken : t.connects = s.connects ∧ t.trace = s.trace := by
        unfold RoomManager.takeRoom at takes
        split at takes
        all_goals
          obtain ⟨-, -, rfl⟩ : _ ∧ _ ∧ _ = t := by simpa using takes
          exact ⟨rfl, rfl⟩
      simp only [wp_bind, wp_set, wp_discard]
      refine wp_post ((addPlayer_handles p u).later ?_) fun _ t' falls => falls
      have closed : closes t.trace = closes s.trace := congrArg closes taken.2
      have failed : failures t.trace = failures s.trace := congrArg failures taken.2
      exact .keeps taken.1 closed failed

theorem joinRoom_handles (u roomId : Int) : Handles (RoomManager.joinRoom u roomId) := by
  refine .bind .get fun s => ?_
  split
  · exact .pure
  · refine .ite .pure (.bind (addPlayer_handles _ _) fun ret => .ite ?_ .pure)
    exact .bind (.modify fun _ => .keeps rfl rfl rfl) fun _ => .pure

theorem csCreateRoom_handles : Handles (csCreateRoom env userId mess) := by
  unfold csCreateRoom
  split
  · refine .bind (createRoom_handles _ _ _) fun result => ?_
    split
    · exact .bind (send_handles _ _) fun _ => .bind .get fun _ => .bind (send_handles _ _) fun _ => .pure
    · exact .bind (send_handles _ _) fun _ => .pure
  · exact .throw (by simp) (by simp)

theorem csJoinRoom_handles : Handles (csJoinRoom env userId mess) := by
  unfold csJoinRoom
  split
  · refine .bind (joinRoom_handles _ _) fun result => .ite .pure (.bind (send_handles _ _) fun _ => .ite ?_ .pure)
    refine .bind .get fun s => ?_
    split
    · exact .throw (by simp) (by simp)
    · exact .bind (sendMessageToEveryone_handles _ _) fun _ => .pure
  · exact .throw (by simp) (by simp)

theorem csPlayerExitRoom_handles : Handles (csPlayerExitRoom env userId) := by
  refine .bind .get fun s => ?_
  split
  · exact .throw (by simp) (by simp)
  · refine .bind .getRoom fun _ => .ite ?_ (.bind (sendMessageToEveryone_handles _ _) fun _ => .pure)
    exact .bind (deletePlayerFromRoom_handles _) fun _ => .bind (sendMessageToEveryone_handles _ _) fun _ => .pure

theorem csChangeTeam_handles : Handles (csChangeTeam env userId mess) := by
  unfold csChangeTeam
  split
  · refine .bind .get fun s => ?_
    split
    · exact .pure
    · refine .bind .getRoom fun _ => .ite .pure ?_
      refine .bind (.modify fun _ => ?_) fun _ => .bind .get fun _ => .bind (sendMessageToEveryone_handles _ _) fun _ => .pure
      exact .keeps rfl rfl rfl
  · exact .throw (by simp) (by simp)

/-! #### The game -/

theorem csReadyToStart_handles : Handles (csReadyToStart env userId) := by
  refine .bind .get fun s => ?_
  split
  · exact .pure
  · exact .bind .getRoom fun _ => .ite .pure (.bind (sendGameLoading_handles _) fun _ => .pure)

theorem csLoadSucceed_handles : Handles (csLoadSucceed env userId) := by
  refine .bind .get fun s => ?_
  split
  · exact .pure
  · refine .bind .getRoom fun _ => .ite (.bind ?_ fun _ => .ite (.bind (sendGameStart_handles _) fun _ => .pure) .pure) .pure
    refine .bind .getRoom fun _ => .ite (.bind (.discard (deletePlayerFromRoom_handles _)) fun _ => .pure) ?_
    exact .ite .pure (.ite .pure (.bind (.modify fun _ => .keeps rfl rfl rfl) fun _ => .pure))

theorem relay_handles {room : Server → Option RoomPtr} {failed : Int} {reply : RoomPtr → Nat → M CMessage}
    (h : ∀ p playerId, Handles (reply p playerId)) : Handles (relay env room failed userId reply) := by
  refine .bind .get fun s => ?_
  split
  · exact .pure
  · exact .bind .getRoom fun _ => .ite .pure (.bind (h _ _) fun _ => .bind (addTo_handles _ _) fun _ => .pure)

theorem csChoseRole_handles : Handles (csChoseRole env userId mess) := by
  unfold csChoseRole
  split
  · exact relay_handles fun p _ => .bind (getNowFrame_handles p) fun _ => .pure
  · exact .throw (by simp) (by simp)

theorem csMove_handles : Handles (csMove env userId mess) := by
  unfold csMove
  split
  · exact relay_handles fun _ _ => .pure
  · exact .throw (by simp) (by simp)

theorem csKill_handles : Handles (csKill env userId mess) := by
  unfold csKill
  split
  · exact relay_handles fun _ _ => .pure
  · exact .throw (by simp) (by simp)

theorem csSkill_handles : Handles (csSkill env userId mess) := by
  unfold csSkill
  split
  · exact relay_handles fun _ _ => .pure
  · exact .throw (by simp) (by simp)

theorem csGamePause_handles : Handles (csGamePause env userId mess) := relay_handles fun _ _ => .pure

theorem gameEnd_handles (p : RoomPtr) (u : Int) : Handles (Room.gameEnd p u) := by
  refine .bind .getRoom fun r => .bind (.log rfl rfl) fun _ => .ite (.ite (.bind (.modify fun s => ?_) fun _ => .pure) .pure) .pure
  rw [PersonManager.changePersonStatus_eq]
  exact .keeps rfl rfl rfl

theorem csGameEnd_handles : Handles (csGameEnd env userId) := by
  refine .bind .get fun s => ?_
  split
  · exact .pure
  · refine .bind (getNowFrame_handles _) fun _ => .bind (send_handles _ _) fun _ => .bind (.discard ?_) fun _ => .pure
    refine .bind .get fun s => ?_
    split
    · exact .pure
    · exact .bind (.modify fun _ => .keeps rfl rfl rfl) fun _ => gameEnd_handles _ _

end MP

theorem processRequest_handles (arg : Int) (mess : CMessage) : Handles (processRequest env arg mess) := by
  unfold processRequest
  cases Register.boot.processor mess.head.messageId with
  | none => exact .throw (by simp) (by simp)
  | some type =>
    cases type with
    | csLogin => exact MP.csLogin_handles
    | csRegist => exact MP.csRegist_handles
    | csHeartbeat => exact MP.csHeartbeat_handles
    | csPullAllRoomInfo => exact MP.csPullAllRoomInfo_handles
    | csCreateRoom => exact MP.csCreateRoom_handles
    | csJoinRoom => exact MP.csJoinRoom_handles
    | csPlayerExitRoom => exact MP.csPlayerExitRoom_handles
    | csChangeTeam => exact MP.csChangeTeam_handles
    | csReadyToStart => exact MP.csReadyToStart_handles
    | csLoadSucceed => exact MP.csLoadSucceed_handles
    | csChoseRole => exact MP.csChoseRole_handles
    | csMove => exact MP.csMove_handles
    | csKill => exact MP.csKill_handles
    | csSkill => exact MP.csSkill_handles
    | csGamePause => exact MP.csGamePause_handles
    | csGameEnd => exact MP.csGameEnd_handles

variable {fd : Int} {c : SockPtr} {s t : Server} {mess : CMessage}

theorem dispatch_handles (fd : Int) (mess : CMessage) : Handles (dispatch env fd mess) := by
  rw [dispatch_eq]
  exact .bind .get fun _ => .ite (.bind (.log rfl rfl) fun _ => .discard (processRequest_handles _ _)) .pure

theorem handleMessage_handles (fd : Int) (size : Nat) : Handles (handleMessage env fd size) := by
  refine .bind .get fun s => ?_
  split
  · exact .pure
  · exact .bind (dispatch_handles _ _) fun _ => .pure

/-! ### The loop -/

/-- From `s` to `t`, a `SendMessageToClient` to `fd` failed. -/
def WriteFailed (fd : Int) (s t : Server) : Prop := ∃ events, t.trace = events ++ s.trace ∧ fd ∈ failures events

theorem WriteFailed.iff {events : List Event} (trace : t.trace = events ++ s.trace) :
    WriteFailed fd s t ↔ fd ∈ failures events := by
  constructor
  · rintro ⟨events', trace', failed⟩
    rw [trace] at trace'
    rwa [List.append_cancel_right trace']
  · exact fun failed => ⟨events, trace, failed⟩

/-- From `s` to `t`, the connections that were deleted are those on which a write failed. -/
structure Settles (s t : Server) : Prop where
  falls : Falls s t
  trace : s.trace <:+ t.trace
  closed : ∀ fd ∈ s.connects, fd ∉ t.connects → WriteFailed fd s t

namespace Settles

theorem refl (s : Server) : Settles s s := ⟨.refl s, List.suffix_rfl, fun _ mem gone => absurd mem gone⟩

theorem trans {u : Server} (h : Settles s t) (h' : Settles t u) : Settles s u := by
  refine ⟨h.falls.trans h'.falls, h.trace.trans h'.trace, fun fd mem gone => ?_⟩
  obtain ⟨earlier, first⟩ := h.trace
  obtain ⟨later, second⟩ := h'.trace
  have whole : u.trace = (later ++ earlier) ++ s.trace := by rw [← second, ← first, List.append_assoc]
  rw [WriteFailed.iff whole, failures_append, List.mem_append]
  by_cases here : fd ∈ t.connects
  · exact .inl ((WriteFailed.iff second.symm).mp (h'.closed fd here gone))
  · exact .inr ((WriteFailed.iff first.symm).mp (h.closed fd mem here))

/-- A connection that is still there has had no failed write. -/
theorem sound (h : Settles s t) (conn : fd ∈ t.connects) : ¬WriteFailed fd s t := by
  rintro ⟨events, trace, mem⟩
  obtain ⟨failed, trace', gone⟩ := h.falls.failed
  rw [trace, failures_append] at trace'
  exact gone fd (List.append_cancel_right trace' ▸ mem) conn

end Settles

/-- What processing a message does to the connections -/
theorem dispatch_settles (conn : s.connects[fd]? = some c) :
    wp (dispatch env fd mess) (fun _ t => Settles s t) (fun _ _ => True) s := by
  have deletes : wp (dispatch env fd mess) (fun _ t => ∃ events, DeletesBy events s (fun _ => False) [] t) (fun _ _ => True) s := by
    rw [dispatch_eq]
    simp only [wp_bind, wp_get]
    split
    · rename_i answered
      simp only [wp_bind, wp_log, wp_discard]
      have may : Bottom (fun _ => False) (.handling fd s.fdToUserId[fd]? mess) := trivial
      have begins : ∃ events, DeletesBy events s (fun _ => False) [.handling fd s.fdToUserId[fd]? mess]
          (s.log (.request fd s.fdToUserId[fd]? mess)) :=
        DeletesBy.log (.refl s rfl) rfl rfl rfl (List.Subset.refl _)
      refine wp_mono (processRequest_spec (k := []) (stable_deletesBy env s may) rfl rfl conn rfl answered
        ⟨.outer .request, begins⟩) (fun _ t ends => ?_) fun _ _ _ => trivial
      obtain ⟨-, events, deletes⟩ := ends
      exact deletes.same rfl rfl (List.Subset.refl _)
    · exact ⟨[], .refl s rfl⟩
  refine wp_mono (wp_and (dispatch_handles fd mess s) deletes) (fun _ t ends => ?_) fun _ _ _ => trivial
  obtain ⟨falls, events, deletes⟩ := ends
  refine ⟨falls, ⟨events, deletes.trace.symm⟩, fun fd' mem gone => ⟨events, deletes.trace, ?_⟩⟩
  exact ((deletes.closed fd' mem).resolve_left gone).resolve_left id

theorem handleMessage_settles (size : Nat) (conn : s.connects[fd]? = some c) :
    wp (handleMessage env fd size) (fun _ t => Settles s t) (fun _ _ => True) s := by
  simp only [handleMessage, wp_bind, wp_get]
  split
  · exact .refl s
  · simp only [wp_bind, wp_pure]
    exact dispatch_settles conn

/-- `get_one_message` of `m_connects[fd]` -/
theorem extractMessage_settles (pool : Pool s) :
    wp (extractMessage fd)
      (fun size t => Pool t ∧ Settles s t ∧ ∃ c, s.connects[fd]? = some c ∧ t.connects[fd]? = some c ∧
        (size.isSome → (t.sock c).unread.length < (s.sock c).unread.length))
      (fun e t => e = .nullSocket fd ∧ t = s ∧ fd ∉ s.connects) s := by
  simp only [extractMessage, wp_bind, wp_get]
  cases conn : s.connects[fd]? with
  | none => exact ⟨rfl, rfl, Map.notMem_of_getElem? conn⟩
  | some c =>
    simp only
    cases next : (TcpSocket.cutter maxMessageLen).next (s.sock c).unread with
    | none =>
      obtain ⟨ret, fails, got⟩ := TcpSocket.getOneMessage_none next
      rw [got]
      cases ret with
      | success => exact absurd rfl fails
      | fail => exact ⟨pool, .refl s, c, rfl, conn, by simp⟩
      | error => exact ⟨pool, .refl s, c, rfl, conn, by simp⟩
    | some n =>
      have got := TcpSocket.getOneMessage_some next
      obtain ⟨pos, fits⟩ := (TcpSocket.cutter maxMessageLen).fits next
      rw [got]
      refine ⟨pool_step (@Step.extract Script.quiet _ _ _ _ _ conn got) pool, ?_, c, rfl, conn, fun _ => ?_⟩
      · exact ⟨.keeps rfl rfl rfl, List.suffix_cons _ _, fun _ mem gone => absurd mem gone⟩
      · show (Function.update s.sock c { s.sock c with recvHead := (s.sock c).recvHead + n } c).unread.length < _
        rw [TcpSocket.length_unread] at fits ⊢
        rw [Function.update_self, TcpSocket.length_unread]
        simp only
        omega

/-- The loop goes on as long as the connection is there. -/
theorem messageLoop_settles (before : fd ∈ s.connects) : ∀ (fuel cnt : Nat) (t : Server), Pool t → Settles s t → 1 ≤ fuel →
    (∀ c, t.connects[fd]? = some c → (t.sock c).unread.length < fuel) →
      wp (messageLoop env fd fuel cnt)
        (fun _ u => ¬WriteFailed fd s u ∧ fd ∈ u.connects ∧ ∀ fd', fd' ∈ u.connects → fd' ∈ s.connects)
        (fun e u => e = .nullSocket fd ∧ WriteFailed fd s u ∨ e ≠ .fuel ∧ ∀ fd', e ≠ .nullSocket fd') t
  | 0, _, _, _, _, pos, _ => absurd pos (by decide)
  | fuel + 1, cnt, t, pool, settles, _, enough => by
    simp only [messageLoop, wp_bind]
    refine wp_mono (extractMessage_settles pool) (fun size t₁ extracted => ?_) fun e u missing => ?_
    · obtain ⟨pool₁, settles₁, c, conn, conn₁, fewer⟩ := extracted
      have settled := settles.trans settles₁
      cases size with
      | none =>
        have there := Map.mem_of_getElem? conn₁
        exact ⟨settled.sound there, there, fun _ mem => by_contra fun absent => settled.falls.shrinks.absent absent mem⟩
      | some size =>
        simp only [wp_bind]
        have handled := wp_and (handleMessage_settles size conn₁) (handleMessage_unread env pool₁ size conn₁)
        refine wp_mono (wp_and handled (handleMessage_handles fd size t₁)) (fun n t₂ ends => ?_) fun e u stops => ?_
        · obtain ⟨⟨settles₂, pool₂, keeps⟩, -⟩ := ends
          have short := fewer rfl
          have bound := enough c conn
          refine messageLoop_settles before fuel (cnt + n) t₂ pool₂ (settled.trans settles₂) (by omega) fun c' conn₂ => ?_
          obtain ⟨conn', unread⟩ := keeps fd c' conn₂
          obtain rfl : c = c' := Option.some.inj (conn₁.symm.trans conn')
          rw [unread]
          omega
        · exact .inr stops.2
    · obtain ⟨rfl, rfl, gone⟩ := missing
      exact .inl ⟨rfl, settles.closed fd before gone⟩

/-- At any moment between two events, and whatever bytes the client has sent: if the message loop returns, then no
    `SendMessageToClient` to the client has failed meanwhile, the client is still there and nobody else has come, and if
    it asks a connection that is gone for a message, then one has failed. (A failed `SendMessageByConnfd`, as for a login
    that is refused, deletes nothing.) -/
theorem message_loop_connected (h : Config env [] s) (conn : s.connects[fd]? = some c) :
    wp (messageLoop env fd ((s.sock c).unread.length + 1) 0)
      (fun _ t => ¬WriteFailed fd s t ∧ fd ∈ t.connects ∧ ∀ fd', fd' ∈ t.connects → fd' ∈ s.connects)
      (fun e t => e = .nullSocket fd ∧ WriteFailed fd s t ∨ e ≠ .fuel ∧ ∀ fd', e ≠ .nullSocket fd') s := by
  refine messageLoop_settles (Map.mem_of_getElem? conn) _ 0 s h.pool (.refl s) (Nat.le_add_left _ _) fun c' conn' => ?_
  obtain rfl : c = c' := Option.some.inj (conn.symm.trans conn')
  exact Nat.lt_succ_self _

/-- A client sends two logins in a row, and every write to it fails. -/
def Script.deafClient : Env := { sends (request 0 ++ request 0) with send := fun _ => .error }

/-- The reply to the first login deletes the connection that the second one is then looked for in. -/
theorem deleted_client_asked : ∃ s t, Reachable Script.deafClient s ∧ s.connects[(4 : Int)]? = some 0 ∧
    handleEvent Script.deafClient (Script.readable 4) s = .error (.nullSocket 4) t := by
  obtain ⟨s, reachable, test⟩ := exists_of_ends 1
    (fun s => s.connects[(4 : Int)]? == some 0 &&
      Stops (handleEvent Script.deafClient (Script.readable 4) s) fun e _ => e == .nullSocket 4)
    (Script.reachable Script.deafClient) (by decide +kernel)
  simp only [Bool.and_eq_true, beq_iff_eq] at test
  obtain ⟨conn, stops⟩ := test
  obtain ⟨e, t, run, null⟩ := exists_of_stops stops
  obtain rfl := beq_iff_eq.mp null
  exact ⟨s, t, reachable, conn, run⟩

/-- A client sends two logins in a row, and hears of both. -/
def Script.eagerClient : Env := sends (request 0 ++ request 0)

/-- After `RecvData` the configuration is that of the move. -/
theorem recvData_config (h : Config env [] s) (conn : s.connects[fd]? = some c) :
    wp (recvData env fd c) (fun _ t => Config env [] t) (fun _ _ => True) s := by
  simp only [recvData, wp_bind, wp_get]
  refine wp_guarded (fun out got => ?_) fun _ _ => trivial
  exact h.step (.recv conn got)

/-- Both logins are taken out of the buffer. -/
theorem message_loop_connected_eagerClient : ∃ s n t, Config Script.eagerClient [] s ∧ (s.sock 0).unread.length = 32 ∧
    messageLoop Script.eagerClient 4 ((s.sock 0).unread.length + 1) 0 s = .ok n t ∧ (t.sock 0).unread = [] ∧
    ¬WriteFailed 4 s t := by
  obtain ⟨s, reachable, test⟩ := exists_of_ends 1
    (fun s => s.connects[(4 : Int)]? == some 0 && Returns (recvData Script.eagerClient 4 0 s) fun s₁ =>
      s₁.connects[(4 : Int)]? == some 0 && (s₁.sock 0).unread.length == 32 &&
        Returns (messageLoop Script.eagerClient 4 ((s₁.sock 0).unread.length + 1) 0 s₁) fun t => (t.sock 0).unread == [])
    (Script.reachable Script.eagerClient) (by decide +kernel)
  simp only [Bool.and_eq_true, beq_iff_eq] at test
  obtain ⟨conn, received⟩ := test
  obtain ⟨status, s₁, recv, test⟩ := exists_of_returns received
  have config := wp_ok (recvData_config reachable.config conn) recv
  simp only [Bool.and_eq_true, beq_iff_eq] at test
  obtain ⟨⟨conn₁, length⟩, looped⟩ := test
  obtain ⟨n, t, run, empty⟩ := exists_of_returns looped
  have sound := wp_ok (message_loop_connected config conn₁) run
  exact ⟨s₁, n, t, config, length, run, beq_iff_eq.mp empty, sound.1⟩

end IslandSurvival
