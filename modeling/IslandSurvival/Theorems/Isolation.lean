import IslandSurvival.Theorems.Connections
import IslandSurvival.Theorems.Membership
import IslandSurvival.Theorems.Posts
import IslandSurvival.Theorems.Scenario

/-! Rooms do not disturb each other. Whoever is removed on behalf of the players of a room is in that room or in none,
    and so is everybody who is removed in turn; what follows from a failed write stays in the room in which it failed. -/

namespace IslandSurvival

open Prog

/-- User `u` is in no other room than `p`. -/
def Server.Inside (s : Server) (p : RoomPtr) (u : Int) : Prop := ∀ q, s.belongRoom[u]? = some q → q = p

/-- Since `s` nothing has happened but in room `p`, and whoever can be removed was in no other room. -/
structure Apart (p : RoomPtr) (s t : Server) : Prop where
  rooms : ∀ q, q ≠ p → t.room q = s.room q
  counted : (t.room p).Counted
  members : ∀ u ∈ (t.room p).members, s.Inside p u
  belongRoom : ∀ u, s.Inside p u → t.Inside p u
  bindings : ∀ {u fd v : Int}, t.userIdToFd[u]? = some fd → t.fdToUserId[fd]? = some v → v = u
  userId : ∀ {u : Int} {person : Person}, t.persons[u]? = some person → person.userId = u

namespace Apart

variable {p : RoomPtr} {s t t' : Server} {u : Int} {r : Room}

theorem congr (h : Apart p s t) (room : t'.room = t.room) (belong : t'.belongRoom = t.belongRoom)
    (fds : t'.userIdToFd = t.userIdToFd) (users : t'.fdToUserId = t.fdToUserId) (persons : t'.persons = t.persons) :
    Apart p s t' where
  rooms q other := room ▸ h.rooms q other
  counted := room ▸ h.counted
  members u mem := h.members u (room ▸ mem)
  belongRoom u inside q here := h.belongRoom u inside q (belong ▸ here)
  bindings bound user := h.bindings (fds ▸ bound) (users ▸ user)
  userId here := h.userId (persons ▸ here)

/-- An update of the room that nobody enters -/
theorem setRoom (h : Apart p s t) (counted : r.Counted) (members : ∀ u ∈ r.members, u ∈ (t.room p).members) :
    Apart p s (t.setRoom p r) where
  rooms q other := (Server.setRoom_room_ne other).trans (h.rooms q other)
  counted := by rwa [Server.setRoom_room_self]
  members u mem := by
    rw [Server.setRoom_room_self] at mem
    exact h.members u (members u mem)
  belongRoom := h.belongRoom
  bindings := h.bindings
  userId := h.userId

/-- An update of the room that leaves the slots as they are -/
theorem setRoom_congr (h : Apart p s t) (cnt : r.playerCnt = (t.room p).playerCnt)
    (online : r.isOnline = (t.room p).isOnline) (players : r.players = (t.room p).players)
    (onlineCnt : r.onlinePlayerCnt = (t.room p).onlinePlayerCnt)
    (status : r.status = .waiting → (t.room p).status = .waiting) : Apart p s (t.setRoom p r) := by
  refine h.setRoom (h.counted.congr cnt online players onlineCnt status) fun u mem => ?_
  rwa [Room.members_congr cnt online players] at mem

/-- A player leaves the room. -/
theorem vacate (h : Apart p s t) (pos : (t.room p).getPlayerId u ≠ 0) :
    Apart p s (t.setRoom p ((t.room p).vacate ((t.room p).getPlayerId u))) := by
  obtain ⟨slot, online, -⟩ := Room.getPlayerId_spec pos
  refine h.setRoom (h.counted.vacate slot online) fun v mem => ?_
  exact (Room.members_vacate h.counted slot online).subset (List.mem_cons_of_mem _ mem)

theorem forgetRoom (h : Apart p s t) (u : Int) : Apart p s { t with belongRoom := t.belongRoom.erase u } where
  rooms := h.rooms
  counted := h.counted
  members := h.members
  belongRoom v inside q here := by
    rw [Map.getElem?_erase] at here
    split at here
    · cases here
    · exact h.belongRoom v inside q here
  bindings := h.bindings
  userId := h.userId

theorem forgetFd (h : Apart p s t) (u : Int) : Apart p s { t with userIdToFd := t.userIdToFd.erase u } where
  rooms := h.rooms
  counted := h.counted
  members := h.members
  belongRoom := h.belongRoom
  bindings bound user := by
    rw [Map.getElem?_erase] at bound
    split at bound
    · cases bound
    · exact h.bindings bound user
  userId := h.userId

theorem forgetUser (h : Apart p s t) (fd : Int) : Apart p s { t with fdToUserId := t.fdToUserId.erase fd } where
  rooms := h.rooms
  counted := h.counted
  members := h.members
  belongRoom := h.belongRoom
  bindings bound user := by
    rw [Map.getElem?_erase] at user
    split at user
    · cases user
    · exact h.bindings bound user
  userId := h.userId

theorem forgetPerson (h : Apart p s t) (u : Int) : Apart p s { t with persons := t.persons.erase u } where
  rooms := h.rooms
  counted := h.counted
  members := h.members
  belongRoom := h.belongRoom
  bindings := h.bindings
  userId here := by
    rw [Map.getElem?_erase] at here
    split at here
    · cases here
    · exact h.userId here

theorem changePersonStatus (h : Apart p s t) (u : Int) (status : PersonStatus) :
    Apart p s (PersonManager.changePersonStatus u status t).2 := by
  rw [PersonManager.changePersonStatus_eq]
  exact {
    rooms := h.rooms
    counted := h.counted
    members := h.members
    belongRoom := h.belongRoom
    bindings := h.bindings
    userId := fun {v person} here => by
      by_cases same : v = u
      · subst same
        rw [PersonManager.changed_self, Option.map_eq_some_iff] at here
        obtain ⟨person, here, rfl⟩ := here
        have own := h.userId here
        exact own
      · rw [PersonManager.changed_ne same] at here
        exact h.userId here }

end Apart

/-! ### The functions of the circle -/

section
variable {env : Env} {del : Int → M Unit} {p : RoomPtr} {s : Server} {u : Int}

/-- What the functions of the circle rely on for `DeleteClientByFD`: it is called for users in the room only. -/
def DeletesInside (p : RoomPtr) (s : Server) (del : Int → M Unit) : Prop :=
  ∀ fd a, Apart p s a → (∀ u, a.fdToUserId[fd]? = some u → s.Inside p u) →
    wp (del fd) (fun _ t => Apart p s t) (fun _ t => Apart p s t) a

theorem log_apart (e : Event) : Keeps (Apart p s) (log e) := .modify fun _ h => h.congr rfl rfl rfl rfl rfl

theorem getRoom_apart (q : RoomPtr) : Keeps (Apart p s) (getRoom q) := .bind .get fun _ => .pure

theorem now_apart : Keeps (Apart p s) (getNowTimeUs env) := by
  intro a h
  have later : Apart p s (a.tickSys 1) := h.congr rfl rfl rfl rfl rfl
  exact later

theorem nowSecond_apart : Keeps (Apart p s) (getNowTimeSecond env) := .bind now_apart fun _ => .pure

theorem guarded_apart {α : Type} (x : Except Fault α) : Keeps (Apart p s) (guarded x) := fun _ h =>
  wp_guarded (fun _ _ => h) fun _ _ => h

theorem modifyRoom_apart {f : Room → Room} (cnt : ∀ r, (f r).playerCnt = r.playerCnt)
    (online : ∀ r, (f r).isOnline = r.isOnline) (players : ∀ r, (f r).players = r.players)
    (onlineCnt : ∀ r, (f r).onlinePlayerCnt = r.onlinePlayerCnt)
    (status : ∀ r, (f r).status = .waiting → r.status = .waiting) : Keeps (Apart p s) (modifyRoom p f) :=
  .modify fun _ h => h.setRoom_congr (cnt _) (online _) (players _) (onlineCnt _) (status _)

theorem sendMessageByConnfd_apart (fd : Int) (mess : CMessage) : Keeps (Apart p s) (sendMessageByConnfd env fd mess) := by
  intro a h
  refine wp_mono (sendMessageByConnfd_ends fd mess a) (fun _ t ends => ?_) fun _ t ends => ?_
  · obtain rfl | ⟨_, _, _, _, _, rfl⟩ := ends
    · exact h
    · exact h.congr rfl rfl rfl rfl rfl
  · exact ends ▸ h.congr rfl rfl rfl rfl rfl

theorem sendMessageToClient_apart (hd : DeletesInside p s del) (inside : s.Inside p u) (mess : CMessage) :
    Keeps (Apart p s) (sendMessageToClient env del u mess) := by
  intro a h
  simp only [sendMessageToClient, wp_bind, wp_log, wp_get]
  cases bound : (a.log (.sendTo u mess)).userIdToFd[u]? with
  | none => exact h.congr rfl rfl rfl rfl rfl
  | some fd =>
    simp only [wp_bind]
    have noted : Apart p s (a.log (.sendTo u mess)) := h.congr rfl rfl rfl rfl rfl
    refine wp_mono (wp_and (sendMessageByConnfd_ends fd mess _) (sendMessageByConnfd_apart fd mess _ noted))
      (fun ret t ends => ?_) fun _ _ ends => ends.2
    obtain ⟨ends, written⟩ := ends
    split
    · simp only [wp_bind, wp_log]
      have bound : t.userIdToFd[u]? = some fd := by
        obtain rfl | ⟨_, _, _, _, _, rfl⟩ := ends <;> exact bound
      refine wp_mono (hd fd _ (written.congr rfl rfl rfl rfl rfl) fun v user => ?_) (fun _ _ => id) fun _ _ => id
      -- the descriptor belongs to the client itself
      exact written.bindings bound user ▸ inside
    · exact written

/-- The loop over the slots of the room -/
theorem forSlots_apart {body : Nat → M Unit}
    (hb : ∀ i a, 1 ≤ i → i ≤ (a.room p).playerCnt → Apart p s a →
      wp (body i) (fun _ t => Apart p s t) (fun _ t => Apart p s t) a) :
    ∀ fuel i, 1 ≤ i → Keeps (Apart p s) (Room.forSlots p body fuel i)
  | 0, _, _ => .bind (getRoom_apart p) fun _ => .ite .throw .pure
  | fuel + 1, i, first => by
    intro a h
    simp only [Room.forSlots, wp_bind, wp_getRoom]
    split
    · rename_i last
      simp only [wp_bind]
      exact wp_post (hb i a first last h) fun _ t => forSlots_apart hb fuel (i + 1) (Nat.le_succ_of_le first) t
    · exact h

theorem sendMessageToEveryone_apart (hd : DeletesInside p s del) (mess : CMessage) :
    Keeps (Apart p s) (Room.sendMessageToEveryone env del p mess) := by
  refine .bind (log_apart _) fun _ => forSlots_apart (fun i a first last h => ?_) _ 1 (Nat.le_refl 1)
  simp only [Room.deliver, wp_bind, wp_getRoom]
  split
  · rename_i online
    simp only [wp_bind, wp_log, wp_discard]
    have inside := h.members _ (Room.mem_members.mpr ⟨i, first, last, online, rfl⟩)
    exact sendMessageToClient_apart hd inside mess _ (h.congr rfl rfl rfl rfl rfl)
  · exact h

theorem sendGameLoading_apart (hd : DeletesInside p s del) : Keeps (Apart p s) (Room.sendGameLoading env del p) := by
  intro a h
  simp only [Room.sendGameLoading, wp_bind, wp_getRoom]
  split
  · exact h
  · simp only [wp_bind, wp_get, wp_set]
    have ticked : Apart p s (a.tickSys 1) := h.congr rfl rfl rfl rfl rfl
    refine wp_post (sendMessageToEveryone_apart hd _ _ ticked) fun _ t sent => ?_
    simp only [wp_getNowTimeSecond, wp_modify]
    have loading : Apart p s (t.setRoom p ((t.room p).startLoading (toInt32 (env.clock t.sys / 1000000)))) :=
      sent.setRoom_congr rfl rfl rfl rfl fun waits => by cases waits
    exact loading.congr rfl rfl rfl rfl rfl

theorem sendGameStart_apart (hd : DeletesInside p s del) : Keeps (Apart p s) (Room.sendGameStart env del p) := by
  refine .bind (getRoom_apart p) fun _ => .ite .pure (.bind (sendMessageToEveryone_apart hd _) fun _ => ?_)
  refine .bind now_apart fun now => .bind now_apart fun now' => .modify fun a h => ?_
  have started : Apart p s (a.setRoom p ((a.room p).startGame now now')) :=
    h.setRoom_congr rfl rfl rfl rfl fun waits => by cases waits
  exact started.congr rfl rfl rfl rfl rfl

theorem getNowFrame_apart : Keeps (Apart p s) (Syn.getNowFrame env p) := by
  refine .bind (getRoom_apart p) fun _ => .bind (log_apart _) fun _ => .bind now_apart fun _ => ?_
  refine .bind (modifyRoom_apart (fun _ => rfl) (fun _ => rfl) (fun _ => rfl) (fun _ => rfl) fun _ => id) fun _ => ?_
  exact .bind (getRoom_apart p) fun _ => .pure

theorem addTo_apart (mess : CMessage) : Keeps (Apart p s) (Syn.addTo env p mess) := by
  intro a h
  simp only [Syn.addTo, wp_bind, wp_getRoom, wp_log, wp_getNowTimeUs]
  have noted : Apart p s ((a.log (.synUse p (a.room p).status)).tickSys 1) := h.congr rfl rfl rfl rfl rfl
  refine wp_guarded (fun out _ => ?_) fun _ _ => noted
  simp only [wp_modify]
  have added : Apart p s (((a.log (.synUse p (a.room p).status)).tickSys 1).setRoom p { a.room p with syn := out.1 }) :=
    noted.setRoom_congr rfl rfl rfl rfl id
  exact added.congr rfl rfl rfl rfl rfl

theorem deletePlayer_apart (hd : DeletesInside p s del) (u : Int) :
    Keeps (Apart p s) (Room.deletePlayer env del p u) := by
  intro a h
  simp only [Room.deletePlayer, wp_bind, wp_getRoom]
  split
  · exact h
  · rename_i pos
    have left := h.vacate pos
    unfold Room.vacate at left
    cases status : (a.room p).status with
    | waiting =>
      rw [if_pos status] at left
      simp only [wp_bind, wp_modify, wp_get, wp_pure]
      refine wp_post (sendMessageToEveryone_apart hd _ _ (left.congr rfl rfl rfl rfl rfl)) fun _ t sent => ?_
      exact sent.changePersonStatus u .inHall
    | loading =>
      rw [if_neg (by simp [status])] at left
      simp only [wp_bind, wp_modify, wp_getRoom]
      refine wp_post (sendMessageToEveryone_apart hd _ _ (left.congr rfl rfl rfl rfl rfl)) fun _ t sent => ?_
      split
      · simp only [wp_bind, wp_modifyRoom, wp_pure]
        exact sent.setRoom_congr rfl rfl rfl rfl id
      · simp only [wp_bind, wp_log]
        have noted : Apart p s (t.log (.leaveCheck p (t.room p).overcounted
            ((t.room p).loadingSucceedCnt ≥ (t.room p).onlinePlayerCnt))) := sent.congr rfl rfl rfl rfl rfl
        split
        · simp only [wp_bind, wp_pure]
          exact sendGameStart_apart hd _ noted
        · exact noted
    | ingame =>
      rw [if_neg (by simp [status])] at left
      simp only [wp_bind, wp_modify, wp_pure]
      refine wp_post (getNowFrame_apart _ (left.congr rfl rfl rfl rfl rfl)) fun frame t used => ?_
      exact addTo_apart _ t used

theorem deletePlayerFromRoom_apart (hd : DeletesInside p s del) (inside : s.Inside p u) :
    Keeps (Apart p s) (RoomManager.deletePlayerFromRoom env del u) := by
  intro a h
  simp only [RoomManager.deletePlayerFromRoom, wp_bind, wp_get]
  cases belong : a.belongRoom[u]? with
  | none => exact h
  | some q =>
    obtain rfl := h.belongRoom u inside q belong
    simp only [wp_bind, wp_modify]
    exact deletePlayer_apart hd u _ (h.forgetRoom u)

theorem personLogout_apart (hd : DeletesInside p s del) (inside : s.Inside p u) :
    Keeps (Apart p s) (PersonManager.personLogout env del u) := by
  intro a h
  simp only [PersonManager.personLogout, wp_bind, wp_get]
  cases here : a.persons[u]? with
  | none => exact h
  | some person =>
    simp only
    cases person.status with
    | inHall => exact h.forgetPerson u
    | inRoom =>
      simp only [wp_bind, wp_discard]
      rw [h.userId here]
      exact wp_post (deletePlayerFromRoom_apart hd inside a h) fun _ t gone => gone.forgetPerson u

theorem playerLogout_apart (hd : DeletesInside p s del) (inside : s.Inside p u) :
    Keeps (Apart p s) (playerLogout env del u) := by
  intro a h
  simp only [playerLogout, wp_bind, wp_get]
  cases a.userIdToFd[u]? with
  | none => exact h
  | some fd =>
    simp only [wp_bind, wp_modify, wp_discard]
    exact wp_post (personLogout_apart hd inside _ (h.forgetFd u)) fun _ t gone => gone.forgetUser fd

theorem deleteClientStep_inside (hd : DeletesInside p s del) : DeletesInside p s (deleteClientStep env del) := by
  intro fd a h users
  simp only [deleteClientStep, wp_bind, wp_get]
  cases a.connects[fd]? with
  | none => exact h
  | some c =>
    simp only [wp_bind, wp_modify, wp_get]
    obtain ⟨_, _, _, _, _, hs⟩ := dropConnection_eq fd c a
    rw [hs]
    have dropped := fun {t} => @Apart.congr p s a t h
    cases user : a.fdToUserId[fd]? with
    | none => exact dropped rfl rfl rfl rfl rfl
    | some u => exact playerLogout_apart hd (users u user) _ (dropped rfl rfl rfl rfl rfl)

theorem deleteClientFuel_inside : ∀ fuel, DeletesInside p s (deleteClientFuel env fuel)
  | 0 => deleteClientStep_inside fun _ _ h _ => h
  | fuel + 1 => deleteClientStep_inside (deleteClientFuel_inside fuel)

theorem deleteClientByFd_inside : DeletesInside p s (deleteClientByFd env) := fun fd a h users =>
  deleteClientFuel_inside a.connects.size fd a h users

/-! ### Requests -/

theorem inside_of (belong : s.belongRoom[u]? = some p) : s.Inside p u := fun _ here =>
  Option.some.inj (here.symm.trans belong)

theorem send_apart (inside : s.Inside p u) (mess : CMessage) : Keeps (Apart p s) (MP.send env u mess) :=
  .discard (sendMessageToClient_apart deleteClientByFd_inside inside mess)

theorem sendToRoom_apart (mess : CMessage) : Keeps (Apart p s) (MP.sendToRoom env p mess) :=
  sendMessageToEveryone_apart deleteClientByFd_inside mess

namespace MP

variable {mess : CMessage}

theorem csPullAllRoomInfo_apart (inside : s.Inside p u) : Keeps (Apart p s) (csPullAllRoomInfo env u) :=
  .bind .get fun _ => .bind (send_apart inside _) fun _ => .pure

/-- A user in a room creates no second one. -/
theorem csCreateRoom_apart (h : Apart p s s) (belong : s.belongRoom[u]? = some p) :
    wp (csCreateRoom env u mess) (fun _ t => Apart p s t) (fun _ t => Apart p s t) s := by
  unfold csCreateRoom
  split
  · simp only [wp_bind, RoomManager.createRoom, wp_get]
    rw [if_pos (Map.mem_of_getElem? belong)]
    simp only [wp_pure, wp_bind]
    exact wp_post (send_apart (inside_of belong) _ s h) fun _ _ sent => sent
  · exact h

/-- Nor does it join one. -/
theorem csJoinRoom_apart (h : Apart p s s) (belong : s.belongRoom[u]? = some p) :
    wp (csJoinRoom env u mess) (fun _ t => Apart p s t) (fun _ t => Apart p s t) s := by
  unfold csJoinRoom
  split
  · rename_i roomId _
    have refused : wp (RoomManager.joinRoom u roomId)
        (fun ret t => t = s ∧ (ret = .joinRoomNotExist ∨ ret = .joinRoomErrorFail)) (fun _ t => t = s) s := by
      simp only [RoomManager.joinRoom, wp_bind, wp_get]
      cases s.rooms[roomId]? with
      | none => exact ⟨rfl, .inl rfl⟩
      | some q =>
        simp only
        rw [if_pos (Map.mem_of_getElem? belong)]
        exact ⟨rfl, .inr rfl⟩
    rw [wp_bind]
    refine wp_mono refused (fun ret t ends => ?_) fun _ _ ends => ends ▸ h
    rcases ends with ⟨rfl, rfl | rfl⟩
    · rw [if_neg (by decide)]
      simp only [wp_bind]
      refine wp_post (send_apart (inside_of belong) _ t h) fun _ _ sent => ?_
      rw [if_neg (by decide)]
      exact sent
    · rw [if_pos rfl]
      exact h
  · exact h

theorem csPlayerExitRoom_apart (h : Apart p s s) (belong : s.belongRoom[u]? = some p) :
    wp (csPlayerExitRoom env u) (fun _ t => Apart p s t) (fun _ t => Apart p s t) s := by
  simp only [csPlayerExitRoom, wp_bind, wp_get, RoomManager.getRoomByUserId, belong, wp_getRoom]
  split
  · simp only [wp_bind]
    refine wp_post (deletePlayerFromRoom_apart deleteClientByFd_inside (inside_of belong) s h) fun ret t gone => ?_
    exact wp_post (sendToRoom_apart _ t gone) fun _ _ sent => sent
  · simp only [wp_bind]
    exact wp_post (sendToRoom_apart _ s h) fun _ _ sent => sent

theorem csChangeTeam_apart (h : Apart p s s) (belong : s.belongRoom[u]? = some p) :
    wp (csChangeTeam env u mess) (fun _ t => Apart p s t) (fun _ t => Apart p s t) s := by
  unfold csChangeTeam
  split
  · rename_i teamId gameOption _
    simp only [wp_bind, wp_get, RoomManager.getRoomByUserId, belong, wp_getRoom]
    split
    · exact h
    · simp only [wp_bind, wp_modify, wp_get]
      obtain ⟨_, _, hr⟩ := applyChange_eq u teamId gameOption (s.room p)
      have changed : Apart p s (s.setRoom p (applyChange u teamId gameOption (s.room p))) := by
        rw [hr]
        exact h.setRoom_congr rfl rfl rfl rfl id
      exact wp_post (sendToRoom_apart _ _ (changed.congr rfl rfl rfl rfl rfl)) fun _ _ sent => sent
  · exact h

theorem csReadyToStart_apart (h : Apart p s s) (belong : s.belongRoom[u]? = some p) :
    wp (csReadyToStart env u) (fun _ t => Apart p s t) (fun _ t => Apart p s t) s := by
  simp only [csReadyToStart, wp_bind, wp_get, RoomManager.getRoomByUserId, belong, wp_getRoom]
  split
  · exact h
  · simp only [wp_bind]
    exact wp_post (sendGameLoading_apart deleteClientByFd_inside s h) fun _ _ sent => sent

theorem addLoadingSucceed_apart (inside : s.Inside p u) : Keeps (Apart p s) (Room.addLoadingSucceed env p u) := by
  intro a h
  simp only [Room.addLoadingSucceed, wp_bind, wp_getRoom]
  split
  · simp only [wp_bind, wp_discard]
    exact wp_post (deletePlayerFromRoom_apart deleteClientByFd_inside inside a h) fun _ _ gone => gone
  · split
    · exact h
    · split
      · exact h
      · simp only [wp_bind, wp_modify]
        have loaded : Apart p s (a.setRoom p ((a.room p).loadSlot ((a.room p).getPlayerId u))) :=
          h.setRoom_congr rfl rfl rfl rfl id
        exact loaded.congr rfl rfl rfl rfl rfl

theorem csLoadSucceed_apart (h : Apart p s s) (belong : s.belongRoom[u]? = some p) :
    wp (csLoadSucceed env u) (fun _ t => Apart p s t) (fun _ t => Apart p s t) s := by
  simp only [csLoadSucceed, wp_bind, wp_get, RoomManager.getRoomByUserId, belong, wp_getRoom]
  split
  · simp only [wp_bind]
    refine wp_post (addLoadingSucceed_apart (inside_of belong) s h) fun all t loaded => ?_
    split
    · simp only [wp_bind]
      exact wp_post (sendGameStart_apart deleteClientByFd_inside t loaded) fun _ _ started => started
    · exact loaded
  · exact h

/-- A gameplay request, for the room in which the user plays -/
theorem relay_apart {room : Server → Option RoomPtr} {failed : Int} {reply : RoomPtr → Nat → M CMessage}
    (h : Apart p s s) (here : ∀ q, room s = some q → (s.room q).getPlayerId u ≠ 0 → q = p)
    (replies : ∀ playerId, Keeps (Apart p s) (reply p playerId)) :
    wp (relay env room failed u reply) (fun _ t => Apart p s t) (fun _ t => Apart p s t) s := by
  simp only [relay, wp_bind, wp_get]
  cases found : room s with
  | none => exact h
  | some q =>
    simp only [wp_bind, wp_getRoom]
    split
    · exact h
    · rename_i pos
      obtain rfl := here q found pos
      simp only [wp_bind]
      refine wp_post (replies _ s h) fun mess t replied => ?_
      exact wp_post (addTo_apart mess t replied) fun _ _ added => added

theorem gameEndFromRoom_apart (inside : s.Inside p u) : Keeps (Apart p s) (RoomManager.gameEndFromRoom u) := by
  intro a h
  simp only [RoomManager.gameEndFromRoom, wp_bind, wp_get]
  cases belong : a.belongRoom[u]? with
  | none => exact h
  | some q =>
    obtain rfl := h.belongRoom u inside q belong
    simp only [wp_bind, wp_modify, Room.gameEnd, wp_getRoom, wp_log]
    have forgotten := h.forgetRoom u
    split
    · rename_i status
      split
      · rename_i pos
        simp only [wp_bind, wp_modify, wp_pure]
        have left := forgotten.vacate pos
        unfold Room.vacate at left
        rw [if_neg (by simp [status])] at left
        refine Apart.changePersonStatus ?_ u .inHall
        exact left.congr rfl rfl rfl rfl rfl
      · exact forgotten.congr rfl rfl rfl rfl rfl
    · exact forgotten.congr rfl rfl rfl rfl rfl

theorem csGameEnd_apart (h : Apart p s s) (belong : s.belongRoom[u]? = some p) :
    wp (csGameEnd env u) (fun _ t => Apart p s t) (fun _ t => Apart p s t) s := by
  simp only [csGameEnd, wp_bind, wp_get, RoomManager.getRoomByUserId, belong, wp_discard]
  refine wp_post (getNowFrame_apart s h) fun frame t used => ?_
  refine wp_post (send_apart (inside_of belong) _ t used) fun _ t' sent => ?_
  exact wp_post (gameEndFromRoom_apart (inside_of belong) t' sent) fun _ _ ended => ended

end MP

/-- `here` is for `MP_CSGamePause`, which may find a room in which the user does not play. -/
theorem processRequest_apart {mess : CMessage} (h : Apart p s s) (belong : s.belongRoom[u]? = some p)
    (kind : mess.head.messageId ∉ [Msg.csLogin, Msg.csRegist, Msg.csHeartbeat])
    (here : ∀ q, s.rooms[u]? = some q → (s.room q).getPlayerId u ≠ 0 → q = p) :
    wp (processRequest env u mess) (fun _ t => Apart p s t) (fun _ t => Apart p s t) s := by
  have own : ∀ q, RoomManager.getRoomByUserId s u = some q → (s.room q).getPlayerId u ≠ 0 → q = p :=
    fun q found _ => inside_of belong q found
  unfold processRequest
  cases processor : Register.boot.processor mess.head.messageId with
  | none => exact h
  | some type =>
    have use := Register.boot_processor processor
    cases type with
    | csLogin =>
      have number : mess.head.messageId = Msg.csLogin := by simpa [Register.uses] using use
      exact absurd (by simp [number]) kind
    | csRegist =>
      have number : mess.head.messageId = Msg.csRegist := by simpa [Register.uses] using use
      exact absurd (by simp [number]) kind
    | csHeartbeat =>
      have number : mess.head.messageId = Msg.csHeartbeat := by simpa [Register.uses] using use
      exact absurd (by simp [number]) kind
    | csPullAllRoomInfo => exact MP.csPullAllRoomInfo_apart (inside_of belong) s h
    | csCreateRoom => exact MP.csCreateRoom_apart h belong
    | csJoinRoom => exact MP.csJoinRoom_apart h belong
    | csPlayerExitRoom => exact MP.csPlayerExitRoom_apart h belong
    | csChangeTeam => exact MP.csChangeTeam_apart h belong
    | csReadyToStart => exact MP.csReadyToStart_apart h belong
    | csLoadSucceed => exact MP.csLoadSucceed_apart h belong
    | csChoseRole =>
      simp only [MP.csChoseRole]
      split
      · exact MP.relay_apart h own fun _ => .bind getNowFrame_apart fun _ => .pure
      · exact h
    | csMove =>
      simp only [MP.csMove]
      split
      · exact MP.relay_apart h own fun _ => .pure
      · exact h
    | csKill =>
      simp only [MP.csKill]
      split
      · exact MP.relay_apart h own fun _ => .pure
      · exact h
    | csSkill =>
      simp only [MP.csSkill]
      split
      · exact MP.relay_apart h own fun _ => .pure
      · exact h
    | csGamePause => exact MP.relay_apart h here fun _ => .pure
    | csGameEnd => exact MP.csGameEnd_apart h belong

/-! ### The tick of a room -/

theorem setSyn_apart (syn : Syn → Syn) : Keeps (Apart p s) (modifyRoom p fun r => { r with syn := syn r.syn }) :=
  modifyRoom_apart (fun _ => rfl) (fun _ => rfl) (fun _ => rfl) (fun _ => rfl) fun _ => id

theorem broadcast_apart (hd : DeletesInside p s del) (mess : CMessage) : Keeps (Apart p s) (Syn.broadcast env del p mess) :=
  .bind (log_apart _) fun _ => .bind (sendMessageToEveryone_apart hd mess) fun _ => log_apart _

theorem sendFrameMess_apart (hd : DeletesInside p s del) : Keeps (Apart p s) (Syn.sendFrameMess env del p) :=
  .bind (getRoom_apart p) fun _ => .bind (guarded_apart _) fun _ => .ite (broadcast_apart hd _) .pure

theorem sendSlot_apart (hd : DeletesInside p s del) : ∀ fuel i, Keeps (Apart p s) (Syn.sendSlot env del p fuel i)
  | 0, _ => .bind (getRoom_apart p) fun _ => .bind (guarded_apart _) fun _ => .ite .throw .pure
  | fuel + 1, i => by
    refine .bind (getRoom_apart p) fun _ => .bind (guarded_apart _) fun _ => ?_
    split
    · exact .pure
    · exact .bind (setSyn_apart _) fun _ => .bind (broadcast_apart hd _) fun _ => sendSlot_apart hd fuel (i + 1)

theorem sendHeadFrameToAll_apart (hd : DeletesInside p s del) : Keeps (Apart p s) (Syn.sendHeadFrameToAll env del p) := by
  refine .bind (getRoom_apart p) fun _ => .bind (log_apart _) fun _ => .bind (sendFrameMess_apart hd) fun _ => ?_
  refine .bind (sendSlot_apart hd _ _) fun _ => .bind (getRoom_apart p) fun _ => .bind (guarded_apart _) fun h => ?_
  refine .modify fun a ha => ?_
  have cleared : Apart p s (a.setRoom p { a.room p with syn := (a.room p).syn.clear h }) :=
    ha.setRoom_congr rfl rfl rfl rfl id
  exact cleared.congr rfl rfl rfl rfl rfl

theorem runLoop_apart (hd : DeletesInside p s del) : ∀ fuel, Keeps (Apart p s) (Syn.runLoop env del p fuel)
  | 0 => .throw
  | fuel + 1 => by
    refine .bind (getRoom_apart p) fun _ => .bind (guarded_apart _) fun _ => .ite ?_ .pure
    refine .bind (sendHeadFrameToAll_apart hd) fun _ => .bind (getRoom_apart p) fun _ => ?_
    exact .bind (guarded_apart _) fun syn => .bind (setSyn_apart fun _ => syn) fun _ => runLoop_apart hd fuel

theorem kickUnloaded_apart (i : Nat) (a : Server) (first : 1 ≤ i) (last : i ≤ (a.room p).playerCnt) (h : Apart p s a) :
    wp (Room.kickUnloaded env p i) (fun _ t => Apart p s t) (fun _ t => Apart p s t) a := by
  simp only [Room.kickUnloaded, wp_bind, wp_getRoom]
  split
  · rename_i slow
    rw [Bool.and_eq_true] at slow
    have inside := h.members _ (Room.mem_members.mpr ⟨i, first, last, slow.1, rfl⟩)
    simp only [deleteClientByUserId, wp_bind, wp_get]
    cases bound : a.userIdToFd[(a.room p).players i]? with
    | none => exact h
    | some fd => exact deleteClientByFd_inside fd a h fun v user => h.bindings bound user ▸ inside
  · exact h

theorem tickRoom_apart (id : Int) : Keeps (Apart p s) (RoomManager.tickRoom env id p) := by
  have ticks : Keeps (Apart p s) (Room.onTick env p) := by
    refine .bind (getRoom_apart p) fun r => ?_
    cases r.status with
    | waiting => exact .pure
    | loading =>
      refine .bind nowSecond_apart fun _ => .bind (guarded_apart _) fun _ => .ite (.bind (log_apart _) fun _ => ?_) .pure
      refine .bind (forSlots_apart kickUnloaded_apart _ 1 (Nat.le_refl 1)) fun _ => ?_
      exact sendGameStart_apart deleteClientByFd_inside
    | ingame => exact .bind now_apart fun _ => .bind (setSyn_apart _) fun _ => runLoop_apart deleteClientByFd_inside _
  exact .bind ticks fun _ => .bind (getRoom_apart p) fun _ => .ite (.modify fun _ h => h.congr rfl rfl rfl rfl rfl) .pure

end

/-! ### Isolation -/

/-- The records of who is in which room agree, and the maps of the logins are inverse to each other. -/
structure SeatsAgree (s : Server) : Prop where
  slot : ∀ {id : Int} {p : RoomPtr}, s.rooms[id]? = some p → ∀ u : Int,
    s.belongRoom[u]? = some p ↔ u ∈ (s.room p).members
  unique : ∀ {id : Int} {p : RoomPtr}, s.rooms[id]? = some p → (s.room p).members.Nodup
  inverse : ∀ fd u : Int, s.fdToUserId[fd]? = some u ↔ s.userIdToFd[u]? = some fd

section
variable {env : Env} {k : List Frame} {s : Server} {p q : RoomPtr} {id : Int}

/-- The records of a run in which no connection with a user logs in and only running games are ended agree. -/
theorem SeatsAgree.of_config (h : Config env [] s) (fresh : loginsFresh s.trace) (inGame : gamesEndInGame s.trace) :
    SeatsAgree s where
  slot room _ := ⟨h.tenancy.1.member, (h.membership inGame).1.seat room⟩
  unique := (h.membership inGame).1.nodup
  inverse := (BindingsAgree.of_links h.users (h.links fresh)).inverse

theorem Apart.start (h : Config env k s) (agree : SeatsAgree s) (room : s.rooms[id]? = some p) : Apart p s s where
  rooms _ _ := rfl
  counted := h.rooms.counted (h.rooms.table.room room).1
  members u mem := inside_of ((agree.slot room u).mpr mem)
  belongRoom _ inside := inside
  bindings bound user := Option.some.inj (user.symm.trans ((agree.inverse _ _).mpr bound))
  userId := h.users.userId

/-- At every moment at which the records agree, and whatever writes fail: a room or gameplay message of a user in room
    `p`, and the tick of room `p`, leave every other room as it is. -/
theorem rooms_isolated (h : Config env k s) (agree : SeatsAgree s) (other : q ≠ p) :
    (∀ (u : Int) (mess : CMessage), s.belongRoom[u]? = some p →
      mess.head.messageId ∉ [Msg.csLogin, Msg.csRegist, Msg.csHeartbeat] →
        wp (processRequest env u mess) (fun _ t => t.room q = s.room q) (fun _ t => t.room q = s.room q) s) ∧
    ∀ id : Int, s.rooms[id]? = some p →
      wp (RoomManager.tickRoom env id p) (fun _ t => t.room q = s.room q) (fun _ t => t.room q = s.room q) s := by
  constructor
  · intro u mess belong kind
    obtain ⟨id, room⟩ := h.tenancy.1.room belong
    have start := Apart.start h agree room
    have apart : wp (processRequest env u mess) (fun _ t => Apart p s t) (fun _ t => Apart p s t) s :=
      processRequest_apart start belong kind fun q room pos =>
        Option.some.inj (((agree.slot room u).mpr (Room.getPlayerId_ne_zero.mp pos)).symm.trans belong)
    exact wp_mono apart (fun _ t ends => ends.rooms q other) fun _ t ends => ends.rooms q other
  · intro id room
    exact wp_mono (tickRoom_apart id s (.start h agree room)) (fun _ t ends => ends.rooms q other)
      fun _ t ends => ends.rooms q other

end

/-- Two clients log in, and each creates a room of its own; then every write fails. -/
def Script.twoRooms : Env := { quiet with
  epollWait := fun n =>
    if n = 1 ∨ n = 6 then [readable 3] else if n = 11 then [readable 4] else if n = 20 then [readable 5] else []
  accept := fun n => some (if n < 5 then 4 else 5)
  recv := fun n => if n = 12 ∨ n = 21 then .data (request 0 ++ request 9) else .again
  send := fun n => if n < 30 then .take 4096 else .error
  query := fun n => .row (some [some [if n < 20 then 49 else 50], some [97]]) }

/-- The first player asks for the rooms, cannot be answered and is removed; the other room stays as it is. -/
theorem rooms_isolated_twoRooms : ∃ s t, Reachable Script.twoRooms s ∧ (s.room 0).playerCnt = 1 ∧
    (∃ n, processRequest Script.twoRooms 1 (Script.parsed Msg.csPullAllRoomInfo .csPullAllRoomInfo) s = .ok n t) ∧
    (t.room 0).playerCnt = 0 ∧ (s.room 1).playerCnt = 1 ∧ t.room 1 = s.room 1 := by
  obtain ⟨s, reachable, test⟩ := exists_of_ends 5
    (fun s => loginsFresh s.trace && gamesEndInGame s.trace && s.belongRoom[(1 : Int)]? == some 0 &&
      (s.room 0).playerCnt == 1 && (s.room 1).playerCnt == 1 && Returns
        (processRequest Script.twoRooms 1 (Script.parsed Msg.csPullAllRoomInfo .csPullAllRoomInfo) s) fun t =>
          (t.room 0).playerCnt == 0)
    (Script.reachable Script.twoRooms) (by decide +kernel)
  simp only [Bool.and_eq_true, beq_iff_eq] at test
  obtain ⟨⟨⟨⟨⟨fresh, inGame⟩, belong⟩, here⟩, there⟩, returns⟩ := test
  obtain ⟨n, t, run, empty⟩ := exists_of_returns returns
  have agree := SeatsAgree.of_config reachable.config fresh inGame
  have apart := (rooms_isolated (q := 1) reachable.config agree (by decide)).1 1
    (Script.parsed Msg.csPullAllRoomInfo .csPullAllRoomInfo) belong (by decide)
  have unchanged := wp_ok apart run
  exact ⟨s, t, reachable, here, ⟨n, run⟩, beq_iff_eq.mp empty, there, unchanged⟩

end IslandSurvival
