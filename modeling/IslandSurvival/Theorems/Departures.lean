import IslandSurvival.Theorems.Posts

/-! What deletions do to a room. Whatever writes fail, the functions of the circle take players out of a room, and
    otherwise change only the flags of those that are out, a game that is about to start, and the ring of one that
    runs. -/

namespace IslandSurvival

open Prog

/-- The slots of room `p` that players left, the last one first -/
def leaves (p : RoomPtr) (tr : List Event) : List Nat := tr.filterMap fun e => match e with
  | .leave q pos _ => if q = p then some pos else none
  | _ => none

theorem leaves_append (p : RoomPtr) (events older : List Event) :
    leaves p (events ++ older) = leaves p events ++ leaves p older :=
  List.filterMap_append

/-! ### A room -/

/-- What becomes of room `r` while the players in the slots of the list leave it, the last one first. -/
inductive Room.Fades (r : Room) : List Nat → Room → Prop
  | refl : Fades r [] r
  | leave {l r'} (u : Int) (h : Fades r l r') (pos : r'.getPlayerId u ≠ 0) :
      Fades r (r'.getPlayerId u :: l) (r'.vacate (r'.getPlayerId u))
  | unload {l r' pos} (h : Fades r l r') (status : r'.status ≠ .waiting) (offline : r'.isOnline pos = false) :
      Fades r l (r'.unloadSlot pos)
  | start {l r'} (h : Fades r l r') (status : r'.status ≠ .waiting) (now now' : Int) : Fades r l (r'.startGame now now')
  | syn {l r'} (h : Fades r l r') (status : r'.status = .ingame) (syn : Syn) : Fades r l { r' with syn }

theorem Room.vacate_status (pos : Nat) (r : Room) : (r.vacate pos).status = r.status := by
  unfold vacate
  split <;> rfl

namespace Room.Fades

variable {r r' r'' : Room} {l l' : List Nat}

theorem trans (h : Fades r l r') (h' : Fades r' l' r'') : Fades r (l' ++ l) r'' := by
  induction h' with
  | refl => exact h
  | leave u _ pos ih => exact ih.leave u pos
  | unload _ status offline ih => exact ih.unload status offline
  | start _ status now now' ih => exact ih.start status now now'
  | syn _ status syn ih => exact ih.syn status syn

/-- A room goes on waiting, and no room begins to. -/
theorem waiting (h : Fades r l r') : r'.status = .waiting ↔ r.status = .waiting := by
  induction h with
  | refl => rfl
  | leave u _ _ ih => rwa [vacate_status]
  | unload _ _ _ ih => exact ih
  | @start _ r' _ status now now' ih =>
    have playing : (r'.startGame now now').status ≠ .waiting := by simp [startGame]
    exact iff_of_false playing (mt ih.mpr status)
  | syn _ _ _ ih => exact ih

/-- A game goes on. -/
theorem ingame (h : Fades r l r') (playing : r.status = .ingame) : r'.status = .ingame := by
  induction h with
  | refl => exact playing
  | leave u _ _ ih => rwa [vacate_status]
  | unload _ _ _ ih => exact ih
  | start _ _ _ _ _ => rfl
  | syn _ _ _ ih => exact ih

/-- Once loading has begun, a player that is out stays out. -/
theorem offline {pos : Nat} (h : Fades r l r') (status : r.status ≠ .waiting) (offline : r.isOnline pos = false) :
    r'.isOnline pos = false := by
  induction h with
  | refl => exact offline
  | @leave _ r' u h _ ih =>
    rw [vacate, if_neg (mt h.waiting.mp status)]
    simp only [setOffline]
    by_cases here : pos = r'.getPlayerId u
    · rw [here, Function.update_self]
    · rwa [Function.update_of_ne here]
  | unload _ _ _ ih => exact ih
  | start _ _ _ _ ih => exact ih
  | syn _ _ _ ih => exact ih

end Room.Fades

/-! ### The server -/

/-- From `s` to `t`, room `p` fades as the events say. -/
def Fading (p : RoomPtr) (s t : Server) : Prop :=
  ∃ events, t.trace = events ++ s.trace ∧ (s.room p).Fades (leaves p events) (t.room p)

namespace Fading

variable {p q : RoomPtr} {s t u : Server}

theorem refl (p : RoomPtr) (s : Server) : Fading p s s := ⟨[], rfl, .refl⟩

theorem trans (h : Fading p s t) (h' : Fading p t u) : Fading p s u := by
  obtain ⟨events, trace, fades⟩ := h
  obtain ⟨events', trace', fades'⟩ := h'
  refine ⟨events' ++ events, by rw [trace', trace, List.append_assoc], ?_⟩
  rw [leaves_append]
  exact fades.trans fades'

instance : IsPreorder Server (Fading p) where
  refl := .refl p
  trans _ _ _ := .trans

/-- An update outside the room -/
theorem same (room : t.room p = s.room p) (trace : t.trace = s.trace) : Fading p s t :=
  ⟨[], trace, room ▸ .refl⟩

/-- An event outside the room -/
theorem logged {e : Event} (room : t.room p = s.room p) (trace : t.trace = e :: s.trace) (other : leaves p [e] = []) :
    Fading p s t :=
  ⟨[e], trace, other ▸ room ▸ .refl⟩

theorem waiting (h : Fading p s t) : (t.room p).status = .waiting ↔ (s.room p).status = .waiting := by
  obtain ⟨_, -, fades⟩ := h
  exact fades.waiting

theorem ingame (h : Fading p s t) (playing : (s.room p).status = .ingame) : (t.room p).status = .ingame := by
  obtain ⟨_, -, fades⟩ := h
  exact fades.ingame playing

/-- An update of a room -/
theorem setRoom {r : Room} (trace : t.trace = s.trace) (room : t.room = Function.update s.room q r)
    (here : q = p → (s.room p).Fades [] r) : Fading p s t := by
  refine ⟨[], trace, ?_⟩
  rw [room]
  by_cases same : q = p
  · subst same
    rw [Function.update_self]
    exact here rfl
  · rw [Function.update_of_ne (Ne.symm same)]
    exact .refl

/-- A player leaves a room. -/
theorem leave {v : Int} (pos : (s.room q).getPlayerId v ≠ 0)
    (trace : t.trace = .leave q ((s.room q).getPlayerId v) (s.room q).status :: s.trace)
    (room : t.room = Function.update s.room q ((s.room q).vacate ((s.room q).getPlayerId v))) : Fading p s t := by
  refine ⟨[_], trace, ?_⟩
  rw [room]
  by_cases same : q = p
  · subst same
    have here : leaves q [.leave q ((s.room q).getPlayerId v) (s.room q).status] = [(s.room q).getPlayerId v] := by
      simp [leaves]
    rw [Function.update_self, here]
    exact .leave v .refl pos
  · have none : leaves p [.leave q ((s.room q).getPlayerId v) (s.room q).status] = [] := by simp [leaves, same]
    rw [Function.update_of_ne (Ne.symm same), none]
    exact .refl

end Fading

section
variable {env : Env} {del : Int → M Unit} {p : RoomPtr}

theorem log_fading {e : Event} (other : leaves p [e] = []) : Along (Fading p) (log e) :=
  .modify fun _ => .logged rfl rfl other

theorem getRoom_fading {q : RoomPtr} : Along (Fading p) (getRoom q) := .bind .get fun _ => .pure

theorem sendMessageByConnfd_fading (fd : Int) (mess : CMessage) : Along (Fading p) (sendMessageByConnfd env fd mess) := by
  intro s
  refine wp_mono (sendMessageByConnfd_ends fd mess s) (fun _ t ends => ?_) fun _ t ends => ?_
  · obtain rfl | ⟨_, _, _, _, _, rfl⟩ := ends
    · exact .refl p t
    · exact .logged rfl rfl rfl
  · subst ends
    exact .logged rfl rfl rfl

theorem sendMessageToClient_fading (hd : ∀ fd, Along (Fading p) (del fd)) (userId : Int) (mess : CMessage) :
    Along (Fading p) (sendMessageToClient env del userId mess) := by
  refine .bind (log_fading rfl) fun _ => .bind .get fun s => ?_
  split
  · exact .pure
  · refine .bind (sendMessageByConnfd_fading _ mess) fun ret => .ite ?_ .pure
    exact .bind (log_fading rfl) fun _ => .bind (hd _) fun _ => .pure

theorem deliver_fading (hd : ∀ fd, Along (Fading p) (del fd)) (q : RoomPtr) (mess : CMessage) (i : Nat) :
    Along (Fading p) (Room.deliver env del q mess i) :=
  .bind getRoom_fading fun _ =>
    .ite (.bind (log_fading rfl) fun _ => .discard (sendMessageToClient_fading hd _ mess)) .pure

theorem forSlots_fading {q : RoomPtr} {body : Nat → M Unit} (hb : ∀ i, Along (Fading p) (body i)) :
    ∀ fuel i, Along (Fading p) (Room.forSlots q body fuel i)
  | 0, _ => .bind getRoom_fading fun _ => .ite .throw .pure
  | fuel + 1, i => .bind getRoom_fading fun _ => .ite (.bind (hb i) fun _ => forSlots_fading hb fuel (i + 1)) .pure

theorem sendMessageToEveryone_fading (hd : ∀ fd, Along (Fading p) (del fd)) (q : RoomPtr) (mess : CMessage) :
    Along (Fading p) (Room.sendMessageToEveryone env del q mess) :=
  .bind (log_fading rfl) fun _ => forSlots_fading (deliver_fading hd q mess) _ _

theorem sendGameStart_fading (hd : ∀ fd, Along (Fading p) (del fd)) (q : RoomPtr) :
    Along (Fading p) (Room.sendGameStart env del q) := by
  intro s
  simp only [Room.sendGameStart, wp_bind, wp_getRoom]
  split
  · exact .refl p s
  · rename_i loading
    simp only [wp_bind, wp_getNowTimeUs, wp_modify]
    refine wp_mono (sendMessageToEveryone_fading hd q _ s) (fun _ t fading => ?_) fun _ _ => id
    have started : Fading p t (((t.tickSys 1).tickSys 1).setRoom q ((t.room q).startGame (env.clock t.sys) (env.clock (t.sys + 1)))) := by
      refine .setRoom rfl rfl ?_
      rintro rfl
      exact .start .refl (fun waits => by simp_all [fading.waiting.mp waits]) _ _
    exact (fading.trans started).trans (.logged rfl rfl rfl)

theorem getNowFrame_fading {q : RoomPtr} {s : Server} (playing : q = p → (s.room p).status = .ingame) :
    wp (Syn.getNowFrame env q) (fun _ t => Fading p s t) (fun _ t => Fading p s t) s := by
  simp only [Syn.getNowFrame, wp_bind, wp_getRoom, wp_log, wp_getNowTimeUs, wp_modifyRoom, wp_pure]
  have noted : Fading p s ((s.log (.synUse q (s.room q).status)).tickSys 1) := .logged rfl rfl rfl
  exact noted.trans (.setRoom rfl rfl fun same => same ▸ .syn .refl (same ▸ playing same) _)

theorem addTo_fading {q : RoomPtr} {s : Server} (playing : q = p → (s.room p).status = .ingame) (mess : CMessage) :
    wp (Syn.addTo env q mess) (fun _ t => Fading p s t) (fun _ t => Fading p s t) s := by
  simp only [Syn.addTo, wp_bind, wp_getRoom, wp_log, wp_getNowTimeUs]
  have noted : Fading p s ((s.log (.synUse q (s.room q).status)).tickSys 1) := .logged rfl rfl rfl
  refine wp_guarded (fun out _ => ?_) fun _ _ => noted
  simp only [wp_modify]
  have added : Fading p s (((s.log (.synUse q (s.room q).status)).tickSys 1).setRoom q { s.room q with syn := out.1 }) :=
    noted.trans (.setRoom rfl rfl fun same => same ▸ .syn .refl (same ▸ playing same) _)
  exact added.trans (.logged rfl rfl rfl)

theorem deletePlayer_fading (hd : ∀ fd, Along (Fading p) (del fd)) (q : RoomPtr) (u : Int) :
    Along (Fading p) (Room.deletePlayer env del q u) := by
  intro s
  simp only [Room.deletePlayer, wp_bind, wp_getRoom]
  split
  · exact .refl p s
  · rename_i pos
    have left : ∀ r status, r = (s.room q).vacate ((s.room q).getPlayerId u) → status = (s.room q).status →
        Fading p s ((s.setRoom q r).log (.leave q ((s.room q).getPlayerId u) status)) := by
      rintro _ _ rfl rfl
      exact .leave pos rfl rfl
    cases status : (s.room q).status with
    | waiting =>
      have left := left ((s.room q).removeSlot ((s.room q).getPlayerId u)) .waiting (by simp [Room.vacate, status]) status.symm
      simp only [wp_bind, wp_modify, wp_get, wp_pure]
      refine wp_mono ((sendMessageToEveryone_fading hd q _).later left) (fun _ t fading => ?_) fun _ _ => id
      rw [PersonManager.changePersonStatus_eq]
      exact fading.trans (.same rfl rfl)
    | loading =>
      have left := left ((s.room q).setOffline ((s.room q).getPlayerId u)) .loading (by simp [Room.vacate, status]) status.symm
      simp only [wp_bind, wp_modify, wp_getRoom]
      refine wp_mono (sendMessageToEveryone_fading hd q _ _) (fun _ t fading => ?_) fun _ _ => left.trans
      have out : q = p → (t.room p).status ≠ .waiting ∧ (t.room p).isOnline ((s.room q).getPlayerId u) = false := by
        rintro rfl
        obtain ⟨_, -, fades⟩ := fading
        rw [Server.log, Server.setRoom_room_self] at fades
        exact ⟨by simp [fades.waiting, Room.setOffline, status], fades.offline (by simp [Room.setOffline, status]) (by simp [Room.setOffline])⟩
      have fading := left.trans fading
      split
      · simp only [wp_bind, wp_modifyRoom, wp_pure]
        exact fading.trans (.setRoom rfl rfl fun same => same ▸ .unload .refl (same ▸ (out same).1) (same ▸ (out same).2))
      · simp only [wp_bind, wp_log]
        have noted := fading.trans (.logged (t := t.log (.leaveCheck q (t.room q).overcounted
          ((t.room q).loadingSucceedCnt ≥ (t.room q).onlinePlayerCnt))) rfl rfl rfl)
        split
        · simp only [wp_bind, wp_pure]
          exact (sendGameStart_fading hd q).later noted
        · exact noted
    | ingame =>
      have left := left ((s.room q).setOffline ((s.room q).getPlayerId u)) .ingame (by simp [Room.vacate, status]) status.symm
      simp only [wp_bind, wp_modify, wp_pure]
      have playing : ∀ t, Fading p ((s.setRoom q ((s.room q).setOffline ((s.room q).getPlayerId u))).log
          (.leave q ((s.room q).getPlayerId u) .ingame)) t → q = p → (t.room p).status = .ingame := by
        rintro t fading rfl
        exact fading.ingame (by simp [Server.log, Room.setOffline, status])
      refine wp_mono (getNowFrame_fading (playing _ (.refl p _))) (fun frame t fading => ?_) fun _ _ => left.trans
      refine wp_mono (addTo_fading (playing t fading) _) (fun _ _ => (left.trans fading).trans) fun _ _ => (left.trans fading).trans

/-- In a room that waits, the player is taken out first, and then others may leave. -/
theorem deletePlayer_waiting (hd : ∀ fd, Along (Fading p) (del fd)) {u : Int} {s : Server}
    (waits : (s.room p).status = .waiting) (pos : (s.room p).getPlayerId u ≠ 0) :
    wp (Room.deletePlayer env del p u) (fun ret t => ret = .success ∧ ∃ events,
      t.trace = events ++ .leave p ((s.room p).getPlayerId u) .waiting :: s.trace ∧
      ((s.room p).removeSlot ((s.room p).getPlayerId u)).Fades (leaves p events) (t.room p)) (fun _ _ => True) s := by
  simp only [Room.deletePlayer, wp_bind, wp_getRoom]
  rw [if_neg pos, waits]
  simp only [wp_bind, wp_modify, wp_get, wp_pure]
  refine wp_mono (sendMessageToEveryone_fading hd p _ _) (fun _ t fading => ⟨trivial, ?_⟩) fun _ _ _ => trivial
  obtain ⟨events, trace, fades⟩ := fading
  rw [Server.log, Server.setRoom_room_self] at fades
  rw [PersonManager.changePersonStatus_eq]
  exact ⟨events, trace, fades⟩

theorem deletePlayerFromRoom_fading (hd : ∀ fd, Along (Fading p) (del fd)) (u : Int) :
    Along (Fading p) (RoomManager.deletePlayerFromRoom env del u) := by
  refine .bind .get fun s => ?_
  cases s.belongRoom[u]? with
  | none => exact .pure
  | some q => exact .bind (.modify fun _ => .same rfl rfl) fun _ => deletePlayer_fading hd q u

theorem personLogout_fading (hd : ∀ fd, Along (Fading p) (del fd)) (u : Int) :
    Along (Fading p) (PersonManager.personLogout env del u) := by
  refine .bind .get fun s => ?_
  cases s.persons[u]? with
  | none => exact .pure
  | some person =>
    have forgotten : Along (Fading p) (do
        modify fun s => { s with persons := s.persons.erase u }
        return Ret.success : M Ret) := .bind (.modify fun _ => .same rfl rfl) fun _ => .pure
    simp only
    cases person.status with
    | inHall => exact forgotten
    | inRoom => exact .bind (.discard (deletePlayerFromRoom_fading hd _)) fun _ => forgotten

theorem playerLogout_fading (hd : ∀ fd, Along (Fading p) (del fd)) (u : Int) :
    Along (Fading p) (playerLogout env del u) := by
  refine .bind .get fun s => ?_
  cases s.userIdToFd[u]? with
  | none => exact .pure
  | some fd =>
    refine .bind (.modify fun _ => .same rfl rfl) fun _ => .bind (.discard (personLogout_fading hd u)) fun _ => ?_
    exact .modify fun _ => .same rfl rfl

theorem deleteClientStep_fading (hd : ∀ fd, Along (Fading p) (del fd)) (fd : Int) :
    Along (Fading p) (deleteClientStep env del fd) := by
  refine .bind .get fun s => ?_
  cases s.connects[fd]? with
  | none => exact .pure
  | some c =>
    refine .bind (.modify fun s => ?_) fun _ => .bind .get fun s => ?_
    · obtain ⟨_, _, _, _, _, hs⟩ := dropConnection_eq fd c s
      rw [hs]
      exact .logged rfl rfl rfl
    · cases s.fdToUserId[fd]? with
      | none => exact .pure
      | some u => exact playerLogout_fading hd u

theorem deleteClientFuel_fading : ∀ fuel fd, Along (Fading p) (deleteClientFuel env fuel fd)
  | 0, fd => deleteClientStep_fading (fun _ => .throw) fd
  | fuel + 1, fd => deleteClientStep_fading (deleteClientFuel_fading fuel) fd

theorem deleteClientByFd_fading (fd : Int) : Along (Fading p) (deleteClientByFd env fd) :=
  .bind .get fun s => deleteClientFuel_fading s.connects.size fd

end

end IslandSurvival
