import IslandSurvival.Theorems.Boot
import IslandSurvival.Theorems.Departures
import IslandSurvival.Theorems.Heartbeats
import IslandSurvival.Theorems.Punctual

/-! The server and the clock. What the functions of the server do to the numbers that are compared with the clock and to
    the tables of users, whatever writes fail; the clock is read where the code reads it. -/

namespace IslandSurvival

open Prog

theorem Map.of_erase {α : Type} {m : Map α} {a k : Int} {v : α} (found : (m.erase a)[k]? = some v) : m[k]? = some v := by
  rw [Map.getElem?_erase] at found
  split at found
  · cases found
  · exact found

/-! ### Updates without the clock -/

/-- What a room compares with the clock is as it was. -/
structure Room.Still (r r' : Room) : Prop where
  status : r'.status = r.status
  initTime : r'.syn.initTime = r.syn.initTime
  headFrame : r'.syn.headFrame = r.syn.headFrame
  nowFrame : r'.syn.nowFrame = r.syn.nowFrame
  loadingTimeSecond : r'.loadingTimeSecond = r.loadingTimeSecond

namespace Room.Still

variable {r r' r'' : Room}

theorem refl (r : Room) : Still r r := ⟨rfl, rfl, rfl, rfl, rfl⟩

theorem of_eq (h : r' = r) : Still r r' := h ▸ refl r

theorem trans (h : Still r r') (h' : Still r' r'') : Still r r'' where
  status := h'.status.trans h.status
  initTime := h'.initTime.trans h.initTime
  headFrame := h'.headFrame.trans h.headFrame
  nowFrame := h'.nowFrame.trans h.nowFrame
  loadingTimeSecond := h'.loadingTimeSecond.trans h.loadingTimeSecond

theorem vacate (pos : Nat) (r : Room) : Still r (r.vacate pos) := by
  unfold Room.vacate
  split <;> exact ⟨rfl, rfl, rfl, rfl, rfl⟩

end Room.Still

/-- The events of the message loop and of the logins -/
def Event.fromClient : Event → Bool
  | .accept _ | .recv _ _ | .extract _ _ | .request _ _ _ | .playerLogin _ _ => true
  | _ => false

/-- What is added to a trace comes from no client. -/
def Adds (tr tr' : List Event) : Prop := ∃ events, tr' = events ++ tr ∧ ∀ e ∈ events, e.fromClient = false

theorem Adds.refl (tr : List Event) : Adds tr tr := ⟨[], rfl, List.forall_mem_nil _⟩

theorem Adds.cons {e : Event} {tr : List Event} (other : e.fromClient = false) : Adds tr (e :: tr) :=
  ⟨[e], rfl, List.forall_mem_singleton.mpr other⟩

theorem Adds.trans {tr tr' tr'' : List Event} (h : Adds tr tr') (h' : Adds tr' tr'') : Adds tr tr'' := by
  obtain ⟨events, rfl, others⟩ := h
  obtain ⟨events', rfl, others'⟩ := h'
  refine ⟨events' ++ events, (List.append_assoc ..).symm, fun e mem => ?_⟩
  rcases List.mem_append.mp mem with mem | mem
  · exact others' e mem
  · exact others e mem

/-- From `s` to `t`, no user, room or heartbeat is entered into the tables. -/
structure Sheds (s t : Server) : Prop where
  sys : s.sys ≤ t.sys
  presec : t.presec = s.presec
  secFd : ∀ e ∈ t.secFd, e ∈ s.secFd
  rooms : ∀ (id : Int) p, t.rooms[id]? = some p → s.rooms[id]? = some p
  fdToUserId : ∀ fd u : Int, t.fdToUserId[fd]? = some u → s.fdToUserId[fd]? = some u
  userIdToFd : ∀ u fd : Int, t.userIdToFd[u]? = some fd → s.userIdToFd[u]? = some fd
  trace : Adds s.trace t.trace

/-- Nor does a room change what it compares with the clock. -/
structure Server.Still (s t : Server) : Prop extends Sheds s t where
  room : ∀ p, (s.room p).Still (t.room p)

/-- The tables that the clock and the logins are about -/
def Server.tables (s : Server) : Int × PairSet × Map RoomPtr × Map Int × Map Int :=
  (s.presec, s.secFd, s.rooms, s.fdToUserId, s.userIdToFd)

theorem Sheds.trans {s t u : Server} (h : Sheds s t) (h' : Sheds t u) : Sheds s u where
  sys := Nat.le_trans h.sys h'.sys
  presec := h'.presec.trans h.presec
  secFd e mem := h.secFd e (h'.secFd e mem)
  rooms id p found := h.rooms id p (h'.rooms id p found)
  fdToUserId fd u found := h.fdToUserId fd u (h'.fdToUserId fd u found)
  userIdToFd u fd found := h.userIdToFd u fd (h'.userIdToFd u fd found)
  trace := h.trace.trans h'.trace

/-- An update beside the tables -/
theorem Sheds.beside {s t : Server} (tables : t.tables = s.tables) (sys : s.sys ≤ t.sys) (trace : Adds s.trace t.trace) :
    Sheds s t := by
  obtain ⟨presec, secFd, rooms, fdToUserId, userIdToFd⟩ : t.presec = s.presec ∧ t.secFd = s.secFd ∧ t.rooms = s.rooms ∧
      t.fdToUserId = s.fdToUserId ∧ t.userIdToFd = s.userIdToFd := by simpa [Server.tables] using tables
  exact ⟨sys, presec, fun e mem => secFd ▸ mem, fun id p found => rooms ▸ found, fun fd u found => fdToUserId ▸ found,
    fun u fd found => userIdToFd ▸ found, trace⟩

namespace Server.Still

variable {s t u : Server} {p : RoomPtr}

theorem trans (h : Server.Still s t) (h' : Server.Still t u) : Server.Still s u where
  toSheds := h.toSheds.trans h'.toSheds
  room p := (h.room p).trans (h'.room p)

theorem beside (room : ∀ p, (s.room p).Still (t.room p)) (tables : t.tables = s.tables) (sys : s.sys ≤ t.sys)
    (trace : Adds s.trace t.trace) : Server.Still s t :=
  ⟨.beside tables sys trace, room⟩

theorem refl (s : Server) : Server.Still s s := .beside (fun _ => .refl _) rfl (Nat.le_refl _) (.refl _)

/-- An update beside the rooms and the tables -/
theorem same (room : t.room = s.room) (tables : t.tables = s.tables) (sys : t.sys = s.sys) (trace : t.trace = s.trace) :
    Server.Still s t :=
  .beside (fun p => .of_eq (congrFun room p)) tables (Nat.le_of_eq sys.symm) (trace ▸ .refl _)

theorem log {e : Event} (other : e.fromClient = false) (s : Server) : Server.Still s (s.log e) :=
  .beside (fun _ => .refl _) rfl (Nat.le_refl _) (.cons other)

theorem tickSys (n : Nat) (s : Server) : Server.Still s (s.tickSys n) :=
  .beside (fun _ => .refl _) rfl (Nat.le_add_right s.sys n) (.refl _)

theorem setRoom {r : Room} (still : (s.room p).Still r) : Server.Still s (s.setRoom p r) := by
  refine .beside (fun q => ?_) rfl (Nat.le_refl _) (.refl _)
  by_cases here : q = p
  · subst here
    rwa [Server.setRoom_room_self]
  · rw [Server.setRoom_room_ne here]
    exact .refl _

theorem changePersonStatus (u : Int) (status : PersonStatus) (s : Server) :
    Server.Still s (PersonManager.changePersonStatus u status s).2 := by
  rw [PersonManager.changePersonStatus_eq]
  exact .same rfl rfl rfl rfl

theorem eraseHeartbeat (fd : Int) (s : Server) : Server.Still s (Heartbeat.erase fd s).2 := by
  unfold Heartbeat.erase
  split
  · exact .refl s
  · split
    · exact ⟨⟨Nat.le_refl _, rfl, fun e mem => (PairSet.mem_erase.mp mem).2, fun _ _ => id, fun _ _ => id, fun _ _ => id,
        (.refl _)⟩, fun _ => .refl _⟩
    · exact .refl s

theorem dropConnection (fd : Int) (c : SockPtr) (s : Server) : Server.Still s (dropConnection fd c s) := by
  refine (eraseHeartbeat fd s).trans ?_
  unfold IslandSurvival.dropConnection
  simp only
  split
  · exact .beside (fun _ => .refl _) rfl (Nat.le_refl _) (.cons rfl)
  · exact .beside (fun _ => .refl _) rfl (Nat.le_refl _) (.cons rfl)

theorem recycle (roomId : Int) (freeRoom : List RoomPtr) {e : Event} (other : e.fromClient = false) (s : Server) :
    Server.Still s ({ s with freeRoom, rooms := s.rooms.erase roomId }.log e) where
  sys := Nat.le_refl _
  presec := rfl
  secFd _ := id
  rooms _ _ := Map.of_erase
  fdToUserId _ _ := id
  userIdToFd _ _ := id
  trace := .cons other
  room _ := .refl _

end Server.Still

/-! ### The circle of deletions -/

section
variable (env : Env)

/-- `UpdateTime` in room `p` -/
def Server.clocked (p : RoomPtr) (s : Server) : Server :=
  (s.tickSys 1).setRoom p { s.room p with syn := (s.room p).syn.updateTime (env.clock s.sys) }

/-- The end of `SendGameStart` in room `p` -/
def Server.started (p : RoomPtr) (s : Server) : Server :=
  (s.tickSys 2).setRoom p ((s.room p).startGame (env.clock s.sys) (env.clock (s.sys + 1)))

/-- What the functions of the circle do to the state: updates without the clock, readings of it for a frame number, and
    starts of games, whose time is read when everybody was told. -/
inductive Cascade : Server → Server → Prop
  | still {s t} (still : Server.Still s t) : Cascade s t
  | read (s : Server) (p : RoomPtr) : Cascade s (s.clocked env p)
  | start {s t p} (loading : (s.room p).status = .loading) (told : Cascade s t) : Cascade s (t.started env p)
  | trans {s t u} (h : Cascade s t) (h' : Cascade t u) : Cascade s u

/-- What a tick of the rooms does: besides, frames that are due are sent, each with all that happens meanwhile. -/
inductive Ticking : Server → Server → Prop
  | cascade {s t} (h : Cascade env s t) : Ticking s t
  | frame {s t p syn} (playing : (s.room p).status = .ingame) (due : (s.room p).syn.due = .ok true)
      (sends : Cascade env s t) (next : (t.room p).syn.advance = .ok syn) : Ticking s (t.setRoom p { t.room p with syn })
  | trans {s t u} (h : Ticking s t) (h' : Ticking t u) : Ticking s u

end

instance {env : Env} : IsPreorder Server (Cascade env) where
  refl s := .still (.refl s)
  trans _ _ _ := .trans

instance {env : Env} : IsPreorder Server (Ticking env) where
  refl s := .cascade (.still (.refl s))
  trans _ _ _ := .trans

section
variable {env : Env} {s t : Server} {p : RoomPtr}

theorem Server.clocked_sheds (p : RoomPtr) (s : Server) : Sheds s (s.clocked env p) :=
  .beside rfl (Nat.le_add_right ..) (.refl _)

theorem Cascade.sheds (h : Cascade env s t) : Sheds s t := by
  induction h with
  | still still => exact still.toSheds
  | read s p => exact s.clocked_sheds p
  | start _ _ ih => exact ih.trans (.beside rfl (Nat.le_add_right ..) (.refl _))
  | trans _ _ ih ih' => exact ih.trans ih'

theorem Ticking.sheds (h : Ticking env s t) : Sheds s t := by
  induction h with
  | cascade h => exact h.sheds
  | frame _ _ sends _ => exact sends.sheds.trans (.beside rfl (Nat.le_refl _) (.refl _))
  | trans _ _ ih ih' => exact ih.trans ih'

/-! ### One room -/

/-- What becomes of room `r` from call `n` of the system on until call `m`, in a tick or in a cascade -/
inductive Room.Ages (env : Env) : Bool → Room → Nat → Room → Nat → Prop
  | still {tick r r' n m} (still : r.Still r') (le : n ≤ m) : Ages env tick r n r' m
  | read {tick} (r : Room) (n : Nat) : Ages env tick r n { r with syn := r.syn.updateTime (env.clock n) } (n + 1)
  | start {tick r r' n m} (loading : r.status = .loading) (told : Ages env false r n r' m) :
      Ages env tick r n (r'.startGame (env.clock m) (env.clock (m + 1))) (m + 2)
  | frame {r r' n m syn} (playing : r.status = .ingame) (due : r.syn.due = .ok true) (sends : Ages env false r n r' m)
      (next : r'.syn.advance = .ok syn) : Ages env true r n { r' with syn } m
  | trans {tick r r' r'' n m k} (h : Ages env tick r n r' m) (h' : Ages env tick r' m r'' k) : Ages env tick r n r'' k

theorem Cascade.ages (h : Cascade env s t) (p : RoomPtr) (tick : Bool) :
    Room.Ages env tick (s.room p) s.sys (t.room p) t.sys := by
  induction h generalizing tick with
  | still still => exact .still (still.room p) still.sys
  | read s q =>
    by_cases here : p = q
    · subst here
      rw [Server.clocked, Server.setRoom_room_self]
      exact .read (s.room p) s.sys
    · rw [Server.clocked, Server.setRoom_room_ne here]
      exact .still (.refl _) (Nat.le_succ _)
  | @start s t q loading told ih =>
    by_cases here : p = q
    · subst here
      rw [Server.started, Server.setRoom_room_self]
      exact .start loading (ih false)
    · rw [Server.started, Server.setRoom_room_ne here]
      exact .trans (ih tick) (.still (.refl _) (Nat.le_add_right ..))
  | trans _ _ ih ih' => exact (ih tick).trans (ih' tick)

theorem Ticking.ages (h : Ticking env s t) (p : RoomPtr) : Room.Ages env true (s.room p) s.sys (t.room p) t.sys := by
  induction h with
  | cascade h => exact h.ages p true
  | @frame s t q syn playing due sends next =>
    by_cases here : p = q
    · subst here
      rw [Server.setRoom_room_self]
      exact .frame playing due (sends.ages p false) next
    · rw [Server.setRoom_room_ne here]
      exact sends.ages p true
  | trans _ _ ih ih' => exact ih.trans ih'

namespace Room.Ages

variable {tick : Bool} {r r' : Room} {n m : Nat}

theorem le (h : Ages env tick r n r' m) : n ≤ m := by
  induction h with
  | still _ le => exact le
  | read _ n => exact Nat.le_succ n
  | start _ _ ih => exact Nat.le_add_right_of_le ih
  | frame _ _ _ _ ih => exact ih
  | trans _ _ ih ih' => exact Nat.le_trans ih ih'

/-- A game goes on. -/
theorem playing (h : Ages env tick r n r' m) (playing : r.status = .ingame) :
    r'.status = .ingame ∧ r'.syn.initTime = r.syn.initTime := by
  induction h with
  | still still _ => exact ⟨still.status.trans playing, still.initTime⟩
  | read _ _ => exact ⟨playing, rfl⟩
  | start loading _ _ => cases playing.symm.trans loading
  | frame _ _ _ next ih =>
    rw [Syn.advance_eq next]
    exact ih playing
  | trans _ _ ih ih' =>
    obtain ⟨playing', initTime⟩ := ih playing
    obtain ⟨playing'', initTime'⟩ := ih' playing'
    exact ⟨playing'', initTime'.trans initTime⟩

/-- Outside of `Run`, the frame that is to be sent next stays the same. -/
theorem headFrame (h : Ages env tick r n r' m) (cascade : tick = false) (playing : r.status = .ingame) :
    r'.syn.headFrame = r.syn.headFrame := by
  induction h with
  | still still _ => exact still.headFrame
  | read _ _ => rfl
  | start loading _ _ => cases playing.symm.trans loading
  | frame _ _ _ _ _ => cases cascade
  | trans h _ ih ih' => exact (ih' cascade (h.playing playing).1).trans (ih cascade playing)

end Room.Ages

theorem Ticking.playing (h : Ticking env s t) (playing : (s.room p).status = .ingame) : (t.room p).status = .ingame :=
  ((h.ages p).playing playing).1

end

section
variable {env : Env} {del : Int → M Unit}

theorem log_cascade {e : Event} (other : e.fromClient = false) : Along (Cascade env) (log e) :=
  .modify fun s => .still (.log other s)

theorem getRoom_cascade {p : RoomPtr} : Along (Cascade env) (getRoom p) := .bind .get fun _ => .pure

theorem sendMessageByConnfd_cascade (fd : Int) (mess : CMessage) :
    Along (Cascade env) (sendMessageByConnfd env fd mess) := by
  intro s
  refine wp_mono (sendMessageByConnfd_ends fd mess s) (fun _ t ends => ?_) fun _ t ends => ?_
  · obtain rfl | ⟨_, _, _, _, _, rfl⟩ := ends
    · exact .still (.refl t)
    · exact .still (.beside (fun _ => .refl _) rfl (Nat.le_add_right ..) (.cons rfl))
  · subst ends
    exact .still (.log rfl s)

theorem sendMessageToClient_cascade (hd : ∀ fd, Along (Cascade env) (del fd)) (userId : Int) (mess : CMessage) :
    Along (Cascade env) (sendMessageToClient env del userId mess) := by
  refine .bind (log_cascade rfl) fun _ => .bind .get fun s => ?_
  split
  · exact .pure
  · refine .bind (sendMessageByConnfd_cascade _ mess) fun ret => .ite ?_ .pure
    exact .bind (log_cascade rfl) fun _ => .bind (hd _) fun _ => .pure

theorem deliver_cascade (hd : ∀ fd, Along (Cascade env) (del fd)) (p : RoomPtr) (mess : CMessage) (i : Nat) :
    Along (Cascade env) (Room.deliver env del p mess i) :=
  .bind getRoom_cascade fun _ =>
    .ite (.bind (log_cascade rfl) fun _ => .discard (sendMessageToClient_cascade hd _ mess)) .pure

theorem forSlots_cascade {p : RoomPtr} {body : Nat → M Unit} (hb : ∀ i, Along (Cascade env) (body i)) :
    ∀ fuel i, Along (Cascade env) (Room.forSlots p body fuel i)
  | 0, _ => .bind getRoom_cascade fun _ => .ite .throw .pure
  | fuel + 1, i => .bind getRoom_cascade fun _ => .ite (.bind (hb i) fun _ => forSlots_cascade hb fuel (i + 1)) .pure

theorem sendMessageToEveryone_cascade (hd : ∀ fd, Along (Cascade env) (del fd)) (p : RoomPtr) (mess : CMessage) :
    Along (Cascade env) (Room.sendMessageToEveryone env del p mess) :=
  .bind (log_cascade rfl) fun _ => forSlots_cascade (deliver_cascade hd p mess) _ _

theorem sendGameStart_cascade (hd : ∀ fd, Along (Cascade env) (del fd)) (p : RoomPtr) :
    Along (Cascade env) (Room.sendGameStart env del p) := by
  intro s
  simp only [Room.sendGameStart, wp_bind, wp_getRoom]
  split
  · exact .still (.refl s)
  · rename_i loading
    simp only [wp_bind, wp_getNowTimeUs, wp_modify]
    refine wp_mono (sendMessageToEveryone_cascade hd p _ s) (fun _ t told => ?_) fun _ _ => id
    exact (Cascade.start (of_not_not loading) told).trans (.still (.log rfl _))

theorem getNowFrame_cascade (p : RoomPtr) : Along (Cascade env) (Syn.getNowFrame env p) := by
  intro s
  simp only [Syn.getNowFrame, wp_bind, wp_getRoom, wp_log, wp_getNowTimeUs, wp_modifyRoom, wp_pure]
  exact (Cascade.still (.log rfl s)).trans (.read _ p)

/-- `Add` reads the clock, and then changes nothing but the slots. -/
theorem addTo_cascade (p : RoomPtr) (mess : CMessage) : Along (Cascade env) (Syn.addTo env p mess) := by
  intro s
  simp only [Syn.addTo, wp_bind, wp_getRoom, wp_log, wp_getNowTimeUs]
  have noted : Cascade env s (s.log (.synUse p (s.room p).status)) := .still (.log rfl s)
  refine wp_guarded (fun out added => ?_) fun _ _ => noted.trans (.still (.tickSys 1 _))
  simp only [wp_modify]
  refine (noted.trans (.read _ p)).trans (.still (.trans ?_ (.log rfl _)))
  refine .beside (fun q => ?_) rfl (Nat.le_refl _) (.refl _)
  by_cases here : q = p
  · subst here
    simp only [Server.clocked, Server.setRoom_room_self, Syn.add_eq added]
    exact ⟨rfl, rfl, rfl, rfl, rfl⟩
  · rw [Server.clocked, Server.setRoom_room_ne here, Server.setRoom_room_ne here]
    exact .refl _

theorem deletePlayer_cascade (hd : ∀ fd, Along (Cascade env) (del fd)) (p : RoomPtr) (u : Int) :
    Along (Cascade env) (Room.deletePlayer env del p u) := by
  intro s
  simp only [Room.deletePlayer, wp_bind, wp_getRoom]
  split
  · exact .still (.refl s)
  · have left : ∀ r e, (s.room p).Still r → e.fromClient = false → Cascade env s ((s.setRoom p r).log e) :=
      fun r e still other => .still ((Server.Still.setRoom still).trans (.log other _))
    cases (s.room p).status with
    | waiting =>
      simp only [wp_bind, wp_modify, wp_get, wp_pure]
      refine wp_mono ((sendMessageToEveryone_cascade hd p _).later (left _ _ ⟨rfl, rfl, rfl, rfl, rfl⟩ rfl))
        (fun _ t told => ?_) fun _ _ => id
      exact told.trans (.still (.changePersonStatus u .inHall t))
    | loading =>
      simp only [wp_bind, wp_modify, wp_getRoom]
      refine wp_mono ((sendMessageToEveryone_cascade hd p _).later (left _ _ ⟨rfl, rfl, rfl, rfl, rfl⟩ rfl))
        (fun _ t told => ?_) fun _ _ => id
      split
      · simp only [wp_bind, wp_modifyRoom, wp_pure]
        exact told.trans (.still (.setRoom ⟨rfl, rfl, rfl, rfl, rfl⟩))
      · simp only [wp_bind, wp_log]
        have checked := told.trans (.still (@Server.Still.log (.leaveCheck p (t.room p).overcounted
          ((t.room p).loadingSucceedCnt ≥ (t.room p).onlinePlayerCnt)) rfl t))
        split
        · simp only [wp_bind, wp_pure]
          exact (sendGameStart_cascade hd p).later checked
        · exact checked
    | ingame =>
      simp only [wp_bind, wp_modify, wp_pure]
      have left := left ((s.room p).setOffline ((s.room p).getPlayerId u)) (.leave p ((s.room p).getPlayerId u) .ingame)
        ⟨rfl, rfl, rfl, rfl, rfl⟩ rfl
      refine wp_mono (getNowFrame_cascade p _) (fun frame t read => ?_) fun _ _ => left.trans
      exact (addTo_cascade p _).later (left.trans read)

theorem deletePlayerFromRoom_cascade (hd : ∀ fd, Along (Cascade env) (del fd)) (u : Int) :
    Along (Cascade env) (RoomManager.deletePlayerFromRoom env del u) := by
  refine .bind .get fun s => ?_
  cases s.belongRoom[u]? with
  | none => exact .pure
  | some p => exact .bind (.modify fun _ => .still (.same rfl rfl rfl rfl)) fun _ => deletePlayer_cascade hd p u

theorem personLogout_cascade (hd : ∀ fd, Along (Cascade env) (del fd)) (u : Int) :
    Along (Cascade env) (PersonManager.personLogout env del u) := by
  refine .bind .get fun s => ?_
  cases s.persons[u]? with
  | none => exact .pure
  | some person =>
    have forgotten : Along (Cascade env) (do
        modify fun s => { s with persons := s.persons.erase u }
        return Ret.success : M Ret) := .bind (.modify fun _ => .still (.same rfl rfl rfl rfl)) fun _ => .pure
    simp only
    cases person.status with
    | inHall => exact forgotten
    | inRoom => exact .bind (.discard (deletePlayerFromRoom_cascade hd _)) fun _ => forgotten

theorem playerLogout_cascade (hd : ∀ fd, Along (Cascade env) (del fd)) (u : Int) :
    Along (Cascade env) (playerLogout env del u) := by
  refine .bind .get fun s => ?_
  cases s.userIdToFd[u]? with
  | none => exact .pure
  | some fd =>
    refine .bind (.modify fun s => .still ?_) fun _ => .bind (.discard (personLogout_cascade hd u)) fun _ => .modify fun s => .still ?_
    · exact ⟨⟨Nat.le_refl _, rfl, fun _ => id, fun _ _ => id, fun _ _ => id, fun _ _ => Map.of_erase, (.refl _)⟩, fun _ => .refl _⟩
    · exact ⟨⟨Nat.le_refl _, rfl, fun _ => id, fun _ _ => id, fun _ _ => Map.of_erase, fun _ _ => id, (.refl _)⟩, fun _ => .refl _⟩

theorem deleteClientStep_cascade (hd : ∀ fd, Along (Cascade env) (del fd)) (fd : Int) :
    Along (Cascade env) (deleteClientStep env del fd) := by
  refine .bind .get fun s => ?_
  split
  · exact .pure
  · refine .bind (.modify fun s => .still (.dropConnection fd _ s)) fun _ => .bind .get fun t => ?_
    split
    · exact .pure
    · exact playerLogout_cascade hd _

theorem deleteClientFuel_cascade : ∀ fuel fd, Along (Cascade env) (deleteClientFuel env fuel fd)
  | 0, fd => deleteClientStep_cascade (fun _ => .throw) fd
  | fuel + 1, fd => deleteClientStep_cascade (deleteClientFuel_cascade fuel) fd

theorem deleteClientByFd_cascade (fd : Int) : Along (Cascade env) (deleteClientByFd env fd) :=
  .bind .get fun _ => deleteClientFuel_cascade _ fd

/-! ### The ticks -/

theorem broadcast_cascade (hd : ∀ fd, Along (Cascade env) (del fd)) (p : RoomPtr) (mess : CMessage) :
    Along (Cascade env) (Syn.broadcast env del p mess) :=
  .bind (log_cascade rfl) fun _ => .bind (sendMessageToEveryone_cascade hd p mess) fun _ => log_cascade rfl

theorem guarded_cascade {α : Type} (x : Except Fault α) : Along (Cascade env) (guarded x) := by
  cases x with
  | ok a => exact .pure
  | error e => exact .throw

theorem sendFrameMess_cascade (hd : ∀ fd, Along (Cascade env) (del fd)) (p : RoomPtr) :
    Along (Cascade env) (Syn.sendFrameMess env del p) :=
  .bind getRoom_cascade fun _ => .bind (guarded_cascade _) fun _ => .ite (broadcast_cascade hd p _) .pure

theorem sendSlot_cascade (hd : ∀ fd, Along (Cascade env) (del fd)) (p : RoomPtr) :
    ∀ fuel i, Along (Cascade env) (Syn.sendSlot env del p fuel i)
  | 0, _ => .bind getRoom_cascade fun _ => .bind (guarded_cascade _) fun _ => .ite .throw .pure
  | fuel + 1, i => by
    refine .bind getRoom_cascade fun r => .bind (guarded_cascade _) fun h => ?_
    split
    · exact .pure
    · refine .bind (.modify fun s => .still (.setRoom ⟨rfl, rfl, rfl, rfl, rfl⟩)) fun _ => ?_
      exact .bind (broadcast_cascade hd p _) fun _ => sendSlot_cascade hd p fuel (i + 1)

theorem sendHeadFrameToAll_cascade (hd : ∀ fd, Along (Cascade env) (del fd)) (p : RoomPtr) :
    Along (Cascade env) (Syn.sendHeadFrameToAll env del p) := by
  refine .bind getRoom_cascade fun _ => .bind (log_cascade rfl) fun _ => .bind (sendFrameMess_cascade hd p) fun _ => ?_
  refine .bind (sendSlot_cascade hd p _ _) fun _ => .bind getRoom_cascade fun _ => .bind (guarded_cascade _) fun h => ?_
  refine .modify fun s => .still ?_
  exact (Server.Still.setRoom (r := { s.room p with syn := (s.room p).syn.clear h }) ⟨rfl, rfl, rfl, rfl, rfl⟩).trans (.log rfl _)

/-- `Run` ends when no frame is due any more. -/
theorem runLoop_ticking (hd : ∀ fd, Along (Cascade env) (del fd)) {p : RoomPtr} : ∀ fuel s, (s.room p).status = .ingame →
    wp (Syn.runLoop env del p fuel) (fun _ t => Ticking env s t ∧ (t.room p).syn.due = .ok false)
      (fun _ t => Ticking env s t) s
  | 0, s, _ => refl_of (Ticking env) s
  | fuel + 1, s, playing => by
    simp only [Syn.runLoop, wp_bind, wp_getRoom]
    refine wp_guarded (fun due hdue => ?_) fun _ _ => refl_of (Ticking env) s
    split
    · rename_i ready
      simp only [wp_bind, wp_getRoom, wp_modifyRoom]
      refine wp_mono (sendHeadFrameToAll_cascade hd p s) (fun _ t sends => ?_) fun _ _ => .cascade
      refine wp_guarded (fun syn next => ?_) fun _ _ => .cascade sends
      have frame := Ticking.frame playing (ready ▸ hdue) sends next
      refine wp_mono (runLoop_ticking hd fuel _ ?_) (fun _ u rest => ⟨frame.trans rest.1, rest.2⟩) fun _ u rest => frame.trans rest
      exact frame.playing playing
    · rename_i done
      rw [Bool.not_eq_true] at done
      exact ⟨refl_of (Ticking env) s, done ▸ hdue⟩

theorem deleteClientByUserId_cascade (u : Int) : Along (Cascade env) (deleteClientByUserId env u) := by
  refine .bind .get fun s => ?_
  split
  · exact .pure
  · exact deleteClientByFd_cascade _

theorem kickUnloaded_cascade (p : RoomPtr) (i : Nat) : Along (Cascade env) (Room.kickUnloaded env p i) :=
  .bind getRoom_cascade fun _ => .ite (deleteClientByUserId_cascade _) .pure

/-- After the tick of a room, no frame is due since the clock was read at its begin, and the room is not loading for too
    long. -/
theorem Room.onTick_ticking (p : RoomPtr) (s : Server) :
    wp (Room.onTick env p)
      (fun _ t => Ticking env s t ∧
        ((s.room p).status = .ingame → Ticking env (s.clocked env p) t ∧ (t.room p).syn.due = .ok false) ∧
        ((t.room p).status = .loading → second env s.sys - (t.room p).loadingTimeSecond < maxLoadingTimeSecond))
      (fun _ t => Ticking env s t) s := by
  simp only [Room.onTick, wp_bind, wp_getRoom]
  cases status : (s.room p).status with
  | waiting => exact ⟨refl_of (Ticking env) s, (fun playing => by cases playing), fun loading => by cases status.symm.trans loading⟩
  | loading =>
    simp only [wp_bind, wp_getNowTimeSecond]
    have read : Cascade env s (s.tickSys 1) := .still (.tickSys 1 s)
    refine wp_sub32 ?_ fun _ => .cascade read
    split
    · simp only [wp_bind, wp_log]
      refine wp_mono ((forSlots_cascade (kickUnloaded_cascade p) _ _).later (read.trans (.still (.log rfl _))))
        (fun _ t kicked => ?_) fun _ _ => .cascade
      simp only [Room.sendGameStart, wp_bind, wp_getRoom]
      split
      · rename_i begun
        exact ⟨.cascade kicked, (fun playing => by cases playing), fun loading => absurd loading begun⟩
      · rename_i loading
        simp only [wp_bind, wp_getNowTimeUs, wp_modify]
        refine wp_mono (sendMessageToEveryone_cascade deleteClientByFd_cascade p _ t) (fun _ u told => ?_)
          fun _ _ told => .cascade (kicked.trans told)
        have started := (Cascade.start (of_not_not loading) told).trans (.still (@Server.Still.log (.gameStart p (u.room p).unreported) rfl _))
        refine ⟨.cascade (kicked.trans started), (fun playing => by cases playing), fun loading => ?_⟩
        simp [Server.log, Room.startGame] at loading
    · rename_i early
      exact ⟨.cascade read, (fun playing => by cases playing), fun _ => Int.lt_of_not_ge early⟩
  | ingame =>
    simp only [Syn.run, wp_bind, wp_getNowTimeUs, wp_modifyRoom]
    have read : Ticking env s (s.clocked env p) := .cascade (.read s p)
    refine wp_mono (runLoop_ticking deleteClientByFd_cascade _ (s.clocked env p) (read.playing status)) (fun _ t ran => ?_)
      fun _ _ => read.trans
    have ticking := read.trans ran.1
    exact ⟨ticking, fun _ => ran, fun loading => by cases (ticking.playing status).symm.trans loading⟩

/-- A tick does `J` for each room at its turn; what the other turns keep of it is there at the end. -/
theorem tickRooms_each {I : Server → Prop} {J : RoomPtr → Server → Prop} (keeps : ∀ {s t}, I s → Ticking env s t → I t)
    (stays : ∀ {s t p}, I s → Ticking env s t → J p s → J p t)
    (turn : ∀ p s, I s → wp (Room.onTick env p) (fun _ t => J p t) (fun _ _ => True) s) :
    ∀ l s, I s → wp (RoomManager.tickRooms env l) (fun _ t => Ticking env s t ∧ ∀ entry ∈ l, J entry.2 t)
      (fun _ _ => True) s
  | [], s, _ => ⟨refl_of (Ticking env) s, List.forall_mem_nil _⟩
  | (roomId, p) :: l, s, h => by
    simp only [RoomManager.tickRooms, wp_bind, RoomManager.tickRoom]
    refine wp_mono (wp_and (Room.onTick_ticking p s) (turn p s h)) (fun _ t ticked => ?_) fun _ _ _ => trivial
    obtain ⟨⟨ticking, -⟩, done⟩ := ticked
    have rest : ∀ u, Ticking env t u → wp (RoomManager.tickRooms env l)
        (fun _ v => Ticking env s v ∧ ∀ entry ∈ (roomId, p) :: l, J entry.2 v) (fun _ _ => True) u := by
      intro u later
      have hu := keeps h (ticking.trans later)
      refine wp_mono (tickRooms_each (J := J) keeps stays turn l u hu) (fun _ v others => ?_) fun _ _ => id
      refine ⟨(ticking.trans later).trans others.1, List.forall_mem_cons.mpr ⟨?_, others.2⟩⟩
      exact stays (keeps h ticking) (later.trans others.1) done
    simp only [wp_getRoom]
    split
    · simp only [wp_modify]
      exact rest _ (.cascade (.still (.recycle _ _ rfl _)))
    · exact rest t (refl_of (Ticking env) t)

theorem expireLoop_cascade (nowsec : Int) : ∀ fuel it, Along (Cascade env) (Heartbeat.expireLoop env nowsec fuel it)
  | 0, none => .pure
  | _ + 1, none => .pure
  | 0, some _ => .throw
  | fuel + 1, some it => by
    refine .bind .get fun s => .ite .throw (.bind (fun _ => wp_sub32 (refl_of _ _) fun _ => refl_of _ _) fun _ => .ite ?_ .pure)
    exact .bind (log_cascade rfl) fun _ => .bind (deleteClientByFd_cascade _) fun _ => expireLoop_cascade nowsec fuel _

end

end IslandSurvival
