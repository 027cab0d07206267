import IslandSurvival.Theorems.Departures
import IslandSurvival.Theorems.Teardown

/-! The end of the loading time. `Room::OnTick` disconnects the players that have not loaded, one after the other. Each
    departure is announced to the rest, may take others along and may start the game, and still the loop leaves
    nobody in the room who has not loaded. -/

namespace IslandSurvival

open Prog

/-- Once loading has begun, a room keeps its slots, and the flags of those who are still there. -/
theorem Room.Fades.kept {r r' : Room} {l : List Nat} (h : r.Fades l r') (status : r.status ≠ .waiting) :
    r'.playerCnt = r.playerCnt ∧ r'.players = r.players ∧
      ∀ i, r'.isOnline i = true → r.isOnline i = true ∧ r'.isLoadingSucceed i = r.isLoadingSucceed i := by
  induction h with
  | refl => exact ⟨rfl, rfl, fun _ online => ⟨online, rfl⟩⟩
  | @leave l r' u h pos ih =>
    obtain ⟨cnt, players, flags⟩ := ih
    rw [vacate, if_neg (mt h.waiting.mp status)]
    refine ⟨cnt, players, fun i online => ?_⟩
    simp only [setOffline] at online ⊢
    by_cases here : i = r'.getPlayerId u
    · rw [here, Function.update_self] at online
      cases online
    · rw [Function.update_of_ne here] at online
      exact flags i online
  | @unload l r' pos h _ offline ih =>
    obtain ⟨cnt, players, flags⟩ := ih
    refine ⟨cnt, players, fun i online => ?_⟩
    have other : i ≠ pos := by
      rintro rfl
      rw [show r'.isOnline i = true from online] at offline
      cases offline
    simp only [unloadSlot]
    rw [Function.update_of_ne other]
    exact flags i online
  | start _ _ _ _ ih => exact ih
  | syn _ _ _ ih => exact ih

/-! ### Connections -/

/-- From `s` to `t` no connection is deleted but `roots`, and those on which a write failed. -/
def ClosedBy (roots : Int → Prop) (s t : Server) : Prop :=
  ∃ events, t.trace = events ++ s.trace ∧ ∀ fd ∈ s.connects, fd ∈ t.connects ∨ roots fd ∨ fd ∈ failures events

namespace ClosedBy

variable {roots roots' : Int → Prop} {s t u : Server}

theorem same (connects : t.connects = s.connects) (later : s.trace <:+ t.trace) : ClosedBy roots s t := by
  obtain ⟨events, trace⟩ := later
  exact ⟨events, trace.symm, fun fd mem => .inl (connects ▸ mem)⟩

theorem trans (h : ClosedBy roots s t) (h' : ClosedBy roots t u) : ClosedBy roots s u := by
  obtain ⟨events, trace, closed⟩ := h
  obtain ⟨events', trace', closed'⟩ := h'
  refine ⟨events' ++ events, by rw [trace', trace, List.append_assoc], fun fd mem => ?_⟩
  rw [failures_append, List.mem_append]
  rcases closed fd mem with mem | why | failed
  · exact (closed' fd mem).imp_right fun why => why.imp_right .inl
  · exact .inr (.inl why)
  · exact .inr (.inr (.inr failed))

theorem mono (h : ClosedBy roots s t) (imp : ∀ fd, roots fd → roots' fd) : ClosedBy roots' s t := by
  obtain ⟨events, trace, closed⟩ := h
  exact ⟨events, trace, fun fd mem => (closed fd mem).imp_right fun why => why.imp_left (imp fd)⟩

theorem of_deletes {events : List Event} {k : List Frame} (h : DeletesBy events s roots k t) : ClosedBy roots s t :=
  ⟨events, h.trace, h.closed⟩

end ClosedBy

section
variable {env : Env} {p : RoomPtr} {id : Int} {s a : Server}

/-- `SendGameStart` deletes only clients to whom a write fails. -/
theorem sendGameStart_closes (s : Server) :
    wp (Room.sendGameStart env (deleteClientByFd env) p) (fun _ t => ClosedBy (fun _ => False) s t) (fun _ _ => True) s := by
  have stack : Stack [.handling 0 none (.build Msg.scGameStart (-1) .scGameStart)] := .outer .request
  have may : Bottom (fun _ => False) (.handling 0 none (.build Msg.scGameStart (-1) .scGameStart)) := trivial
  have st := stable_deletesBy env s may
  refine wp_mono (Room.sendGameStart_spec (k := []) st (deleteClientByFd_spec st) (fun _ => ?_) fun _ => ?_)
    (fun _ t ends => ?_) fun _ _ _ => trivial
  · exact ⟨stack.push .startRequest, [], .refl s rfl⟩
  · exact ⟨stack, [], .refl s rfl⟩
  · obtain ⟨-, _, deletes⟩ := ends
    exact .of_deletes deletes

/-- The connections of the online players of a room who have not loaded -/
def Server.Unloaded (s : Server) (p : RoomPtr) (fd : Int) : Prop :=
  ∃ i, 1 ≤ i ∧ i ≤ (s.room p).playerCnt ∧ (s.room p).isOnline i = true ∧ (s.room p).isLoadingSucceed i = false ∧
    s.userIdToFd[(s.room p).players i]? = some fd

/-- The loop of `OnTick` that began at `s` is before the turn of slot `i`. -/
structure Kicking (id : Int) (p : RoomPtr) (s : Server) (i : Nat) (a : Server) : Prop where
  agree : RecordsAgree a
  room : a.rooms[id]? = some p
  fading : Fading p s a
  loaded : ∀ j, 1 ≤ j → j < i → (a.room p).isOnline j = true → (a.room p).isLoadingSucceed j = true
  bound : ∀ u fd : Int, a.userIdToFd[u]? = some fd → s.userIdToFd[u]? = some fd
  closed : ClosedBy (s.Unloaded p) s a

/-- A member of a room has a connection. -/
theorem RecordsAgree.connected (h : RecordsAgree s) (room : s.rooms[id]? = some p) {i : Nat} (first : 1 ≤ i)
    (last : i ≤ (s.room p).playerCnt) (online : (s.room p).isOnline i = true) :
    ∃ fd, s.userIdToFd[(s.room p).players i]? = some fd ∧ s.fdToUserId[fd]? = some ((s.room p).players i) ∧
      fd ∈ s.connects := by
  have belong := (h.membership.slot room _).mpr ⟨i, first, last, online, rfl⟩
  obtain ⟨person, here, -⟩ := (h.membership.person _).mp (Map.mem_of_getElem? belong)
  obtain ⟨fd, bound⟩ := Map.mem_iff.mp ((h.bindings.person _).mp (Map.mem_of_getElem? here))
  exact ⟨fd, bound, (h.bindings.inverse _ _).mpr bound, h.bindings.live fd _ (.inr bound)⟩

/-- One turn of the loop -/
theorem kickUnloaded_kicks (status : (s.room p).status ≠ .waiting) {i : Nat} (h : Kicking id p s i a) (first : 1 ≤ i)
    (last : i ≤ (a.room p).playerCnt) :
    wp (Room.kickUnloaded env p i) (fun _ b => Kicking id p s (i + 1) b) (fun _ _ => True) a := by
  simp only [Room.kickUnloaded, wp_bind, wp_getRoom]
  split
  · rename_i slow
    simp only [Bool.and_eq_true, Bool.not_eq_true'] at slow
    obtain ⟨online, unloaded⟩ := slow
    obtain ⟨fd, bound, user, conn⟩ := h.agree.connected h.room first last online
    simp only [deleteClientByUserId, wp_bind, wp_get, bound]
    have torn := teardown_agrees env a h.agree fd conn
    have kept := deleteClientByFd_spec (stable_bound env fd a) [] fd a .expire fun _ _ here => here
    have fades : Along (Fading p) (deleteClientByFd env fd) := deleteClientByFd_fading fd
    have may : Bottom (· = fd) (.expiring fd none) := rfl
    have deletes := deleteClientByFd_spec (stable_deletesBy env a may) [] fd a .expire ⟨.outer .expiry, [], .refl a rfl⟩
    have snap : Snapshot [.kickSlot p i, .timeout p, .ticking id p a.rooms] a := by
      rintro tick (_ | ⟨_, ⟨⟩⟩)
      exact ⟨rfl, h.room⟩
    have st : Stable env [] Snapshot := .of snapshot_step
    have rooms := deleteClientByFd_spec st [.kickSlot p i, .timeout p, .ticking id p a.rooms] fd a (.slot bound) snap
    refine wp_mono (wp_and (wp_and torn (wp_and kept (fades a))) (wp_and deletes rooms)) ?_ fun _ _ _ => trivial
    rintro - b ⟨⟨⟨agree, -, away⟩, kept, fading⟩, ⟨-, events, deleted⟩, snap'⟩
    have same : b.rooms = a.rooms := (snap' (id, p, a.rooms) List.mem_cons_self).1
    have room : b.rooms[id]? = some p := same ▸ h.room
    have later := h.fading.trans fading
    have status' := mt h.fading.waiting.mp status
    obtain ⟨_, -, fades⟩ := fading
    obtain ⟨_, -, fadesBefore⟩ := h.fading
    obtain ⟨cnt, players, flags⟩ := fades.kept status'
    obtain ⟨cnt', players', flags'⟩ := fadesBefore.kept status
    refine ⟨agree, room, later, fun j hj lt online' => ?_, fun u fd' here => h.bound u fd' (kept u fd' here), ?_⟩
    · obtain ⟨before, flag⟩ := flags j online'
      rw [flag]
      rcases Nat.lt_or_eq_of_le (Nat.le_of_lt_succ lt) with lt | rfl
      · exact h.loaded j hj lt before
      · -- the player of this turn is in no slot any more
        have gone := (away _ user).slots p (agree.rooms.table.room room).1 j hj (cnt ▸ last) online'
        exact absurd (congrFun players j) gone
    · refine h.closed.trans ((ClosedBy.of_deletes deleted).mono ?_)
      rintro _ rfl
      obtain ⟨before, flag⟩ := flags' i online
      exact ⟨i, first, cnt' ▸ last, before, flag ▸ unloaded, by rw [← players']; exact h.bound _ _ bound⟩
  · rename_i fast
    refine ⟨h.agree, h.room, h.fading, fun j hj lt online => ?_, h.bound, h.closed⟩
    rcases Nat.lt_or_eq_of_le (Nat.le_of_lt_succ lt) with lt | rfl
    · exact h.loaded j hj lt online
    · simpa [online] using fast

/-- The loop over the slots, for an invariant of its turns -/
theorem Room.forSlots_rule {body : Nat → M Unit} {I : Nat → Server → Prop} (step : ∀ i s, 1 ≤ i → i ≤ (s.room p).playerCnt →
    I i s → wp (body i) (fun _ t => I (i + 1) t) (fun _ _ => True) s) : ∀ fuel i s, 1 ≤ i → I i s →
      wp (forSlots p body fuel i) (fun _ t => ∃ j, I j t ∧ (t.room p).playerCnt < j) (fun _ _ => True) s
  | 0, i, s, first, h => by
    simp only [forSlots, wp_bind, wp_getRoom]
    split
    · trivial
    · rename_i gt
      exact ⟨i, h, Nat.lt_of_not_le gt⟩
  | fuel + 1, i, s, first, h => by
    simp only [forSlots, wp_bind, wp_getRoom]
    split
    · rename_i le
      simp only [wp_bind]
      exact wp_post (step i s first le h) fun _ t next => forSlots_rule step fuel (i + 1) t (Nat.succ_pos i) next
    · rename_i gt
      exact ⟨i, h, Nat.lt_of_not_le gt⟩

/-- After `SendGameStart` nobody loads any more. -/
theorem sendGameStart_starts (status : (s.room p).status ≠ .waiting) :
    wp (Room.sendGameStart env (deleteClientByFd env) p) (fun _ t => (t.room p).status = .ingame) (fun _ _ => True) s := by
  simp only [Room.sendGameStart, wp_bind, wp_getRoom]
  split
  · rename_i idle
    cases here : (s.room p).status with
    | waiting => exact absurd here status
    | loading => exact absurd here idle
    | ingame => exact here
  · simp only [wp_bind, wp_getNowTimeUs, wp_modify]
    refine wp_mono wp_self (fun _ t _ => ?_) fun _ _ _ => trivial
    simp [Server.log, Room.startGame]

/-- When the loading time of a room is over, its tick, whatever writes fail, leaves a game that has started, in which
    every player that is still online has loaded; and it disconnects nobody but the players who had not loaded, and
    those to whom a write failed. -/
theorem timeout_starts_game (agree : RecordsAgree s) (room : s.rooms[id]? = some p) (loading : (s.room p).status = .loading)
    (late : maxLoadingTimeSecond ≤ toInt32 (env.clock s.sys / 1000000) - (s.room p).loadingTimeSecond) :
    wp (Room.onTick env p) (fun _ t => (t.room p).status = .ingame ∧
      (∀ i, 1 ≤ i → i ≤ (t.room p).playerCnt → (t.room p).isOnline i = true → (t.room p).isLoadingSucceed i = true) ∧
      ClosedBy (s.Unloaded p) s t) (fun _ _ => True) s := by
  simp only [Room.onTick, wp_bind, wp_getRoom, loading, wp_getNowTimeSecond]
  refine wp_sub32 ?_ fun _ => trivial
  rw [if_pos late]
  simp only [wp_bind, wp_log]
  have status : (s.room p).status ≠ .waiting := by simp [loading]
  have begin : Kicking id p s 1 ((s.tickSys 1).log (.loadTimeout p (toInt32 (env.clock s.sys / 1000000)))) := {
    agree := {
      bindings := ⟨agree.bindings.inverse, agree.bindings.live, agree.bindings.person, agree.bindings.unique⟩
      heartbeats := agree.heartbeats.congr rfl rfl rfl
      membership := ⟨agree.membership.slot, agree.membership.unique, agree.membership.person⟩
      userId := agree.userId
      inUse := agree.inUse
      idle := agree.idle
      rooms := ⟨agree.rooms.table, agree.rooms.counted, agree.rooms.belong⟩ }
    room := room
    fading := .logged rfl rfl rfl
    loaded := fun j hj lt => by omega
    bound := fun _ _ here => here
    closed := .same rfl (List.suffix_cons _ _) }
  refine wp_post (Room.forSlots_rule (fun i a first last h => kickUnloaded_kicks status h first last) maxPlayerCnt 1 _
    (Nat.le_refl 1) begin) fun _ a kicked => ?_
  obtain ⟨j, kicked, done⟩ := kicked
  have status' := mt kicked.fading.waiting.mp status
  have fades : Along (Fading p) (Room.sendGameStart env (deleteClientByFd env) p) :=
    sendGameStart_fading deleteClientByFd_fading p
  refine wp_mono (wp_and (wp_and (sendGameStart_starts status') (sendGameStart_closes a)) (fades a)) ?_ fun _ _ _ => trivial
  rintro - t ⟨⟨started, closed⟩, fading⟩
  obtain ⟨_, -, fades⟩ := fading
  obtain ⟨cnt, -, flags⟩ := fades.kept status'
  refine ⟨started, fun i first last online => ?_, kicked.closed.trans (closed.mono fun _ => False.elim)⟩
  obtain ⟨before, flag⟩ := flags i online
  rw [flag]
  exact kicked.loaded i first (by omega) before

end

/-- Player 1 of a room of three starts the loading and has loaded; then the time passes. -/
def Script.slowLoading : Env := { party (fun n => if n = 46 then [readable 4] else [])
    (fun n => if n = 47 then some (request 0x10 ++ request 0x12) else none) (fun _ => false) with
  clock := fun n => if n < 54 then 0 else 180000000 }

/-- The game starts with player 1 only. -/
theorem timeout_starts_game_alone : ∃ s t, Reachable Script.slowLoading s ∧ (s.room 0).status = .loading ∧
    Room.onTick Script.slowLoading 0 s = .ok () t ∧ t.connects.size = 1 ∧ (t.room 0).status = .ingame ∧
    ClosedBy (s.Unloaded 0) s t := by
  obtain ⟨s, reachable, test⟩ := exists_of_ends 7
    (fun s => loginsFresh s.trace && gamesEndInGame s.trace && s.rooms[(1000 : Int)]? == some 0 &&
      (s.room 0).status == .loading && decide (maxLoadingTimeSecond ≤
        toInt32 (Script.slowLoading.clock s.sys / 1000000) - (s.room 0).loadingTimeSecond) &&
      Returns (Room.onTick Script.slowLoading 0 s) fun t => t.connects.size == 1)
    (Script.reachable Script.slowLoading) (by decide +kernel)
  simp only [Bool.and_eq_true, beq_iff_eq, decide_eq_true_eq] at test
  obtain ⟨⟨⟨⟨⟨fresh, inGame⟩, room⟩, loading⟩, late⟩, returns⟩ := test
  obtain ⟨⟨⟩, t, run, size⟩ := exists_of_returns returns
  have ends := wp_ok (timeout_starts_game (records_agree reachable fresh inGame) room loading late) run
  exact ⟨s, t, reachable, loading, run, beq_iff_eq.mp size, ends.1, ends.2.2⟩

end IslandSurvival
