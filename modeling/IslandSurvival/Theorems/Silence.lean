import IslandSurvival.Theorems.Pacing

/-! Silent clients. `RunOnTick` looks at the heartbeats every 40 seconds, and then drops the connections that have been
    silent for more than 40; together this bounds how long a silent connection can stay. -/

namespace IslandSurvival

open Prog

section
variable {env : Env} {s t : Server} {sec fd nowsec : Int}

/-! ### The sweep -/

/-- A deletion takes the heartbeat of the connection out, and maybe others. -/
theorem deleteClientByFd_erases (agree : HeartbeatsAgree s) (mem : (sec, fd) ∈ s.secFd) :
    wp (deleteClientByFd env fd) (fun _ t => ∀ e ∈ t.secFd, e ∈ s.secFd.erase (sec, fd)) (fun _ _ => True) s := by
  have found := (agree.pairs sec fd).mp mem
  obtain ⟨c, conn⟩ := Map.mem_iff.mp ((agree.keys fd).mp (Map.mem_of_getElem? found))
  have step : ∀ del : Int → M Unit, (∀ fd, Along (Cascade env) (del fd)) → wp (deleteClientStep env del fd)
      (fun _ t => ∀ e ∈ t.secFd, e ∈ s.secFd.erase (sec, fd)) (fun _ _ => True) s := by
    intro del hd
    obtain ⟨sec', found', secFd, -⟩ := agree.dropConnection_eq conn
    obtain rfl := Option.some.inj (found'.symm.trans found)
    simp only [deleteClientStep, wp_bind, wp_get, conn, wp_modify]
    split
    · exact fun e mem => secFd ▸ mem
    · exact wp_mono (playerLogout_cascade hd _ _) (fun _ t later e mem => secFd ▸ later.sheds.secFd e mem) fun _ _ _ => trivial
  simp only [deleteClientByFd, wp_bind, wp_get]
  cases s.connects.size with
  | zero => exact step _ fun _ => .throw
  | succ n => exact step _ (deleteClientFuel_cascade n)

theorem stable_heartbeats (env : Env) : Stable env [] fun _ s => HeartbeatsAgree s := .of HeartbeatsAgree.step

/-- When the loop of `OnTick` returns, no connection is silent for too long, whatever writes fail: the iterator is at the
    first pair all the time. -/
theorem expireLoop_sweeps_all : ∀ (fuel : Nat) (it : Option (Int × Int)) (s : Server), HeartbeatsAgree s →
    s.secFd.min? = it → wp (Heartbeat.expireLoop env nowsec fuel it) (fun _ t => ∀ e ∈ t.secFd, nowsec - e.1 ≤ 40)
      (fun _ _ => True) s
  | fuel, none, s, _, first => by
    have empty := Std.ExtTreeSet.min?_eq_none_iff.mp first
    have none : ∀ e ∈ s.secFd, nowsec - e.1 ≤ 40 := by
      intro e mem
      rw [empty] at mem
      exact absurd mem Std.ExtTreeSet.not_mem_empty
    cases fuel <;> exact none
  | 0, some _, _, _, _ => trivial
  | fuel + 1, some it, s, agree, first => by
    have mem := PairSet.mem_of_min? first
    simp only [Heartbeat.expireLoop, wp_bind, wp_get]
    rw [if_neg (not_not_intro mem)]
    simp only [wp_bind]
    refine wp_sub32 ?_ fun _ => trivial
    split
    · simp only [wp_bind, wp_log]
      have agree' : HeartbeatsAgree (s.log (.expire it.2 (Heartbeat.next s.secFd it))) := agree.congr rfl rfl rfl
      have deletes := deleteClientByFd_spec (stable_heartbeats env) [] it.2 _ .event agree'
      refine wp_mono (wp_and (deleteClientByFd_erases agree' mem) deletes) (fun _ u deleted => ?_) fun _ _ _ => trivial
      obtain ⟨rest, agree⟩ := deleted
      rw [PairSet.next_min first]
      cases next : (s.secFd.erase it).min? with
      | none =>
        refine expireLoop_sweeps_all fuel none u agree (Std.ExtTreeSet.min?_eq_none_iff.mpr ?_)
        rw [Std.ExtTreeSet.eq_empty_iff_forall_not_mem]
        intro e there
        have empty := Std.ExtTreeSet.min?_eq_none_iff.mp next
        exact absurd (empty ▸ rest e there) Std.ExtTreeSet.not_mem_empty
      | some it' =>
        by_cases there : it' ∈ u.secFd
        · refine expireLoop_sweeps_all fuel (some it') u agree (Std.ExtTreeSet.min?_eq_some_iff_mem_and_forall.mpr ⟨there, ?_⟩)
          exact fun e mem => (Std.ExtTreeSet.min?_eq_some_iff_mem_and_forall.mp next).2 e (rest e mem)
        · -- The iterator is gone, and the loop does not go on.
          cases fuel with
          | zero => trivial
          | succ fuel =>
            simp only [Heartbeat.expireLoop, wp_bind, wp_get]
            rw [if_pos there]
            trivial
    · rename_i young
      intro e there
      have le := PairSet.min?_le first there
      omega

/-! ### The loop -/

/-- Every heartbeat is a second that the clock has shown, and at most 40 seconds older than the last sweep. -/
structure Heard (env : Env) (s : Server) : Prop where
  swept : ∃ i < s.sys, s.presec = second env i
  read : ∀ e ∈ s.secFd, ∃ i < s.sys, e.1 = second env i
  young : ∀ e ∈ s.secFd, s.presec - e.1 ≤ 40

theorem Heard.sheds (h : Heard env s) (sheds : Sheds s t) : Heard env t where
  swept := by
    obtain ⟨i, lt, time⟩ := h.swept
    exact ⟨i, Nat.lt_of_lt_of_le lt sheds.sys, sheds.presec.trans time⟩
  read e mem := by
    obtain ⟨i, lt, time⟩ := h.read e (sheds.secFd e mem)
    exact ⟨i, Nat.lt_of_lt_of_le lt sheds.sys, time⟩
  young e mem := by
    rw [sheds.presec]
    exact h.young e (sheds.secFd e mem)

theorem Serves.heard (h : Serves env s t) (mono : Monotone (second env)) (heard : Heard env s) : Heard env t := by
  induction h with
  | cascade h => exact heard.sheds h.sheds
  | @note s t _ still _ _ =>
    have kept : Heard env { t with trace := s.trace } := heard.sheds still.toSheds
    exact ⟨kept.swept, kept.read, kept.young⟩
  | @reset s t p sheds _ _ _ _ =>
    have kept : Heard env { t with rooms := s.rooms } := heard.sheds sheds
    exact ⟨kept.swept, kept.read, kept.young⟩
  | @beat s t same secFd =>
    have kept : Heard env { t with secFd := s.secFd } := heard.sheds same.toSheds
    refine ⟨kept.swept, fun e mem => ?_, fun e mem => ?_⟩
    · rcases secFd e mem with old | ⟨lt, now⟩
      · exact kept.read e old
      · exact ⟨s.sys, lt, now⟩
    · rcases secFd e mem with old | ⟨lt, now⟩
      · exact kept.young e old
      · obtain ⟨i, before, time⟩ := heard.swept
        have presec : t.presec = s.presec := same.presec
        have le := mono (Nat.le_of_lt before)
        rw [presec, time, now]
        omega
  | enter _ _ =>
    unfold playerLogin
    split <;> exact ⟨heard.swept, heard.read, heard.young⟩
  | trans _ _ ih ih' => exact ih' (ih heard)

/-- A tick leaves the rooms' loop with the heartbeats in order, and then sweeps them or has done so lately. -/
theorem runOnTick_heard (mono : Monotone (second env)) (heard : Heard env s) (agree : HeartbeatsAgree s) :
    wp (runOnTick env) (fun _ t => Heard env t ∧ ∀ e ∈ t.secFd, second env s.sys - e.1 < 80) (fun _ _ => True) s := by
  have rooms : wp (RoomManager.onTick env) (fun _ u => Sheds s u ∧ HeartbeatsAgree u) (fun _ _ => True) s := by
    have turns := tickRooms_each (I := fun _ => True) (J := fun _ _ => True) (fun _ _ => trivial) (fun _ _ _ => trivial)
      (fun p u _ => wp_mono (@Room.onTick_ticking env p u) (fun _ _ _ => trivial) fun _ _ _ => trivial)
    have agrees := tickRooms_spec (stable_heartbeats env) s.rooms.toList s (by
      rw [Std.ExtTreeMap.map_fst_toList_eq_keys]
      exact Std.ExtTreeMap.nodup_keys) (fun entry mem => mem_toList_rooms.mp mem) agree
    simp only [RoomManager.onTick, wp_bind, wp_get]
    exact wp_mono (wp_and (turns s.rooms.toList s trivial) agrees) (fun _ u both => ⟨both.1.1.sheds, both.2⟩) fun _ _ _ => trivial
  simp only [runOnTick, wp_bind, wp_getNowTimeSecond, wp_get]
  refine wp_mono rooms (fun _ u ticked => ?_) fun _ _ _ => trivial
  obtain ⟨sheds, agree⟩ := ticked
  have kept : Heard env (u.tickSys 1) := heard.sheds (sheds.trans (.beside rfl (Nat.le_succ _) (.refl _)))
  have later : second env s.sys ≤ second env u.sys := mono sheds.sys
  refine wp_sub32 ?_ fun _ => trivial
  split
  · rename_i lately
    have lately : second env u.sys - u.presec < 40 := lately
    refine ⟨kept, fun e mem => ?_⟩
    have young : u.presec - e.1 ≤ 40 := kept.young e mem
    omega
  · simp only [wp_bind, wp_set, Heartbeat.onTick, wp_get]
    have now : toInt32 (env.clock u.sys / 1000000) = second env u.sys := rfl
    rw [now]
    have agree' : HeartbeatsAgree { u.tickSys 1 with presec := second env u.sys } := agree.congr rfl rfl rfl
    refine wp_mono (wp_and (expireLoop_cascade _ _ _ _) (expireLoop_sweeps_all _ _ _ agree' rfl)) (fun _ v swept => ?_)
      fun _ _ _ => trivial
    obtain ⟨expired, young⟩ := swept
    have sheds := expired.sheds
    have presec : v.presec = second env u.sys := sheds.presec
    refine ⟨⟨⟨u.sys, Nat.lt_of_lt_of_le (Nat.lt_succ_self _) sheds.sys, presec⟩, fun e mem => ?_, fun e mem => ?_⟩, fun e mem => ?_⟩
    · obtain ⟨i, lt, time⟩ := kept.read e (sheds.secFd e mem)
      exact ⟨i, Nat.lt_of_lt_of_le lt sheds.sys, time⟩
    · rw [presec]
      exact young e mem
    · have := young e mem
      omega

theorem Main.heard (h : Main env s) (mono : Monotone (second env)) : Heard env s := by
  induction h with
  | boot fresh polls booted =>
    obtain ⟨fd, _, _, rfl, -, -⟩ := boot_eq booted
    refine ⟨⟨_, Nat.lt_succ_self _, rfl⟩, fun e mem => ?_, fun e mem => ?_⟩
    all_goals
      rw [fresh.secFd] at mem
      exact absurd mem Std.ExtTreeSet.not_mem_empty
  | @turn s t u n h tick receive ih =>
    have ticked := wp_ok (runOnTick_heard mono ih h.reachable.config.heartbeats) tick
    exact (wp_ok (receiveMessage_serves _) receive).heard mono ticked.1

/-- On a clock that does not go back, whatever writes fail: every connection that is left after a tick has sent a
    heartbeat, or was made, less than 80 seconds before the tick began. -/
theorem silence_bounded (h : Main env s) (mono : Monotone env.clock) (epoch : env.InEpoch)
    (tick : runOnTick env s = .ok () t) (conn : fd ∈ t.connects) : ∃ sec, ∃ i < t.sys, t.fdToSec[fd]? = some sec ∧
      sec = env.clock i / 1000000 ∧ env.clock s.sys / 1000000 < sec + 80 := by
  have seconds := second_mono mono epoch
  have ticked := wp_ok (runOnTick_heard seconds (h.heard seconds) h.reachable.config.heartbeats) tick
  obtain ⟨heard, young⟩ := ticked
  have reached : Reachable env t := .tick h.reachable tick
  have agree := reached.config.heartbeats
  obtain ⟨sec, found⟩ := Map.mem_iff.mp ((agree.keys fd).mpr conn)
  have mem := (agree.pairs sec fd).mpr found
  obtain ⟨i, lt, time⟩ := heard.read _ mem
  have young := young _ mem
  simp only [second_eq epoch] at time young
  exact ⟨sec, i, lt, found, time, by omega⟩

theorem silence_bounded_party : ∃ s t, Main Script.loadingParty s ∧ runOnTick Script.loadingParty s = .ok () t ∧
    ∃ sec, ∃ i < t.sys, t.fdToSec[(4 : Int)]? = some sec ∧ sec = Script.loadingParty.clock i / 1000000 ∧
      Script.loadingParty.clock s.sys / 1000000 < sec + 80 := by
  obtain ⟨s, t, main, tick, test⟩ := exists_of_ticksTo 9 (fun t => decide ((4 : Int) ∈ t.connects))
    (Script.main Script.loadingParty) (by decide +kernel)
  have conn := of_decide_eq_true test
  exact ⟨s, t, main, tick, silence_bounded main Script.loadingParty_mono Script.loadingParty_epoch tick conn⟩

end

end IslandSurvival
