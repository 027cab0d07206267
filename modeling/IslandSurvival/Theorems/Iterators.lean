import IslandSurvival.Theorems.Failures
import IslandSurvival.Theorems.Teardown

/-! The iterator of `Heartbeat::OnTick`. The loop moves on to the next element before it deletes an expired client,
    which protects it against the erasure of the current element only: the deletion may also delete the client that
    the next element belongs to, when a write to it fails. -/

namespace IslandSurvival

open Prog

/-- While an expired client is deleted, no write to the client that comes next fails. The events are newest first;
    `failed` are the writes that failed after them. -/
def sparesNext (failed : List Int) : List Event → Bool
  | [] => true
  | .writeError _ fd :: older => sparesNext (fd :: failed) older
  | .expire _ next :: older => (next.all fun e => !failed.contains e.2) && sparesNext [] older
  | _ :: older => sparesNext failed older

/-- From `s` to `t`, the clients that come next are spared. -/
def SparesNext (s t : Server) : Prop := ∃ events, t.trace = events ++ s.trace ∧ sparesNext [] events = true

theorem SparesNext.iff {s t : Server} {events : List Event} (trace : t.trace = events ++ s.trace) :
    SparesNext s t ↔ sparesNext [] events = true := by
  constructor
  · rintro ⟨events', trace', spares⟩
    rw [trace] at trace'
    rwa [List.append_cancel_right trace']
  · exact fun spares => ⟨events, trace, spares⟩

/-- The events of a deletion only add to the writes that failed. -/
theorem sparesNext_append {events older : List Event} (quiet : ∀ e ∈ events, e.isExpire = false) (failed : List Int) :
    sparesNext failed (events ++ older) = sparesNext ((failures events).reverse ++ failed) older := by
  induction events generalizing failed with
  | nil => rfl
  | cons e events ih =>
    have rest := ih fun e' mem => quiet e' (List.mem_cons_of_mem _ mem)
    cases e with
    | writeError _ fd =>
      simp only [List.cons_append, sparesNext, failures, List.reverse_cons, List.append_assoc, List.nil_append]
      exact rest _
    | expire _ _ => exact absurd (quiet _ List.mem_cons_self) (by simp [Event.isExpire])
    | _ => exact rest _

/-! ### One deletion -/

variable {env : Env} {k l : List Frame} {s t : Server} {fd : Int}

/-- A deletion does not touch the seconds of the connections that stay. -/
theorem second_step (move : Step env k s l t) (torn : ∀ fd user mess, k ≠ [.handling fd user mess]) (main : k ≠ [])
    {sec : Int} (found : t.fdToSec[fd]? = some sec) (agree : HeartbeatsAgree s) : s.fdToSec[fd]? = some sec := by
  cases move with
  | drop _ conn =>
    obtain ⟨_, _, _, fdToSec, _⟩ := agree.dropConnection_eq conn
    rw [fdToSec, Map.getElem?_erase] at found
    split at found
    · cases found
    · exact found
  | left => rwa [PersonManager.changePersonStatus_eq] at found
  | enter _ _ _ _ => exact absurd rfl (torn _ _ _)
  | heartbeat _ _ => exact absurd rfl (torn _ _ _)
  | create _ _ _ _ _ => exact absurd rfl (torn _ _ _)
  | join _ _ _ _ _ _ => exact absurd rfl (torn _ _ _)
  | gameEnd _ _ _ => exact absurd rfl (torn _ _ _)
  | acceptFail _ _ _ => exact absurd rfl main
  | acceptLost _ _ _ => exact absurd rfl main
  | accept _ _ _ _ => exact absurd rfl main
  | _ => exact found

theorem stable_seconds (env : Env) (s : Server) (fd : Int) : Stable env (tearing fd) fun _ t =>
    HeartbeatsAgree t ∧ ∀ fd' sec : Int, t.fdToSec[fd']? = some sec → s.fdToSec[fd']? = some sec where
  step {k _ _ _} move h := by
    have main : k ++ tearing fd ≠ [] := by simp
    exact ⟨h.1.step move, fun fd' sec found => h.2 fd' sec (second_step move (fun _ _ _ => tearing_ne) main found h.1)⟩

/-- What is left of the index after an expired connection is deleted -/
structure Deleted (fd : Int) (next : Option (Int × Int)) (s t : Server) : Prop where
  agree : HeartbeatsAgree t
  index : ∀ e, e ∈ t.secFd ↔ e ∈ s.secFd ∧ e.2 ∈ t.connects
  events : ∃ events, t.trace = events ++ .expire fd next :: s.trace ∧ (∀ e ∈ events, e.isExpire = false) ∧
    ∀ fd' ∈ s.connects, fd' ∉ t.connects ↔ fd' = fd ∨ fd' ∈ failures events

/-- The connections that are deleted are the expired one and those on which a write fails meanwhile. -/
theorem deleted_spec (agree : HeartbeatsAgree s) (conn : fd ∈ s.connects) (next : Option (Int × Int)) :
    wp (deleteClientByFd env fd) (fun _ t => Deleted fd next s t)
      (fun e _ => e = .outOfBounds ∨ e = .signedOverflow) (s.log (.expire fd next)) := by
  have agree' : HeartbeatsAgree (s.log (.expire fd next)) := agree.congr rfl rfl rfl
  have may : Bottom (· = fd) (.expiring fd none) := rfl
  have deletes := deleteClientByFd_spec (stable_deletesBy env (s.log (.expire fd next)) may) [] fd _ .expire
    ⟨.outer .expiry, [], .refl _ rfl⟩
  have seconds := deleteClientByFd_spec (stable_seconds env (s.log (.expire fd next)) fd) [] fd _ .expire
    ⟨agree', fun _ _ => id⟩
  have falls := @deleteClientByFd_falls env fd (s.log (.expire fd next)) conn
  have calm := @deleteClientByFd_calm env fd (s.log (.expire fd next))
  refine wp_mono (wp_and (wp_and deletes seconds) (wp_and falls calm)) ?_ ?_
  · rintro - t ⟨⟨⟨-, events, deletes⟩, agree'', kept⟩, ⟨falls, gone⟩, -⟩
    refine ⟨agree'', fun e => ?_, events, deletes.trace, deletes.quiet, fun fd' mem => ⟨?_, ?_⟩⟩
    · rw [agree''.pairs, agree.pairs, ← agree''.keys]
      constructor
      · exact fun found => ⟨kept _ _ found, Map.mem_of_getElem? found⟩
      · rintro ⟨found, mem⟩
        obtain ⟨sec, found'⟩ := Map.mem_iff.mp mem
        obtain rfl := Option.some.inj (found.symm.trans (kept _ _ found'))
        exact found'
    · exact fun absent => (deletes.closed fd' mem).resolve_left absent
    · rintro (rfl | failed)
      · exact gone
      · obtain ⟨failed', trace, absent⟩ := falls.failed
        rw [deletes.trace, failures_append] at trace
        exact absent fd' (List.append_cancel_right trace ▸ failed)
  · rintro e t ⟨-, ⟨other, -⟩, numeric⟩
    simp only [Fault.Numeric, List.mem_cons, List.not_mem_nil, or_false] at numeric
    simpa [other] using numeric

/-! ### The loop -/

theorem PairSet.size_le {m m' : PairSet} (sub : ∀ e ∈ m, e ∈ m') : m.size ≤ m'.size := by
  have nodup : m.toList.Nodup := Std.ExtTreeSet.distinct_toList.imp fun {a b} ne => by
    rintro rfl
    exact ne Std.ReflCmp.compare_self
  rw [← Std.ExtTreeSet.length_toList, ← Std.ExtTreeSet.length_toList]
  refine List.Nodup.length_le_of_subset nodup fun e mem => ?_
  exact Std.ExtTreeSet.mem_toList.mpr (sub e (Std.ExtTreeSet.mem_toList.mp mem))

theorem Heartbeat.next_spec {m : PairSet} {e e' : Int × Int} (next : Heartbeat.next m e = some e') : e' ∈ m ∧ e ≠ e' := by
  have after := List.find?_some next
  refine ⟨Std.ExtTreeSet.mem_toList.mp (List.mem_of_find?_eq_some next), ?_⟩
  rintro rfl
  have same : comparePair e e = .eq := Std.ReflCmp.compare_self
  simp [same] at after

/-- The loop holds an element that is still there as long as the clients that come next are spared. -/
theorem expireLoop_spares {nowsec : Int} : ∀ (fuel : Nat) (it : Option (Int × Int)) (t : Server) (events : List Event),
    HeartbeatsAgree t → t.trace = events ++ s.trace →
      ((∀ e ∈ it, e ∈ t.secFd) ↔ sparesNext [] events = true) → (∀ e ∈ it, (t.secFd.insert e).size ≤ fuel) →
        wp (Heartbeat.expireLoop env nowsec fuel it) (fun _ u => SparesNext s u)
          (fun e u => e = .danglingIterator ∧ ¬SparesNext s u ∨ e = .outOfBounds ∨ e = .signedOverflow) t
  | fuel, none, t, events, _, trace, alive, _ => by
    have spares : SparesNext s t := ⟨events, trace, alive.mp nofun⟩
    cases fuel <;> exact spares
  | 0, some it, t, _, _, _, _, size => by
    have empty := Std.ExtTreeSet.eq_empty_iff_size_eq_zero.mpr (Nat.le_zero.mp (size it rfl))
    have mem : it ∈ t.secFd.insert it := PairSet.mem_insert.mpr (.inl rfl)
    rw [empty] at mem
    exact absurd mem Std.ExtTreeSet.not_mem_empty
  | fuel + 1, some (sec, fd), t, events, agree, trace, alive, size => by
    simp only [Heartbeat.expireLoop, wp_bind, wp_get]
    split
    · rename_i dangling
      have spoiled : ¬SparesNext s t := by
        rw [SparesNext.iff trace, ← alive]
        exact fun mem => dangling (mem _ rfl)
      exact .inl ⟨rfl, spoiled⟩
    · rename_i here
      have mem : (sec, fd) ∈ t.secFd := of_not_not here
      have spares : sparesNext [] events = true := alive.mp fun e eq => Option.some.inj eq ▸ mem
      simp only [wp_bind]
      refine wp_sub32 ?_ fun _ => .inr (.inr rfl)
      split
      · simp only [wp_bind, wp_log]
        have conn : fd ∈ t.connects := (agree.keys fd).mp (Map.mem_of_getElem? ((agree.pairs sec fd).mp mem))
        refine wp_mono (deleted_spec agree conn _) (fun _ u deleted => ?_) fun e u numeric => .inr numeric
        obtain ⟨agree', index, events', trace', quiet, gone⟩ := deleted
        have erased : ∀ e ∈ u.secFd, e ∈ t.secFd.erase (sec, fd) := by
          intro e there
          obtain ⟨before, conn'⟩ := (index e).mp there
          refine PairSet.mem_erase.mpr ⟨?_, before⟩
          rintro rfl
          exact (gone fd conn).mpr (.inl rfl) conn'
        refine expireLoop_spares fuel _ u (events' ++ .expire fd (Heartbeat.next t.secFd (sec, fd)) :: events) agree' ?_ ?_
          fun e next => ?_
        · rw [trace', trace, List.append_assoc, List.cons_append]
        · rw [sparesNext_append quiet, sparesNext, spares, Bool.and_true]
          cases next : Heartbeat.next t.secFd (sec, fd) with
          | none => simp
          | some e =>
            obtain ⟨there, other⟩ := Heartbeat.next_spec next
            have found := (agree.pairs e.1 e.2).mp there
            have conn' : e.2 ∈ t.connects := (agree.keys e.2).mp (Map.mem_of_getElem? found)
            have ne : e.2 ≠ fd := by
              intro same
              rw [same, (agree.pairs sec fd).mp mem] at found
              exact other (Prod.ext (Option.some.inj found) same.symm)
            have stays := gone e.2 conn'
            simp only [ne, false_or] at stays
            simp [index, there, ← stays]
        · obtain ⟨there, other⟩ := Heartbeat.next_spec next
          have smaller : (u.secFd.insert e).size ≤ (t.secFd.erase (sec, fd)).size := by
            refine PairSet.size_le fun e' mem' => ?_
            rcases PairSet.mem_insert.mp mem' with rfl | mem'
            · exact PairSet.mem_erase.mpr ⟨other, there⟩
            · exact erased e' mem'
          have before : t.secFd.size ≤ fuel + 1 :=
            Nat.le_trans (PairSet.size_le fun e' mem' => PairSet.mem_insert.mpr (.inr mem')) (size _ rfl)
          have nonempty : t.secFd.size ≠ 0 := by
            intro zero
            rw [Std.ExtTreeSet.eq_empty_iff_size_eq_zero.mpr zero] at mem
            exact Std.ExtTreeSet.not_mem_empty mem
          rw [Std.ExtTreeSet.size_erase, if_pos (Std.ExtTreeSet.contains_iff_mem.mpr mem)] at smaller
          omega
      · exact ⟨events, trace, spares⟩

/-- If a tick returns, it has spared the clients that come next, and if it uses an erased iterator, it has not; it
    stops for no other reason but an index or a number that is out of its bounds. -/
theorem iterator_kept (h : Reachable env s) (nowsec : Int) :
    wp (Heartbeat.onTick env nowsec) (fun _ t => SparesNext s t)
      (fun e t => e = .danglingIterator ∧ ¬SparesNext s t ∨ e = .outOfBounds ∨ e = .signedOverflow) s := by
  simp only [Heartbeat.onTick, wp_bind, wp_get]
  refine expireLoop_spares _ _ s [] h.config.heartbeats rfl ?_ fun e first => ?_
  · exact ⟨fun _ => rfl, fun _ e first => PairSet.mem_of_min? first⟩
  · refine PairSet.size_le fun e' mem => ?_
    rcases PairSet.mem_insert.mp mem with rfl | mem
    · exact PairSet.mem_of_min? first
    · exact mem

/-- The first of three clients in a room expires, and the write to the second one fails. -/
theorem saved_next_erased : ∃ s t, Reachable Script.brokenRoom s ∧
    Heartbeat.onTick Script.brokenRoom 41 s = .error .danglingIterator t := by
  obtain ⟨s, reachable, test⟩ := exists_of_ends 7
    (fun s => Stops (Heartbeat.expireLoop Script.brokenRoom 41 s.secFd.size s.secFd.toList.head? s)
      fun e _ => e == .danglingIterator)
    (Script.reachable Script.brokenRoom) (by decide +kernel)
  rw [← Heartbeat.onTick_eq] at test
  obtain ⟨e, t, run, dangling⟩ := exists_of_stops test
  obtain rfl := beq_iff_eq.mp dangling
  exact ⟨s, t, reachable, run⟩

/-- Three users wait in a room, and every write goes well. -/
def Script.soundRoom : Env := party (fun _ => []) (fun _ => none) fun _ => false

/-- All three clients expire in one tick, one after the other. -/
theorem iterator_kept_soundRoom : ∃ s t, Reachable Script.soundRoom s ∧ s.connects.size = 3 ∧
    Heartbeat.onTick Script.soundRoom 41 s = .ok () t ∧ t.connects.size = 0 ∧ SparesNext s t := by
  obtain ⟨s, reachable, test⟩ := exists_of_ends 7
    (fun s => s.connects.size == 3 &&
      Returns (Heartbeat.expireLoop Script.soundRoom 41 s.secFd.size s.secFd.toList.head? s)
        fun t => t.connects.size == 0)
    (Script.reachable Script.soundRoom) (by decide +kernel)
  rw [← Heartbeat.onTick_eq] at test
  simp only [Bool.and_eq_true, beq_iff_eq] at test
  obtain ⟨size, returns⟩ := test
  obtain ⟨⟨⟩, t, run, empty⟩ := exists_of_returns returns
  have spares := wp_ok (iterator_kept reachable 41) run
  exact ⟨s, t, reachable, size, run, beq_iff_eq.mp empty, spares⟩

end IslandSurvival
