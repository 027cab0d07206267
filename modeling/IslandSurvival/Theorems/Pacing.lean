import Mathlib
import IslandSurvival.Theorems.Intake
import IslandSurvival.Theorems.Lockstep

/-! Games and the clock. On a clock that does not go back, a game sends its frames neither early nor late, and no room
    loads for long. -/

namespace IslandSurvival

open Prog

/-! ### The clock -/

/-- The clock shows seconds that a 32-bit number holds. -/
def Env.InEpoch (env : Env) : Prop := ∀ n, 0 ≤ env.clock n ∧ env.clock n / 1000000 ≤ int32Max

theorem second_eq {env : Env} (epoch : env.InEpoch) (n : Nat) : second env n = env.clock n / 1000000 := by
  obtain ⟨first, last⟩ := epoch n
  unfold int32Max at last
  unfold second toInt32
  exact Int.bmod_eq_of_le (by omega) (by omega)

theorem second_mono {env : Env} (mono : Monotone env.clock) (epoch : env.InEpoch) : Monotone (second env) := by
  intro n m le
  rw [second_eq epoch, second_eq epoch]
  exact Int.ediv_le_ediv (by decide) (mono le)

/-! ### A room and the clock -/

namespace Paced

variable {w : SynPhase} {syn syn' : Syn} {t t' : Int}

theorem later (h : Paced w syn t) (later : t ≤ t') : Paced w syn t' := by
  have mono := @Syn.frameAt_mono syn _ _ later
  exact ⟨Int.le_trans h.begun later, fun fits => Int.le_trans (h.shown (Int.le_trans mono fits)) mono,
    fun fits => (h.behind (Int.le_trans mono fits)).imp_right fun le => Int.le_trans le mono,
    fun fits idle running => Int.le_trans (h.sending (Int.le_trans mono fits) idle running) mono⟩

theorem congr (h : Paced w syn t) (initTime : syn'.initTime = syn.initTime) (headFrame : syn'.headFrame = syn.headFrame)
    (nowFrame : syn'.nowFrame = syn.nowFrame) : Paced w syn' t := by
  have frameAt : ∀ x, syn'.frameAt x = syn.frameAt x := fun x => by unfold Syn.frameAt; rw [initTime]
  constructor
  · rw [initTime]
    exact h.begun
  · rw [frameAt, nowFrame]
    exact h.shown
  · rw [frameAt, headFrame]
    exact h.behind
  · rw [frameAt, headFrame]
    exact h.sending

end Paced

/-- Before call `n` of the system: a game is not ahead of the clock, and a room has loaded since a second that the clock
    has shown. -/
structure Room.Timed (env : Env) (n : Nat) (r : Room) : Prop where
  paced : r.status = .ingame → Paced .idle r.syn (env.clock n)
  loading : r.status = .loading → ∃ i < n, r.loadingTimeSecond = second env i

/-- At time `begun`, no frame of a game was due but those that are sent. -/
def Room.Caught (env : Env) (begun : Int) (n : Nat) (r : Room) : Prop :=
  r.status = .ingame → r.syn.frameAt (env.clock n) ≤ int32Max → r.syn.frameAt begun < r.syn.headFrame + 4

/-- A game has read the clock since time `begun`. -/
def Room.Read (env : Env) (begun : Int) (n : Nat) (r : Room) : Prop :=
  r.status = .ingame → r.syn.frameAt (env.clock n) ≤ int32Max → r.syn.frameAt begun ≤ r.syn.nowFrame

/-- `UpdateTime` shows the frame of the clock. -/
theorem Room.Timed.read {env : Env} {n : Nat} {r : Room} {begun : Int} (timed : r.Timed env n)
    (mono : Monotone env.clock) (le : begun ≤ env.clock n) :
    Room.Read env begun (n + 1) { r with syn := r.syn.updateTime (env.clock n) } := by
  intro playing fits
  have fits : r.syn.frameAt (env.clock n) ≤ int32Max := Int.le_trans (Syn.frameAt_mono (mono (Nat.le_succ n))) fits
  show r.syn.frameAt begun ≤ (r.syn.updateTime (env.clock n)).nowFrame
  rw [Syn.updateTime_nowFrame (timed.paced playing).begun fits]
  exact Syn.frameAt_mono le

namespace Room.Ages

variable {env : Env} {tick : Bool} {r r' : Room} {n m : Nat} {begun : Int}

/-- The clock at a later call -/
theorem clock (h : Ages env tick r n r' m) (mono : Monotone env.clock) : env.clock n ≤ env.clock m := mono h.le

theorem timed (h : Ages env tick r n r' m) (mono : Monotone env.clock) (timed : r.Timed env n) : r'.Timed env m := by
  induction h with
  | @still _ r r' n m still le =>
    refine ⟨fun playing => ?_, fun loading => ?_⟩
    · have paced := (timed.paced (still.status.symm.trans playing)).later (mono le)
      exact paced.congr still.initTime still.headFrame still.nowFrame
    · obtain ⟨i, lt, time⟩ := timed.loading (still.status.symm.trans loading)
      exact ⟨i, Nat.lt_of_lt_of_le lt le, still.loadingTimeSecond.trans time⟩
  | read r n =>
    refine ⟨fun playing => ?_, fun loading => ?_⟩
    · exact ((timed.paced playing).tick (Int.le_refl _) r.syn.oneframe).later (mono (Nat.le_succ n))
    · obtain ⟨i, lt, time⟩ := timed.loading loading
      exact ⟨i, Nat.lt_succ_of_lt lt, time⟩
  | @start _ r r' n m loading _ _ =>
    refine ⟨fun _ => ?_, fun loading => by cases loading⟩
    have init := (SynRun.init r'.syn (mono (Nat.le_succ m))).paced
    exact init.later (mono (Nat.le_succ _))
  | @frame r r' n m syn playing due sends next ih =>
    obtain ⟨playing', initTime⟩ := sends.playing playing
    refine ⟨fun _ => ?_, fun loading => by cases playing'.symm.trans loading⟩
    have before := timed.paced playing
    have after := (ih timed).paced playing'
    -- The frame that is sent was due when the loop looked, and nothing has moved it since.
    have ready := of_decide_eq_true (Syn.due_eq due).symm
    have sending : r'.syn.frameAt (env.clock m) ≤ int32Max → r'.syn.headFrame + 4 ≤ r'.syn.frameAt (env.clock m) := by
      intro fits
      have frameAt : ∀ x, r'.syn.frameAt x = r.syn.frameAt x := fun x => by unfold Syn.frameAt; rw [initTime]
      have shows := @Syn.frameAt_mono r.syn _ _ (mono sends.le)
      rw [frameAt] at fits ⊢
      have shown := before.shown (Int.le_trans shows fits)
      rw [sends.headFrame rfl playing]
      omega
    have framed : Paced .framed r'.syn (env.clock m) := ⟨after.begun, after.shown, after.behind, fun fits _ _ => sending fits⟩
    have advanced := framed.advance next
    exact ⟨advanced.begun, advanced.shown, advanced.behind, by simp⟩
  | trans _ _ ih ih' => exact ih' (ih timed)

/-- A game that begins after `begun` has no frame due at that time. -/
theorem frameAt_begun {syn : Syn} (le : begun ≤ syn.initTime) : syn.frameAt begun ≤ 1 := by
  unfold Syn.frameAt
  omega

theorem caught (h : Ages env tick r n r' m) (mono : Monotone env.clock) (le : begun ≤ env.clock n)
    (caught : r.Caught env begun n) : r'.Caught env begun m := by
  induction h with
  | @still _ r r' n m still later =>
    intro playing fits
    have frameAt : ∀ x, r'.syn.frameAt x = r.syn.frameAt x := fun x => by unfold Syn.frameAt; rw [still.initTime]
    rw [frameAt] at fits ⊢
    rw [still.headFrame]
    exact caught (still.status.symm.trans playing) (Int.le_trans (Syn.frameAt_mono (mono later)) fits)
  | read r n =>
    intro playing fits
    exact caught playing (Int.le_trans (Syn.frameAt_mono (mono (Nat.le_succ n))) fits)
  | @start _ r r' n m loading told _ =>
    intro _ _
    have le : begun ≤ (r'.startGame (env.clock m) (env.clock (m + 1))).syn.initTime := Int.le_trans le (told.clock mono)
    exact Int.lt_of_le_of_lt (frameAt_begun le) (by simp [startGame, Syn.init, Syn.updateTime])
  | @frame r r' n m syn playing due sends next ih =>
    intro playing' fits
    have kept := ih le caught playing'
    rw [Syn.advance_eq next] at fits ⊢
    have kept := kept fits
    show r'.syn.frameAt begun < r'.syn.headFrame + 1 + 4
    omega
  | trans h _ ih ih' => exact ih' (Int.le_trans le (h.clock mono)) (ih le caught)

theorem reads (h : Ages env tick r n r' m) (mono : Monotone env.clock) (le : begun ≤ env.clock n)
    (timed : r.Timed env n) (read : r.Read env begun n) : r'.Read env begun m := by
  induction h with
  | @still _ r r' n m still later =>
    intro playing fits
    have frameAt : ∀ x, r'.syn.frameAt x = r.syn.frameAt x := fun x => by unfold Syn.frameAt; rw [still.initTime]
    rw [frameAt] at fits ⊢
    rw [still.nowFrame]
    exact read (still.status.symm.trans playing) (Int.le_trans (Syn.frameAt_mono (mono later)) fits)
  | read _ _ => exact timed.read mono le
  | @start _ r r' n m loading told _ =>
    intro _ fits
    have fits := Int.le_trans (Syn.frameAt_mono (mono (Nat.le_succ (m + 1)))) fits
    have le : begun ≤ env.clock (m + 1) := Int.le_trans le (Int.le_trans (told.clock mono) (mono (Nat.le_succ m)))
    have shown := @Syn.updateTime_nowFrame { r'.syn with oneframe := fun _ => .init, initTime := env.clock m, head := 0, headFrame := 1 } _
      (mono (Nat.le_succ m)) fits
    exact Int.le_trans (Syn.frameAt_mono le) (Int.le_of_eq shown.symm)
  | @frame r r' n m syn playing due sends next ih =>
    intro playing' fits
    have kept := ih le timed read playing'
    rw [Syn.advance_eq next] at fits ⊢
    exact kept fits
  | trans h _ ih ih' => exact ih' (Int.le_trans le (h.clock mono)) (h.timed mono timed) (ih le timed read)

/-- A room that loads has loaded all the while. -/
theorem loading (h : Ages env tick r n r' m) (loads : r'.status = .loading) :
    r.status = .loading ∧ r'.loadingTimeSecond = r.loadingTimeSecond := by
  induction h with
  | still still _ => exact ⟨still.status.symm.trans loads, still.loadingTimeSecond⟩
  | read _ _ => exact ⟨loads, rfl⟩
  | start _ _ _ => cases loads
  | frame _ _ _ _ ih => exact ih loads
  | trans _ _ ih ih' =>
    obtain ⟨loads', same'⟩ := ih' loads
    obtain ⟨loads'', same⟩ := ih loads'
    exact ⟨loads'', same'.trans same⟩

end Room.Ages

/-! ### The server and the clock -/

section
variable {env : Env} {s t u : Server} {p : RoomPtr}

/-- Every room of the table is timed. -/
def RoomsTimed (env : Env) (s : Server) : Prop :=
  ∀ (roomId : Int) p, s.rooms[roomId]? = some p → (s.room p).Timed env s.sys

theorem Ticking.roomsTimed (h : Ticking env s t) (mono : Monotone env.clock) (timed : RoomsTimed env s) : RoomsTimed env t :=
  fun roomId p found => (h.ages p).timed mono (timed roomId p (h.sheds.rooms roomId p found))

theorem Serves.roomsTimed (h : Serves env s t) (mono : Monotone env.clock) (timed : RoomsTimed env s) : RoomsTimed env t := by
  have still : ∀ {s t : Server}, RoomsTimed env s → s.Still t → RoomsTimed env t := fun timed still =>
    Ticking.roomsTimed (.cascade (.still still)) mono timed
  induction h with
  | cascade h => exact Ticking.roomsTimed (.cascade h) mono timed
  | @note s t _ same _ _ =>
    have kept : RoomsTimed env { t with trace := s.trace } := still timed same
    exact kept
  | @reset s t q sheds rooms other status loading =>
    intro roomId p found
    by_cases here : p = q
    · subst here
      refine ⟨fun playing => absurd playing status, fun loads => ?_⟩
      obtain ⟨lt, time⟩ := loading loads
      exact ⟨s.sys, lt, time⟩
    · have old := (rooms roomId p found).resolve_right here
      have ages : Room.Ages env true (s.room p) s.sys (t.room p) t.sys := .still (other p here) sheds.sys
      exact ages.timed mono (timed roomId p old)
  | @beat s t same _ =>
    have kept : RoomsTimed env { t with secFd := s.secFd } := still timed same
    exact kept
  | @enter s fd user mess u _ _ _ _ =>
    intro roomId p found
    unfold playerLogin at found ⊢
    split at found <;> exact timed roomId p found
  | trans _ _ ih ih' => exact ih' (ih timed)

theorem mem_toList_rooms {roomId : Int} : (roomId, p) ∈ s.rooms.toList ↔ s.rooms[roomId]? = some p :=
  Std.ExtTreeMap.mem_toList_iff_getElem?_eq_some

/-- What a call of `RunOnTick` does for each room at its turn, when the rest of the call keeps it -/
theorem runOnTick_each {J : RoomPtr → Server → Prop} (mono : Monotone env.clock) (timed : RoomsTimed env s)
    (stays : ∀ {u v : Server} {p}, s.sys ≤ u.sys → Ticking env u v → J p u → J p v)
    (turn : ∀ {roomId : Int} {p} {u : Server}, s.rooms[roomId]? = some p → s.sys ≤ u.sys → (u.room p).Timed env u.sys →
      wp (Room.onTick env p) (fun _ v => J p v) (fun _ _ => True) u)
    (presec : ∀ {p : RoomPtr} {u : Server} {nowsec : Int}, J p u → J p { u with presec := nowsec })
    (tick : runOnTick env s = .ok () t) : s.sys ≤ t.sys ∧ RoomsTimed env t ∧ ∀ (roomId : Int) p,
      t.rooms[roomId]? = some p → J p t := by
  have rooms : wp (RoomManager.onTick env) (fun _ u => Ticking env s u ∧ ∀ entry ∈ s.rooms.toList, J entry.2 u)
      (fun _ _ => True) s := by
    simp only [RoomManager.onTick, wp_bind, wp_get]
    refine wp_post (tickRooms_each (J := fun p u => (∃ roomId : Int, s.rooms[roomId]? = some p) → J p u)
      (I := fun u => s.sys ≤ u.sys ∧ ∀ (roomId : Int) p, s.rooms[roomId]? = some p → (u.room p).Timed env u.sys)
      ?_ ?_ ?_ s.rooms.toList s ⟨Nat.le_refl _, timed⟩) fun _ u ticked => ⟨ticked.1, fun entry mem => ?_⟩
    · exact fun h ticking => ⟨Nat.le_trans h.1 ticking.sheds.sys, fun roomId p found =>
        (ticking.ages p).timed mono (h.2 roomId p found)⟩
    · exact fun h ticking done known => stays h.1 ticking (done known)
    · intro p u h
      by_cases known : ∃ roomId : Int, s.rooms[roomId]? = some p
      · obtain ⟨roomId, found⟩ := known
        exact wp_post (turn found h.1 (h.2 roomId p found)) fun _ _ done _ => done
      · exact wp_mono (Room.onTick_ticking p u) (fun _ _ _ known' => absurd known' known) fun _ _ _ => trivial
    · exact ticked.2 entry mem ⟨entry.1, mem_toList_rooms.mp mem⟩
  have whole : wp (runOnTick env) (fun _ t => s.sys ≤ t.sys ∧ RoomsTimed env t ∧ ∀ (roomId : Int) p,
      t.rooms[roomId]? = some p → J p t) (fun _ _ => True) s := by
    simp only [runOnTick, wp_bind, wp_getNowTimeSecond, wp_get]
    refine wp_mono rooms (fun _ u ticked => ?_) fun _ _ _ => trivial
    obtain ⟨ticking, each⟩ := ticked
    have read := ticking.trans (.cascade (.still (.tickSys 1 u)))
    have done : ∀ (roomId : Int) p, (u.tickSys 1).rooms[roomId]? = some p → J p (u.tickSys 1) := fun roomId p found =>
      stays ticking.sheds.sys (.cascade (.still (.tickSys 1 u)))
        (each (roomId, p) (mem_toList_rooms.mpr (ticking.sheds.rooms roomId p found)))
    refine wp_sub32 ?_ fun _ => trivial
    split
    · exact ⟨read.sheds.sys, read.roomsTimed mono timed, done⟩
    · simp only [wp_bind, wp_set, Heartbeat.onTick, wp_get]
      refine wp_mono (expireLoop_cascade _ _ _ _) (fun _ v expired => ?_) fun _ _ _ => trivial
      have timed' : RoomsTimed env { u.tickSys 1 with presec := second env u.sys } := read.roomsTimed mono timed
      have rest := Ticking.cascade expired
      refine ⟨Nat.le_trans read.sheds.sys rest.sheds.sys, rest.roomsTimed mono timed', fun roomId p found => ?_⟩
      have kept : J p { u.tickSys 1 with presec := second env u.sys } := presec (done roomId p (rest.sheds.rooms roomId p found))
      exact @stays { u.tickSys 1 with presec := second env u.sys } v p read.sheds.sys rest kept
  have ticked := wp_ok whole tick
  exact ticked

theorem Main.roomsTimed (h : Main env s) (mono : Monotone env.clock) : RoomsTimed env s := by
  induction h with
  | boot fresh polls booted =>
    intro roomId p found
    rw [(booted_of_boot fresh polls booted).rooms] at found
    simp at found
  | turn _ tick receive ih =>
    have ticked := (runOnTick_each (J := fun _ _ => True) mono ih (fun _ _ _ => trivial)
      (fun {_ p u} _ _ _ => wp_mono (Room.onTick_ticking p u) (fun _ _ _ => trivial) fun _ _ _ => trivial)
      (fun _ => trivial) tick).2.1
    exact (wp_ok (receiveMessage_serves _) receive).roomsTimed mono ticked

/-! ### Frames -/

/-- Between two calls, a game has sent the frames up to the one before the head frame. -/
theorem RoomRun.sent_all {r : Room} {tr : List Event} (h : RoomRun p [] r tr) (playing : r.status = .ingame) :
    1 ≤ r.syn.headFrame ∧ CountsTo (r.syn.headFrame - 1) (numbers (sent tr)) := by
  obtain ⟨slots, hs⟩ := Option.isSome_iff_exists.mp (h.ring.playing.mpr playing)
  have counted := h.frames_counted
  cases h.frames slots hs with
  | between _ next all =>
    rw [next] at counted
    exact ⟨(h.ring.head playing).2, all ▸ counted⟩

/-- At its turn, a room sends every frame that is due. -/
theorem Room.onTick_caught {begun : Int} (mono : Monotone env.clock) (le : begun ≤ env.clock s.sys)
    (timed : (s.room p).Timed env s.sys) :
    wp (Room.onTick env p) (fun _ t => (t.room p).Caught env begun t.sys) (fun _ _ => True) s := by
  refine wp_mono (Room.onTick_ticking p s) (fun _ t ticked => ?_) fun _ _ _ => trivial
  obtain ⟨ticking, ran, -⟩ := ticked
  by_cases playing : (s.room p).status = .ingame
  · obtain ⟨later, done⟩ := ran playing
    have ages := later.ages p
    simp only [Server.clocked, Server.setRoom_room_self] at ages
    have read : Room.Ages env true (s.room p) s.sys
        { s.room p with syn := (s.room p).syn.updateTime (env.clock s.sys) } (s.sys + 1) := .read (s.room p) s.sys
    have timed' : Room.Timed env (s.sys + 1) { s.room p with syn := (s.room p).syn.updateTime (env.clock s.sys) } :=
      read.timed mono timed
    have reads := ages.reads mono (Int.le_trans le (mono (Nat.le_succ _))) timed' (timed.read mono le)
    intro playing' fits
    have behind := of_decide_eq_false (Syn.due_eq done).symm
    have shown := reads playing' fits
    omega
  · exact (ticking.ages p).caught mono le fun playing' => absurd playing' playing

/-- On a clock that does not go back: when a tick is over, every game has sent its frames one after the other up to the
    one that the clock has reached, four frames behind. None that was due when the tick began is missing, and none came
    before its time. -/
theorem frames_on_time (h : Main env s) (mono : Monotone env.clock) (tick : runOnTick env s = .ok () t) {roomId : Int}
    (room : t.rooms[roomId]? = some p) (playing : (t.room p).status = .ingame)
    (fits : (t.room p).syn.frameAt (env.clock t.sys) ≤ int32Max) :
    ∃ n, CountsTo n (numbers (sent (roomTrace p t.trace))) ∧ (t.room p).syn.frameAt (env.clock s.sys) ≤ n + 4 ∧
      (n = 0 ∨ n + 4 ≤ (t.room p).syn.frameAt (env.clock t.sys)) := by
  have timed := h.roomsTimed mono
  obtain ⟨-, timed', caught⟩ := runOnTick_each (J := fun p u => (u.room p).Caught env (env.clock s.sys) u.sys) mono timed
    (fun later ticking caught => (ticking.ages _).caught mono (mono later) caught)
    (fun _ later timed => Room.onTick_caught mono (mono later) timed) (fun caught => caught) tick
  have reached : Reachable env t := .tick h.reachable tick
  have run := reached.config.roomRun (reached.config.rooms.table.room room).1
  obtain ⟨first, counts⟩ := run.sent_all playing
  refine ⟨_, counts, ?_, ?_⟩
  · have := caught roomId p room playing fits
    omega
  · rcases ((timed' roomId p room).paced playing).behind fits with first | behind
    · exact .inl (by omega)
    · exact .inr (by omega)

/-- Three frames later than the first one, the tick of a game that has just begun has sent two. -/
theorem frames_on_time_broken : ∃ s t, Main (Script.later Script.brokenGame) s ∧
    runOnTick (Script.later Script.brokenGame) s = .ok () t ∧ (t.room 0).syn.headFrame = 3 ∧
    ∃ n, CountsTo n (numbers (sent (roomTrace 0 t.trace))) ∧
      (t.room 0).syn.frameAt ((Script.later Script.brokenGame).clock s.sys) ≤ n + 4 ∧
      (n = 0 ∨ n + 4 ≤ (t.room 0).syn.frameAt ((Script.later Script.brokenGame).clock t.sys)) := by
  have mono : Monotone (Script.later Script.brokenGame).clock := by
    intro n m le
    simp only [Script.later, Script.brokenGame]
    split <;> split <;> omega
  obtain ⟨s, t, main, tick, test⟩ := exists_of_ticksTo 8
    (fun t => (t.room 0).syn.headFrame == 3 && t.rooms[(1000 : Int)]? == some 0 && (t.room 0).status == .ingame &&
      decide ((t.room 0).syn.frameAt ((Script.later Script.brokenGame).clock t.sys) ≤ int32Max))
    (Script.main (Script.later Script.brokenGame)) (by decide +kernel)
  simp only [Bool.and_eq_true, beq_iff_eq, decide_eq_true_eq] at test
  obtain ⟨⟨⟨head, room⟩, playing⟩, fits⟩ := test
  exact ⟨s, t, main, tick, head, frames_on_time main mono tick room playing fits⟩

/-! ### Loading -/

/-- On a clock that does not go back: a room that is loading when a tick is over has been for less than 180 seconds when
    the tick began. -/
theorem loading_bounded (h : Main env s) (mono : Monotone env.clock) (epoch : env.InEpoch)
    (tick : runOnTick env s = .ok () t) {roomId : Int} (room : t.rooms[roomId]? = some p)
    (loads : (t.room p).status = .loading) : ∃ i < t.sys, (t.room p).loadingTimeSecond = env.clock i / 1000000 ∧
      env.clock s.sys / 1000000 < (t.room p).loadingTimeSecond + maxLoadingTimeSecond := by
  have timed := h.roomsTimed mono
  obtain ⟨-, timed', young⟩ := runOnTick_each (J := fun p u => (u.room p).status = .loading →
      second env s.sys - (u.room p).loadingTimeSecond < maxLoadingTimeSecond) mono timed
    (fun _ ticking young loads => by
      obtain ⟨loads', same⟩ := (ticking.ages _).loading loads
      rw [same]
      exact young loads')
    (fun _ later _ => wp_mono (Room.onTick_ticking _ _) (fun _ _ ticked loads => by
      have := ticked.2.2 loads
      have := second_mono mono epoch later
      omega) fun _ _ _ => trivial) (fun young => young) tick
  obtain ⟨i, lt, time⟩ := (timed' roomId p room).loading loads
  have young := young roomId p room loads
  rw [second_eq epoch] at time young
  exact ⟨i, lt, time, by omega⟩

/-- The room of three players loads, and the clock moves on by half a minute. -/
def Script.loadingParty : Env := later { party
    (fun n => if n = 46 then [readable 4] else []) (fun n => if n = 47 then some (request 0x10) else none)
    (fun _ => false) with
  clock := fun n => if n < 64 then 0 else 30000000 }

theorem Script.loadingParty_mono : Monotone loadingParty.clock := by
  intro n m le
  simp only [loadingParty, later]
  split <;> split <;> omega

theorem Script.loadingParty_epoch : loadingParty.InEpoch := by
  intro n
  simp only [loadingParty, later, int32Max]
  split <;> omega

theorem loading_bounded_party : ∃ s t, Main Script.loadingParty s ∧ runOnTick Script.loadingParty s = .ok () t ∧
    (t.room 0).status = .loading ∧ ∃ i < t.sys,
      (t.room 0).loadingTimeSecond = Script.loadingParty.clock i / 1000000 ∧
      Script.loadingParty.clock s.sys / 1000000 < (t.room 0).loadingTimeSecond + maxLoadingTimeSecond := by
  obtain ⟨s, t, main, tick, test⟩ := exists_of_ticksTo 9
    (fun t => t.rooms[(1000 : Int)]? == some 0 && (t.room 0).status == .loading) (Script.main Script.loadingParty)
    (by decide +kernel)
  simp only [Bool.and_eq_true, beq_iff_eq] at test
  obtain ⟨room, loads⟩ := test
  exact ⟨s, t, main, tick, loads,
    loading_bounded main Script.loadingParty_mono Script.loadingParty_epoch tick room loads⟩

end

end IslandSurvival
