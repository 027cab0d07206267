import IslandSurvival.Theorems.Ring

/-! The start of a game is sent once. `SendGameStart` sets the status after its broadcast, so that a player
    that leaves during the broadcast can start the game a second time. As long as no comparison of the
    counters passes there, each slot gets one `SCGameStart` and the ring is set up once. -/

namespace IslandSurvival

/-! ### The trace of a room -/

/-- How often `SYN::Init` ran since the last `SendGameLoading` -/
def inits : List Event → Nat
  | [] => 0
  | .gameLoading _ _ :: _ => 0
  | .gameStart _ _ :: older => inits older + 1
  | _ :: older => inits older

/-- How often `SCGameStart` was sent to a slot since the last `SendGameLoading` -/
def told (pos : Nat) : List Event → Nat
  | [] => 0
  | .gameLoading _ _ :: _ => 0
  | .deliver _ i mess :: older => if i = pos ∧ mess.head.messageId = Msg.scGameStart then told pos older + 1 else told pos older
  | _ :: older => told pos older

/-- A broadcast of `SCGameStart` has begun, and the game has not started since. -/
def startPending : List Event → Bool
  | [] => false
  | .gameStart _ _ :: _ => false
  | .broadcast _ mess :: older => mess.head.messageId == Msg.scGameStart || startPending older
  | _ :: older => startPending older

/-- The comparison in `DeletePlayer` was never true during a broadcast of `SCGameStart`. -/
def startsAlone : List Event → Bool
  | [] => true
  | .leaveCheck _ _ passes :: older => !(passes && startPending older) && startsAlone older
  | _ :: older => startsAlone older

/-! ### A room -/

/-- What `SendGameStart` still has to do -/
inductive StartWork
  | begin
  | turn (i : Nat)
  | call (i : Nat)
  | sent
deriving DecidableEq

def Frame.start? : Frame → Option StartWork
  | .starting _ false => some .begin
  | .starting _ true => some .sent
  | .everyone _ mess i => if mess.head.messageId = Msg.scGameStart then some (.turn i) else none
  | .delivering _ mess i => if mess.head.messageId = Msg.scGameStart then some (.call i) else none
  | _ => none

section
variable {p : RoomPtr} {mess : CMessage} {i : Nat} {w : List Frame}

theorem everyone_start (id : mess.head.messageId = Msg.scGameStart) :
    (Frame.everyone p mess i :: w).filterMap Frame.start? = .turn i :: w.filterMap Frame.start? :=
  List.filterMap_cons_some (if_pos id)

theorem everyone_other (id : mess.head.messageId ≠ Msg.scGameStart) :
    (Frame.everyone p mess i :: w).filterMap Frame.start? = w.filterMap Frame.start? :=
  List.filterMap_cons_none (if_neg id)

theorem delivering_start (id : mess.head.messageId = Msg.scGameStart) :
    (Frame.delivering p mess i :: w).filterMap Frame.start? = .call i :: w.filterMap Frame.start? :=
  List.filterMap_cons_some (if_pos id)

theorem delivering_other (id : mess.head.messageId ≠ Msg.scGameStart) :
    (Frame.delivering p mess i :: w).filterMap Frame.start? = w.filterMap Frame.start? :=
  List.filterMap_cons_none (if_neg id)

end

/-- One start of a game: before loading ended nobody was told, during the broadcast those in front, and then
    everybody at most once. -/
inductive StartRoom : List StartWork → RoomStatus → Nat → (Nat → Nat) → Bool → Prop
  | idle {status inits told} (status_ne : status ≠ .loading) (once : inits ≤ 1) (each : ∀ i, told i ≤ 1) :
      StartRoom [] status inits told false
  | loading {told} (none : ∀ i, told i = 0) : StartRoom [] .loading 0 told false
  | begin {told} (none : ∀ i, told i = 0) : StartRoom [.begin] .loading 0 told false
  | turn {told i} (each : ∀ j, told j ≤ 1) (behind : ∀ j, i ≤ j → told j = 0) :
      StartRoom [.turn i, .sent] .loading 0 told true
  | call {told i} (each : ∀ j, told j ≤ 1) (behind : ∀ j, i < j → told j = 0) :
      StartRoom [.call i, .sent] .loading 0 told true
  | sent {told} (each : ∀ i, told i ≤ 1) : StartRoom [.sent] .loading 0 told true

namespace StartRoom

variable {work : List StartWork} {status status' : RoomStatus} {cnt i : Nat} {told told' : Nat → Nat} {pending : Bool}

/-- In each state nobody has been told twice. -/
theorem once (h : StartRoom work status cnt told pending) : cnt ≤ 1 ∧ ∀ i, told i ≤ 1 := by
  cases h with
  | idle _ once each => exact ⟨once, each⟩
  | loading none => exact ⟨Nat.zero_le 1, fun i => by simp [none i]⟩
  | begin none => exact ⟨Nat.zero_le 1, fun i => by simp [none i]⟩
  | turn each _ => exact ⟨Nat.zero_le 1, each⟩
  | call each _ => exact ⟨Nat.zero_le 1, each⟩
  | sent each => exact ⟨Nat.zero_le 1, each⟩

/-- A room without a pending start -/
theorem settled (h : StartRoom [] status cnt told pending) (status_ne : status' ≠ .loading) :
    StartRoom [] status' cnt told pending := by
  have once := h.once
  cases h with
  | idle _ _ _ => exact .idle status_ne once.1 once.2
  | loading _ => exact .idle status_ne once.1 once.2

/-- `SendGameLoading` ends. -/
theorem load (h : StartRoom [] status cnt told pending) : StartRoom [] .loading 0 (fun _ => 0) pending := by
  cases h with
  | idle _ _ _ => exact .loading fun _ => rfl
  | loading _ => exact .loading fun _ => rfl

/-- A start is due. -/
theorem due (h : StartRoom [] status cnt told pending) (loading : status = .loading) :
    StartRoom [.begin] status cnt told pending := by
  cases h with
  | idle status_ne _ _ => exact absurd loading status_ne
  | loading none => exact .begin none

/-- The broadcast of `SCGameStart` begins. -/
theorem cast (h : StartRoom (.begin :: work) status cnt told pending) :
    StartRoom (.turn 1 :: .sent :: work) status cnt told true := by
  cases h with
  | begin none => exact .turn (fun j => by simp [none j]) fun j _ => none j

/-- The turn of an offline slot -/
theorem skip (h : StartRoom (.turn i :: work) status cnt told pending) :
    StartRoom (.turn (i + 1) :: work) status cnt told pending := by
  cases h with
  | turn each behind => exact .turn each fun j hj => behind j (Nat.le_of_succ_le hj)

/-- The turn of an online slot, which is told -/
theorem deliver (h : StartRoom (.turn i :: work) status cnt told pending)
    (here : told' i = told i + 1) (others : ∀ j, j ≠ i → told' j = told j) :
    StartRoom (.call i :: work) status cnt told' pending := by
  cases h with
  | turn each behind =>
    refine .call (fun j => ?_) fun j hj => ?_
    · by_cases hj : j = i
      · simp [hj, here, behind i (Nat.le_refl i)]
      · rw [others j hj]
        exact each j
    · rw [others j (Nat.ne_of_gt hj)]
      exact behind j (Nat.le_of_lt hj)

theorem delivered (h : StartRoom (.call i :: work) status cnt told pending) :
    StartRoom (.turn (i + 1) :: work) status cnt told pending := by
  cases h with
  | call each behind => exact .turn each behind

/-- The broadcast of `SCGameStart` ends. -/
theorem castDone (h : StartRoom (.turn i :: work) status cnt told pending) :
    StartRoom work status cnt told pending := by
  have once := h.once
  cases h with
  | turn _ _ => exact .sent once.2

/-- The game starts. -/
theorem start (h : StartRoom (.sent :: work) status cnt told pending) :
    StartRoom work .ingame (cnt + 1) told false := by
  cases h with
  | sent each => exact .idle (by simp) (Nat.le_refl 1) each

/-- Somebody leaves while no broadcast is pending, and the counters are equal. -/
theorem leave (h : StartRoom work .loading cnt told pending) (alone : pending = false)
    (called : .begin ∉ work) : StartRoom (.begin :: work) .loading cnt told pending := by
  cases h with
  | idle status_ne _ _ => exact absurd rfl status_ne
  | loading none => exact .begin none
  | begin _ => exact absurd List.mem_cons_self called
  | turn _ _ => cases alone
  | call _ _ => cases alone
  | sent _ => cases alone

end StartRoom

variable {p : RoomPtr} {w w' : List Frame} {r r' : Room} {tr tr' : List Event}

/-- What is pending for the start of the game of a room -/
def StartsRoom (w : List Frame) (r : Room) (tr : List Event) : Prop :=
  StartRoom (w.filterMap Frame.start?) r.status (inits tr) (fun i => told i tr) (startPending tr)

/-- The ring never sends `SCGameStart`. -/
theorem CastsKinds.ne_start {mess : CMessage} {sent : Bool} (h : CastsKinds (.casting p mess sent :: w)) :
    mess.head.messageId ≠ Msg.scGameStart := by
  intro id
  have kind := h mess List.mem_cons_self
  rw [id] at kind
  exact absurd kind (by decide)

theorem starts_step (run : RoomRun p w r tr) (move : RoomStep p w r tr w' r' tr') (alone : startsAlone tr')
    (h : startsAlone tr → StartsRoom w r tr) : StartsRoom w' r' tr' := by
  cases move with
  | init _ _ _ _ => exact StartRoom.settled (h alone) (by simp [Room.addSlot, Room.init])
  | change u teamId gameOption _ =>
    obtain ⟨_, _, hr⟩ := MP.applyChange_eq u teamId gameOption r
    rw [hr]
    exact h alone
  | leave _ _ =>
    have before := h alone
    unfold StartsRoom Room.departing Room.vacate at *
    cases status : r.status <;> rw [status] at before <;> simp only [Room.removeSlot, Room.setOffline, status] <;>
      exact before
  | exited _ _ =>
    simp only [startsAlone, Bool.and_eq_true] at alone
    exact h alone.2
  | @exitStart w _ _ _ _ all status =>
    simp only [startsAlone, ge_iff_le, all, decide_true, Bool.true_and, Bool.and_eq_true, Bool.not_eq_true'] at alone
    have before := h alone.2
    unfold StartsRoom at before ⊢
    rw [status] at before ⊢
    refine StartRoom.leave before alone.1 fun mem => ?_
    -- A start that has not begun its broadcast is the innermost activation.
    obtain ⟨f, hf, work⟩ := List.mem_filterMap.mp mem
    obtain ⟨role, waits⟩ := run.waits f hf
    cases waits <;> simp [Frame.start?] at work
  | everyone cast =>
    have before := h alone
    cases cast with
    | starting => exact StartRoom.cast before
    | casting =>
      have other := run.castsKinds.ne_start
      rw [StartsRoom, everyone_other other, startPending, beq_false_of_ne other]
      exact before
    | _ => exact before
  | @skipSlot _ _ _ mess _ _ _ =>
    have before := h alone
    by_cases id : mess.head.messageId = Msg.scGameStart
    · rw [StartsRoom, everyone_start id] at before ⊢
      exact before.skip
    · rw [StartsRoom, everyone_other id] at before ⊢
      exact before
  | @deliver _ _ _ mess _ _ _ =>
    have before := h alone
    by_cases id : mess.head.messageId = Msg.scGameStart
    · rw [StartsRoom, everyone_start id] at before
      rw [StartsRoom, delivering_start id]
      exact before.deliver (by simp [told, id]) fun j hj => by simp [told, hj.symm]
    · rw [StartsRoom, everyone_other id] at before
      rw [StartsRoom, delivering_other id]
      simp only [told, id, and_false, if_false]
      exact before
  | @delivered _ _ _ mess _ =>
    have before := h alone
    by_cases id : mess.head.messageId = Msg.scGameStart
    · rw [StartsRoom, delivering_start id] at before
      rw [StartsRoom, everyone_start id]
      exact before.delivered
    · rw [StartsRoom, delivering_other id] at before
      rw [StartsRoom, everyone_other id]
      exact before
  | @everyoneEnd _ _ _ mess _ _ =>
    have before := h alone
    by_cases id : mess.head.messageId = Msg.scGameStart
    · rw [StartsRoom, everyone_start id] at before
      exact before.castDone
    · rw [StartsRoom, everyone_other id] at before
      exact before
  | load _ => exact StartRoom.load (h alone)
  | reportStart status _ _ _ _ => exact StartRoom.due (h alone) status
  | timeoutStart status => exact StartRoom.due (h alone) status
  | start _ _ => exact StartRoom.start (h alone)
  | _ => exact h alone

theorem RoomRun.starts (h : RoomRun p w r tr) (alone : startsAlone tr) : StartsRoom w r tr := by
  induction h with
  | init _ _ _ _ => exact .idle (by simp [Room.addSlot, Room.init]) (Nat.zero_le 1) fun _ => Nat.zero_le 1
  | step run move ih => exact starts_step run move alone ih

/-- The condition was met by every earlier state of the run. -/
theorem startsAlone_tail {e : Event} (alone : startsAlone (e :: tr)) : startsAlone tr := by
  cases e with
  | leaveCheck _ _ _ =>
    simp only [startsAlone, Bool.and_eq_true] at alone
    exact alone.2
  | _ => exact alone

theorem RoomRun.startsOnce (h : RoomRun p w r tr) (alone : startsAlone tr) :
    ∀ older, older <:+ tr → inits older ≤ 1 ∧ ∀ i, told i older ≤ 1 := by
  induction h with
  | init _ _ _ _ =>
    intro older suffix
    rcases List.suffix_cons_iff.mp suffix with rfl | suffix
    · exact ⟨Nat.zero_le 1, fun _ => Nat.zero_le 1⟩
    · rw [List.suffix_nil.mp suffix]
      exact ⟨Nat.zero_le 1, fun _ => Nat.zero_le 1⟩
  | step run move ih =>
    intro older suffix
    have here := (run.step move).starts alone
    rcases move.trace with same | ⟨e, same⟩
    · rw [same] at suffix alone
      exact ih alone older suffix
    · rw [same] at suffix
      rcases List.suffix_cons_iff.mp suffix with rfl | suffix
      · exact (same ▸ here).once
      · exact ih (startsAlone_tail (same ▸ alone)) older suffix

/-- As long as the counters never pass during a broadcast of `SCGameStart`, each slot is told once that the
    game starts and the ring is set up once. -/
theorem starts_once {env : Env} {s : Server} (h : Visited env s) (p : RoomPtr)
    (alone : startsAlone (roomTrace p s.trace)) :
    ∀ older, older <:+ roomTrace p s.trace → inits older ≤ 1 ∧ ∀ i, told i older ≤ 1 := by
  obtain ⟨k, config⟩ := h.config
  by_cases alloc : p < s.roomCnt
  · exact (config.roomRun alloc).startsOnce alone
  · rw [((config.roomRuns p).2 (Nat.le_of_not_lt alloc)).2]
    intro older suffix
    rw [List.suffix_nil.mp suffix]
    exact ⟨Nat.zero_le 1, fun _ => Nat.zero_le 1⟩

/-- The start of a game that player 1 plays alone -/
theorem starts_once_alone : ∃ s, Visited (Script.game []) s ∧ inits (roomTrace 0 s.trace) = 1 ∧
    ∀ older, older <:+ roomTrace 0 s.trace → inits older ≤ 1 ∧ ∀ i, told i older ≤ 1 := by
  obtain ⟨s, reachable, test⟩ := exists_of_ends 3
    (fun s => decide (inits (roomTrace 0 s.trace) = 1) && startsAlone (roomTrace 0 s.trace))
    (Script.reachable (Script.game [])) (by decide +kernel)
  simp only [Bool.and_eq_true, decide_eq_true_eq] at test
  exact ⟨s, .reach reachable, test.1, starts_once (.reach reachable) 0 test.2⟩

/-- Player 1 has loaded and hangs up; the write to player 2 fails, and then the one to player 3. -/
def Script.brokenStart : Env :=
  party (fun n => if n = 46 then [readable 4] else if n = 56 then [hungUp 4] else [])
    (fun n => if n = 47 then some (request 0x10 ++ request 0x12) else none) fun n => n == 57 || n == 59

/-- The departure of player 3 during the start starts the game again. -/
theorem departure_starts_again : ∃ s, Visited Script.brokenStart s ∧
    ¬∀ older, older <:+ roomTrace 0 s.trace → inits older ≤ 1 ∧ ∀ i, told i older ≤ 1 := by
  obtain ⟨s, reachable, test⟩ := exists_of_ends 8 (fun s => decide (inits (roomTrace 0 s.trace) = 2))
    (Script.reachable Script.brokenStart) (by decide +kernel)
  refine ⟨s, .reach reachable, fun once => ?_⟩
  have twice := (once _ List.suffix_rfl).1
  rw [of_decide_eq_true test] at twice
  exact absurd twice (by decide)

end IslandSurvival
