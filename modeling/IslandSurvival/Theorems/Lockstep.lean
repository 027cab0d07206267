import IslandSurvival.Theorems.Exits
import Mathlib.Data.List.Chain

/-! The streams of a game. Everybody who stays is sent the messages of the ring one after the other, whatever writes
    fail meanwhile, and the frames that they carry are counted from the first one on. -/

namespace IslandSurvival

/-! ### The trace of a room -/

/-- The message of the ring whose broadcast has begun and has not ended -/
def sending : List Event → Option CMessage
  | [] => none
  | .synSend _ mess :: _ => some mess
  | .synSent _ :: _ => none
  | _ :: older => sending older

/-- The messages of the ring that slot `pos` was sent since the game started, oldest first -/
def streamed (pos : Nat) : List Event → List CMessage
  | [] => []
  | .gameStart _ _ :: _ => []
  | .deliver _ i mess :: older =>
    if i = pos ∧ sending older = some mess then streamed pos older ++ [mess] else streamed pos older
  | _ :: older => streamed pos older

/-- Slot `pos` was sent all that left the ring, but perhaps for the message that is being broadcast. -/
def InStep (pos : Nat) (tr : List Event) : Prop :=
  streamed pos tr = sent tr ∨ ∃ mess, sending tr = some mess ∧ sent tr = streamed pos tr ++ [mess]

/-! ### The broadcast of a message of the ring -/

/-- What is pending in a room, for the broadcasts of its ring -/
inductive CastWork
  | running
  | cast (mess : CMessage) (called : Bool)
  | turn (mess : CMessage) (i : Nat)
  | other

def Frame.castWork? : Frame → Option CastWork
  | .running _ => some .running
  | .casting _ mess called => some (.cast mess called)
  | .everyone _ mess i => some (.turn mess i)
  | .delivering _ mess i => some (.turn mess (i + 1))
  | .leaving _ _ _ | .exiting _ _ _ | .exitRequest _ _ | .loadingUp _ _ | .starting _ _ => some .other
  | _ => none

/-- How far the broadcast is: `serving` up to slot `i` -/
inductive CastStage
  | rests
  | serving (mess : CMessage) (i : Nat)
  | served (mess : CMessage)

namespace CastStage

def mess? : CastStage → Option CMessage
  | rests => none
  | serving mess _ => some mess
  | served mess => some mess

/-- What a slot has of the messages that left the ring -/
def Has (pos : Nat) (sent streamed : List CMessage) : CastStage → Prop
  | rests => streamed = sent
  | serving mess i => if pos < i then streamed = sent else sent = streamed ++ [mess]
  | served _ => streamed = sent

/-- The pending work says how far the broadcast is. -/
inductive At : List CastWork → CastStage → Prop
  | rests {work} (none : ∀ mess called, .cast mess called ∉ work) : At work .rests
  | begun {mess} : At [.cast mess false, .running] (.serving mess 1)
  | turn {mess i} : At [.turn mess i, .cast mess true, .running] (.serving mess i)
  | served {mess} : At [.cast mess true, .running] (.served mess)

end CastStage

/-- What the players of a room were sent -/
def StreamsRoom (w : List Frame) (r : Room) (tr : List Event) : Prop :=
  ∃ turn, CastStage.At (w.filterMap Frame.castWork?) turn ∧ sending tr = turn.mess? ∧
    (r.status = .ingame → ∀ pos, 1 ≤ pos → pos ≤ r.playerCnt → r.isOnline pos = true →
      turn.Has pos (sent tr) (streamed pos tr))

section
variable {p : RoomPtr} {w w' : List Frame} {r r' : Room} {tr tr' : List Event} {work work' : List CastWork}
  {turn : CastStage} {mess : CMessage} {pos i : Nat}

namespace CastStage

/-- Something else is pending. -/
theorem At.of_other (h : At (.other :: work) turn) : turn = .rests ∧ At work .rests := by
  cases h with
  | rests none => exact ⟨rfl, .rests fun mess called mem => none mess called (List.mem_cons_of_mem _ mem)⟩

theorem At.other (h : At work .rests) : At (.other :: work) .rests := by
  cases h with
  | rests none =>
    refine .rests fun mess called mem => ?_
    rcases List.mem_cons.mp mem with same | mem
    · cases same
    · exact none mess called mem

theorem At.turn_rests (h : At work .rests) : At (.turn mess i :: work) .rests := by
  cases h with
  | rests none =>
    refine .rests fun mess called mem => ?_
    rcases List.mem_cons.mp mem with same | mem
    · cases same
    · exact none mess called mem

/-- A loop over the slots is that of the ring or not. -/
theorem At.of_turn (h : At (.turn mess i :: work) turn) :
    (turn = .rests ∧ At work .rests) ∨ (turn = .serving mess i ∧ work = [.cast mess true, .running]) := by
  cases h with
  | rests none => exact .inl ⟨rfl, .rests fun mess called mem => none mess called (List.mem_cons_of_mem _ mem)⟩
  | turn => exact .inr ⟨rfl, rfl⟩

/-- The ring has called `SendMessageToEveryone`, or it has still to do so. -/
theorem At.of_cast {called : Bool} (h : At (.cast mess called :: work) turn) :
    work = [.running] ∧ turn = if called then .served mess else .serving mess 1 := by
  cases h with
  | rests none => exact absurd List.mem_cons_self (none mess called)
  | begun => exact ⟨rfl, rfl⟩
  | served => exact ⟨rfl, rfl⟩

theorem At.empty (h : At [] turn) : turn = .rests := by
  cases h
  rfl

theorem At.of_running (h : At [.running] turn) : turn = .rests := by
  cases h
  rfl

/-- A message leaves the ring. -/
theorem Has.begun {sent streamed : List CMessage} (first : 1 ≤ pos) (has : rests.Has pos sent streamed) :
    (serving mess 1).Has pos (sent ++ [mess]) streamed := by
  simp only [Has] at has ⊢
  rw [if_neg (Nat.not_lt_of_ge first), has]

/-- The turn of slot `i` passes. -/
theorem Has.delivered {sent streamed : List CMessage} (has : (serving mess i).Has pos sent streamed) :
    (serving mess (i + 1)).Has pos sent (if i = pos then streamed ++ [mess] else streamed) := by
  simp only [Has] at has ⊢
  rcases Nat.lt_trichotomy pos i with lt | rfl | gt
  · rw [if_pos lt] at has
    rw [if_pos (Nat.lt_succ_of_lt lt), if_neg (Nat.ne_of_gt lt), has]
  · rw [if_neg (Nat.lt_irrefl pos)] at has
    rw [if_pos (Nat.lt_succ_self pos), if_pos rfl, has]
  · rw [if_neg (Nat.not_lt_of_gt gt)] at has
    rw [if_neg (Nat.not_lt_of_ge gt), if_neg (Nat.ne_of_lt gt), has]

/-- While a message is broadcast, the ring runs. -/
theorem At.running (h : At work turn) : turn = .rests ∨ .running ∈ work := by
  cases h with
  | rests _ => exact .inl rfl
  | _ => exact .inr (by simp)

end CastStage

theorem CastStage.At.ingame (h : CastStage.At (w.filterMap Frame.castWork?) turn) (run : RoomRun p w r tr)
    (status : r.status ≠ .ingame) : turn = .rests := by
  rcases h.running with rests | mem
  · exact rests
  · obtain ⟨f, mem, work⟩ := List.mem_filterMap.mp mem
    refine absurd (run.ring.running (List.mem_filterMap.mpr ⟨f, mem, ?_⟩)) status
    cases f <;> simp [Frame.castWork?] at work
    rfl

theorem online_of_setOffline (online : (r.setOffline i).isOnline pos = true) : r.isOnline pos = true := by
  by_cases same : pos = i
  · simp [Room.setOffline, same] at online
  · simpa [Room.setOffline, same] using online

theorem streams_step (run : RoomRun p w r tr) (move : RoomStep p w r tr w' r' tr') (h : StreamsRoom w r tr) :
    StreamsRoom w' r' tr' := by
  obtain ⟨turn, place, sending, has⟩ := h
  cases move with
  | init _ _ _ _ => exact ⟨turn, place, sending, fun status => by cases status⟩
  | join u status _ => exact ⟨turn, place, sending, fun playing => absurd (status.symm.trans playing) (by decide)⟩
  | change u teamId gameOption _ =>
    obtain ⟨_, _, hr⟩ := MP.applyChange_eq u teamId gameOption r
    rw [hr]
    exact ⟨turn, place, sending, has⟩
  | gameEnd status _ =>
    exact ⟨turn, place, sending, fun status pos first last online =>
      has status pos first last (online_of_setOffline online)⟩
  | exitBegin _ =>
    obtain rfl := place.empty
    exact ⟨.rests, place.other, sending, has⟩
  | exitEnd =>
    obtain ⟨rfl, rest⟩ := place.of_other
    exact ⟨.rests, rest, sending, has⟩
  | leave _ _ =>
    unfold Room.departing Room.vacate
    cases status : r.status with
    | waiting =>
      obtain rfl := place.ingame run (by simp [status])
      exact ⟨.rests, place.other, sending, fun playing => absurd (status.symm.trans playing) (by decide)⟩
    | loading =>
      obtain rfl := place.ingame run (by simp [status])
      exact ⟨.rests, place.other, sending, fun playing => absurd (status.symm.trans playing) (by decide)⟩
    | ingame =>
      exact ⟨turn, place, sending, fun _ pos first last online =>
        has status pos first last (online_of_setOffline online)⟩
  | left =>
    obtain ⟨rfl, rest⟩ := place.of_other
    exact ⟨.rests, rest, sending, has⟩
  | uncount _ =>
    obtain ⟨rfl, rest⟩ := place.of_other
    exact ⟨.rests, rest, sending, has⟩
  | exited _ _ =>
    obtain ⟨rfl, rest⟩ := place.of_other
    exact ⟨.rests, rest, sending, has⟩
  | exitStart _ _ _ =>
    obtain ⟨rfl, rest⟩ := place.of_other
    exact ⟨.rests, rest.other, sending, has⟩
  | everyone cast =>
    cases cast with
    | detail _ =>
      obtain rfl := place.empty
      exact ⟨.rests, place.turn_rests, sending, has⟩
    | casting =>
      obtain ⟨ring, rfl⟩ := place.of_cast
      refine ⟨.serving _ 1, ?_, sending, has⟩
      show CastStage.At (.turn _ 1 :: .cast _ true :: _) _
      rw [ring]
      exact .turn
    | _ =>
      obtain ⟨rfl, rest⟩ := place.of_other
      exact ⟨.rests, rest.other.turn_rests, sending, has⟩
  | @skipSlot _ _ _ mess i _ offline =>
    rcases place.of_turn with ⟨rfl, rest⟩ | ⟨rfl, ring⟩
    · exact ⟨.rests, rest.turn_rests, sending, has⟩
    · refine ⟨.serving mess (i + 1), ?_, sending, fun status pos first last online => ?_⟩
      · show CastStage.At (.turn mess (i + 1) :: _) _
        rw [ring]
        exact .turn
      · have other : i ≠ pos := by
          rintro rfl
          rw [offline] at online
          cases online
        have delivered := CastStage.Has.delivered (has status pos first last online)
        rwa [if_neg other] at delivered
  | @deliver _ _ _ mess i _ _ =>
    rcases place.of_turn with ⟨rfl, rest⟩ | ⟨rfl, ring⟩
    · refine ⟨.rests, rest.turn_rests, sending, fun status pos first last online => ?_⟩
      simp only [streamed, sending, CastStage.mess?, reduceCtorEq, and_false, if_false]
      exact has status pos first last online
    · refine ⟨.serving mess (i + 1), ?_, sending, fun status pos first last online => ?_⟩
      · show CastStage.At (.turn mess (i + 1) :: _) _
        rw [ring]
        exact .turn
      · simp only [streamed, sending, CastStage.mess?, and_true]
        exact CastStage.Has.delivered (has status pos first last online)
  | @everyoneEnd _ _ _ mess i gt =>
    rcases place.of_turn with ⟨rfl, rest⟩ | ⟨rfl, ring⟩
    · exact ⟨.rests, rest, sending, has⟩
    · refine ⟨.served mess, ?_, sending, fun status pos first last online => ?_⟩
      · rw [ring]
        exact .served
      · have all := has status pos first last online
        simp only [CastStage.Has] at all
        rwa [if_pos (Nat.lt_of_le_of_lt last gt)] at all
  | loadBegin _ =>
    obtain rfl := place.empty
    exact ⟨.rests, place.other, sending, has⟩
  | load _ =>
    obtain ⟨rfl, rest⟩ := place.of_other
    exact ⟨.rests, rest, sending, fun playing => by cases playing⟩
  | reportStart _ _ _ _ _ =>
    obtain rfl := place.empty
    exact ⟨.rests, place.other, sending, has⟩
  | timeoutStart _ =>
    obtain rfl := CastStage.At.empty place
    exact ⟨.rests, CastStage.At.other place, sending, has⟩
  | start _ _ =>
    obtain ⟨rfl, rest⟩ := place.of_other
    exact ⟨.rests, rest, sending, fun _ _ _ _ _ => rfl⟩
  | runBegin _ _ =>
    obtain rfl := CastStage.At.empty place
    exact ⟨.rests, .rests (by simp [Frame.castWork?]), sending, has⟩
  | castEmpty _ _ =>
    obtain rfl := CastStage.At.of_running place
    exact ⟨.serving _ 1, .begun, rfl, fun status pos first last online =>
      CastStage.Has.begun first (has status pos first last online)⟩
  | cast _ _ =>
    obtain rfl := CastStage.At.of_running place
    exact ⟨.serving _ 1, .begun, rfl, fun status pos first last online =>
      CastStage.Has.begun first (has status pos first last online)⟩
  | castDone =>
    obtain ⟨-, rfl⟩ := place.of_cast
    exact ⟨.rests, .rests (by simp [Frame.castWork?]), rfl, has⟩
  | runEnd =>
    obtain rfl := CastStage.At.of_running place
    exact ⟨.rests, .rests (by simp [Frame.castWork?]), sending, has⟩
  | _ => exact ⟨turn, place, sending, has⟩

theorem RoomRun.streams (h : RoomRun p w r tr) : StreamsRoom w r tr := by
  induction h with
  | init _ _ _ _ => exact ⟨.rests, .rests (by simp), rfl, fun status => by cases status⟩
  | step run move ih => exact streams_step run move ih

/-- Every player that is in the game has been sent what left the ring. -/
theorem RoomRun.inStep (h : RoomRun p w r tr) (status : r.status = .ingame) (first : 1 ≤ pos) (last : pos ≤ r.playerCnt)
    (online : r.isOnline pos = true) : InStep pos tr := by
  obtain ⟨turn, -, sending, has⟩ := h.streams
  have here := has status pos first last online
  cases turn with
  | rests => exact .inl here
  | served mess => exact .inl here
  | serving mess i =>
    simp only [CastStage.Has] at here
    split at here
    · exact .inl here
    · exact .inr ⟨mess, sending, here⟩

/-- Nobody comes into a game. -/
theorem online_step (move : RoomStep p w r tr w' r' tr') (status : r'.status = .ingame) (last : pos ≤ r'.playerCnt)
    (online : r'.isOnline pos = true) : (∃ e, tr' = e :: tr ∧ e.restarts = true) ∨
      (r.status = .ingame ∧ pos ≤ r.playerCnt ∧ r.isOnline pos = true) := by
  cases move with
  | init _ _ _ _ => exact .inl ⟨_, rfl, rfl⟩
  | join _ waits _ => exact absurd (waits.symm.trans status) (by decide)
  | change u teamId gameOption _ =>
    obtain ⟨_, _, hr⟩ := MP.applyChange_eq u teamId gameOption r
    rw [hr] at status last online
    exact .inr ⟨status, last, online⟩
  | gameEnd _ _ => exact .inr ⟨status, last, online_of_setOffline online⟩
  | leave _ _ =>
    unfold Room.vacate at status last online
    split at status
    · rename_i waits
      exact absurd (waits.symm.trans status) (by decide)
    · rename_i playing
      rw [if_neg playing] at last online
      exact .inr ⟨status, last, online_of_setOffline online⟩
  | load _ => cases status
  | start _ _ => exact .inl ⟨_, rfl, rfl⟩
  | _ => exact .inr ⟨status, last, online⟩

/-- Nor was anybody out of step before. -/
theorem RoomRun.always_inStep (h : RoomRun p w r tr) (status : r.status = .ingame) (first : 1 ≤ pos)
    (last : pos ≤ r.playerCnt) (online : r.isOnline pos = true) {newer older : List Event} (trace : tr = newer ++ older)
    (same : ∀ e ∈ newer, e.restarts = false) : InStep pos older := by
  induction h generalizing newer with
  | init _ _ _ _ => cases status
  | step run move ih =>
    cases newer with
    | nil =>
      rw [List.nil_append] at trace
      exact trace ▸ (run.step move).inStep status first last online
    | cons e newer =>
      have rest : ∀ e ∈ newer, e.restarts = false := fun e mem => same e (List.mem_cons_of_mem _ mem)
      rcases online_step move status last online with ⟨e', logged, restarts⟩ | ⟨status, last, online⟩
      · rw [logged] at trace
        obtain ⟨rfl, -⟩ := List.cons.inj trace
        rw [same e' List.mem_cons_self] at restarts
        cases restarts
      · rcases move.trace with kept | ⟨e', logged⟩
        · exact ih status last online (kept.symm.trans trace) same
        · exact ih status last online (List.cons.inj (logged.symm.trans trace)).2 rest

end

/-! ### Counting -/

/-- The numbers are counted up from 1, each of them once or more often. -/
structure Consecutive (l : List Int) : Prop where
  start : ∀ x ∈ l.head?, x = 1
  step : l.IsChain fun x y => y = x ∨ y = x + 1

/-- They are counted up to `n`. -/
structure CountsTo (n : Int) (l : List Int) : Prop extends Consecutive l where
  last : l.getLast?.getD 0 = n

section
variable {n : Int} {l block : List Int}

theorem CountsTo.nil : CountsTo 0 [] := ⟨⟨by simp, .nil⟩, rfl⟩

/-- The next number follows, if any. -/
theorem CountsTo.append (h : CountsTo n l) (next : ∀ x ∈ block, x = n + 1) : Consecutive (l ++ block) where
  start x first := by
    cases l with
    | nil =>
      have zero : (0 : Int) = n := h.last
      rw [next x (List.mem_of_head? first), ← zero]
      rfl
    | cons y l => exact h.start x first
  step := by
    refine List.isChain_append.mpr ⟨h.step, (List.pairwise_of_forall_mem_list fun x hx y hy => ?_).isChain, ?_⟩
    · exact .inl ((next y hy).trans (next x hx).symm)
    · intro x last y first
      have here := h.last
      rw [Option.mem_def.mp last] at here
      exact .inr (by rw [next y (List.mem_of_head? first), ← here]; rfl)

theorem CountsTo.succ (h : CountsTo n l) (next : ∀ x ∈ block, x = n + 1) (some : block ≠ []) :
    CountsTo (n + 1) (l ++ block) where
  toConsecutive := h.append next
  last := by
    rw [List.getLast?_append_of_ne_nil _ some, List.getLast?_eq_some_getLast some]
    exact next _ (List.getLast_mem some)

end

/-! ### The numbers of the frames -/

/-- The frame number that a message carries -/
def CMessage.number (mess : CMessage) : Int := mess.head.framenum.toInt

/-- While a frame is being sent, something was sent for it or there is something to send. -/
def FrameFilled (w : List Frame) (tr : List Event) : Prop :=
  ∀ slots f i, held tr = some slots → .frame f (some i) ∈ w.filterMap Frame.ring? →
    slotEmpty tr = true ∨ slots (slotOf f) ≠ []

section
variable {p : RoomPtr} {w w' : List Frame} {r r' : Room} {tr tr' : List Event} {slots : Nat → List CMessage}
  {mess : CMessage} {f : Int}

theorem CMessage.number_setFramenum (first : 1 ≤ f) (fits : f ≤ int32Max) : (mess.setFramenum f).number = f := by
  unfold int32Max at fits
  exact Int32.toInt_ofInt_of_le (by omega) (by omega)

/-- The messages of a frame carry its number. -/
theorem number_of_frame {empty : Bool} {slot : List CMessage} (first : 1 ≤ f) (fits : f ≤ int32Max)
    (mem : mess ∈ opening empty f ++ stamped f slot) : mess.number = f := by
  rcases List.mem_append.mp mem with here | here
  · unfold opening at here
    split at here
    · obtain rfl := List.mem_singleton.mp here
      have number : ((frameMess f).setFramenum f).number = f := CMessage.number_setFramenum first fits
      exact number
    · cases here
  · obtain ⟨m, -, rfl⟩ := List.mem_map.mp here
    exact CMessage.number_setFramenum first fits

/-- The head frame is a 32-bit number. -/
theorem headFrame_step (move : RoomStep p w r tr w' r' tr') (h : r.status = .ingame → r.syn.headFrame ≤ int32Max) :
    r'.status = .ingame → r'.syn.headFrame ≤ int32Max := by
  cases move with
  | init _ _ _ _ => exact fun status => by cases status
  | change u teamId gameOption _ =>
    obtain ⟨_, _, hr⟩ := MP.applyChange_eq u teamId gameOption r
    rw [hr]
    exact h
  | leave _ _ =>
    unfold Room.vacate
    split <;> exact h
  | load _ => exact fun status => by cases status
  | start _ _ => exact fun _ => (by decide : (1 : Int) ≤ int32Max)
  | quit add =>
    rw [Syn.add_eq add]
    exact h
  | relay _ add =>
    rw [Syn.add_eq add]
    exact h
  | advance next =>
    intro _
    obtain ⟨_, _, next⟩ := Syn.bind_eq_ok.mp next
    obtain ⟨headFrame, sum, next⟩ := Syn.bind_eq_ok.mp next
    obtain ⟨rfl, -, fits⟩ := add32_eq_ok.mp sum
    obtain rfl := Except.ok.inj next
    exact fits
  | _ => exact h

theorem RoomRun.headFrame_fits (h : RoomRun p w r tr) : r.status = .ingame → r.syn.headFrame ≤ int32Max := by
  induction h with
  | init _ _ _ _ => exact fun status => by cases status
  | step _ move ih => exact headFrame_step move ih

theorem FrameFilled.idle (none : held tr = none) : FrameFilled w tr := by
  intro slots f i hs
  rw [none] at hs
  cases hs

theorem FrameFilled.store {slot : Option (Nat × Nat)} (h : FrameFilled w tr) :
    FrameFilled w (.synAdd p mess slot :: tr) := by
  intro slots' f i hs mem
  cases slot with
  | none => exact h slots' f i hs mem
  | some target =>
    simp only [held] at hs
    split at hs
    · obtain ⟨slots, hslots, rfl⟩ := Option.map_eq_some_iff.mp hs
      refine (h slots f i hslots mem).imp_right fun some => ?_
      by_cases same : slotOf f = target.1
      · rw [same, Function.update_self]
        simp
      · rwa [Function.update_of_ne same]
    · exact h slots' f i hs mem

/-- The turn of the frame has come. -/
theorem FrameFilled.opened {id : Int} {rooms : Map RoomPtr}
    (h : FramesRoom [.frame p f none, .running p, .ticking id p rooms] r tr) (hs : held tr = some slots) :
    slotEmpty tr = true ∨ slots (slotOf f) ≠ [] := by
  cases h slots hs with
  | between calm _ _ => cases calm
  | begun _ _ free _ =>
    rw [free]
    cases slots (slotOf f) with
    | nil => exact .inl rfl
    | cons _ _ => exact .inr (List.cons_ne_nil _ _)

theorem filled_step (run : RoomRun p w r tr) (move : RoomStep p w r tr w' r' tr') (h : FrameFilled w tr) :
    FrameFilled w' tr' := by
  have ring := run.ring
  have frames := run.frames
  cases move with
  | init _ _ _ _ => exact .idle rfl
  | leave _ _ =>
    unfold Room.departing
    cases r.status with
    | waiting => exact h
    | loading => exact h
    | ingame => exact h
  | exitStart _ _ status => exact .idle (ring.held_none (by simp [status]))
  | quit _ => exact FrameFilled.store h
  | everyone cast => cases cast <;> exact h
  | loadBegin status => exact .idle (ring.held_none (by simp [status]))
  | load now => exact .idle (ring.held_none (by simp [ring.up (by simp [Frame.ring?])]))
  | reportStart status _ _ _ _ => exact .idle (ring.held_none (by simp [status]))
  | timeoutStart status => exact .idle (ring.held_none (by simp [status]))
  | start now now' =>
    intro slots f i _ mem
    have calm := List.all_eq_true.mp (RingRoom.calm ring) _ mem
    cases calm
  | relay _ _ => exact FrameFilled.store h
  | runBegin now status => exact fun slots f i hs mem => by simp [Frame.ring?] at mem
  | frameBegin _ => exact fun slots f i hs mem => by simp [Frame.ring?] at mem
  | castEmpty _ _ =>
    intro slots f' i hs mem
    rcases List.mem_cons.mp mem with same | other
    · cases same
      have before : held tr = some slots := hs
      have filled := FrameFilled.opened frames before
      exact filled
    · cases List.mem_singleton.mp other
  | castNone _ _ =>
    intro slots f' i hs mem
    rcases List.mem_cons.mp mem with same | other
    · cases same
      exact FrameFilled.opened frames hs
    · cases List.mem_singleton.mp other
  | frameEnd head none => exact fun slots f i hs mem => by simp [Frame.ring?] at mem
  | advance next => exact fun slots f i hs mem => by simp [Frame.ring?] at mem
  | runEnd => exact fun slots f i hs mem => by simp [Frame.ring?] at mem
  | cast _ _ =>
    intro slots f' i hs mem
    rcases List.mem_cons.mp mem with same | other
    · cases same
      exact h slots _ _ hs List.mem_cons_self
    · cases List.mem_singleton.mp other
  | _ => exact h

theorem RoomRun.filled (h : RoomRun p w r tr) : FrameFilled w tr := by
  induction h with
  | init _ _ _ _ => exact .idle rfl
  | step run move ih => exact filled_step run move ih

/-- The numbers of messages -/
def numbers (l : List CMessage) : List Int := l.map CMessage.number

theorem frames_counted_step (run : RoomRun p w r tr) (move : RoomStep p w r tr w' r' tr')
    (h : CountsTo (headOf tr - 1) (numbers (frames tr))) : CountsTo (headOf tr' - 1) (numbers (frames tr')) := by
  cases move with
  | start _ _ => exact .nil
  | @frameEnd _ _ _ _ f _ i _ _ =>
    have status := run.ring.running (by simp [Frame.ring?])
    obtain ⟨slots, hs⟩ := Option.isSome_iff_exists.mp (run.ring.playing.mpr status)
    cases run.frames slots hs with
    | between calm _ _ => cases calm
    | turn frame next _ _ =>
      have first := frame ▸ (run.ring.head status).2
      have fits := frame ▸ run.headFrame_fits status
      have filled := run.filled slots f i hs List.mem_cons_self
      have some : opening (slotEmpty tr) f ++ stamped f (slots (slotOf f)) ≠ [] := by
        rcases filled with empty | some
        · simp [empty, opening]
        · simp [stamped, some]
      have all : ∀ x ∈ numbers (opening (slotEmpty tr) f ++ stamped f (slots (slotOf f))), x = headOf tr - 1 + 1 := by
        intro x mem
        obtain ⟨mess, here, rfl⟩ := List.mem_map.mp mem
        rw [number_of_frame first fits here, next]
        omega
      have counted := h.succ all (by simpa [numbers] using some)
      simp only [headOf, frames, hs, Option.getD_some, numbers, List.map_append] at counted ⊢
      have sum : headOf tr - 1 + 1 = headOf tr + 1 - 1 := by omega
      rwa [sum] at counted
  | _ => exact h

theorem RoomRun.frames_counted (h : RoomRun p w r tr) :
    CountsTo (headOf tr - 1) (numbers (IslandSurvival.frames tr)) := by
  induction h with
  | init _ _ _ _ => exact .nil
  | step run move ih => exact frames_counted_step run move ih

/-- What has left the ring: the frames that ended, and what was sent of the next one -/
theorem RoomRun.sent_frames (h : RoomRun p w r tr) (hs : held tr = some slots) :
    ∃ rest, sent tr = IslandSurvival.frames tr ++ rest ∧
      rest <+: opening (slotEmpty tr) (headOf tr) ++ stamped (headOf tr) (slots (slotOf (headOf tr))) := by
  have room := h.frames slots hs
  generalize w.filterMap Frame.ring? = work at room
  cases room with
  | between _ _ all => exact ⟨[], by simp [all], List.nil_prefix⟩
  | begun _ _ _ all => exact ⟨[], by simp [all], List.nil_prefix⟩
  | ended _ all => exact ⟨[], by simp [all], List.nil_prefix⟩
  | @turn f i _ next _ all =>
    refine ⟨_, all, ?_⟩
    rw [next]
    refine (List.prefix_append_right_inj _).mpr ?_
    unfold stamped
    rw [List.map_take]
    exact List.take_prefix _ _

theorem RoomRun.sent_consecutive (h : RoomRun p w r tr) (status : r.status = .ingame) :
    Consecutive (numbers (sent tr)) := by
  obtain ⟨slots, hs⟩ := Option.isSome_iff_exists.mp (h.ring.playing.mpr status)
  have counted := h.frames_counted
  have room := h.frames slots hs
  generalize w.filterMap Frame.ring? = work at room
  cases room with
  | between _ _ all => exact all ▸ counted.toConsecutive
  | begun _ _ _ all => exact all ▸ counted.toConsecutive
  | ended _ all => exact all ▸ counted.toConsecutive
  | @turn f i frame next _ all =>
    have first := frame ▸ (h.ring.head status).2
    have fits := frame ▸ h.headFrame_fits status
    rw [all, numbers, List.map_append]
    refine counted.append fun x mem => ?_
    obtain ⟨mess, here, rfl⟩ := List.mem_map.mp mem
    rw [number_of_frame first fits here, next]
    omega

/-- While the room is not set up again, what left the ring stays sent. -/
theorem sent_append {newer older : List Event} (same : ∀ e ∈ newer, e.restarts = false) :
    ∃ messages, sent (newer ++ older) = sent older ++ messages := by
  induction newer with
  | nil => exact ⟨[], (List.append_nil _).symm⟩
  | cons e newer ih =>
    obtain ⟨messages, grown⟩ := ih fun e mem => same e (List.mem_cons_of_mem _ mem)
    have goes := same e List.mem_cons_self
    cases e with
    | gameStart _ _ => cases goes
    | synSend _ mess => exact ⟨messages ++ [mess], by simp [sent, grown]⟩
    | _ => exact ⟨messages, grown⟩

theorem InStep.all {pos : Nat} (h : InStep pos tr) (rests : sending tr = none) : streamed pos tr = sent tr := by
  rcases h with all | ⟨mess, here, -⟩
  · exact all
  · rw [rests] at here
    cases here

end

/-! ### Lockstep -/

/-- A moment of a game: the frames are sent in order, and whoever is still in the game has been sent the same. -/
structure Lockstep (r : Room) (tr : List Event) : Prop where
  numbers : Consecutive (numbers (sent tr))
  content : ∃ slots rest, held tr = some slots ∧ sent tr = frames tr ++ rest ∧
    rest <+: opening (slotEmpty tr) (headOf tr) ++ stamped (headOf tr) (slots (slotOf (headOf tr)))
  inStep : ∀ pos, 1 ≤ pos → pos ≤ r.playerCnt → r.isOnline pos = true → ∀ newer older, tr = newer ++ older →
    (∀ e ∈ newer, e.restarts = false) → InStep pos older
  agree : ∀ i j, 1 ≤ i → i ≤ r.playerCnt → r.isOnline i = true → 1 ≤ j → j ≤ r.playerCnt → r.isOnline j = true →
    ∀ newer older, tr = newer ++ older → (∀ e ∈ newer, e.restarts = false) → sending older = none → sending tr = none →
      ∃ messages, sent tr = sent older ++ messages ∧ streamed i tr = streamed i older ++ messages ∧
        streamed j tr = streamed j older ++ messages

theorem RoomRun.lockstep {p : RoomPtr} {w : List Frame} {r : Room} {tr : List Event} (h : RoomRun p w r tr)
    (status : r.status = .ingame) : Lockstep r tr := by
  have inStep : ∀ pos, 1 ≤ pos → pos ≤ r.playerCnt → r.isOnline pos = true → ∀ newer older, tr = newer ++ older →
      (∀ e ∈ newer, e.restarts = false) → InStep pos older :=
    fun pos first last online newer older trace same => h.always_inStep status first last online trace same
  refine ⟨h.sent_consecutive status, ?_, inStep, ?_⟩
  · obtain ⟨slots, hs⟩ := Option.isSome_iff_exists.mp (h.ring.playing.mpr status)
    obtain ⟨rest, all, part⟩ := h.sent_frames hs
    exact ⟨slots, rest, hs, all, part⟩
  · intro i j firsti lasti onlinei firstj lastj onlinej newer older trace same restsOlder rests
    obtain ⟨messages, grown⟩ : ∃ messages, sent (newer ++ older) = sent older ++ messages := sent_append same
    rw [← trace] at grown
    have streams : ∀ pos, 1 ≤ pos → pos ≤ r.playerCnt → r.isOnline pos = true →
        streamed pos tr = streamed pos older ++ messages := by
      intro pos first last online
      rw [(inStep pos first last online newer older trace same).all restsOlder,
        (h.inStep status first last online).all rests, grown]
    exact ⟨messages, grown, streams i firsti lasti onlinei, streams j firstj lastj onlinej⟩

/-- At every moment of a game, whatever the clock says, whoever leaves and whatever writes fail: the messages of the
    ring carry frame numbers that are counted up from 1; each frame is what was stored in its slot, in that order, after
    an `SCFrameMess` if the slot was empty; and two slots that are still in the game were sent the same messages of the
    ring between any two moments at which none is being broadcast. -/
theorem game_in_lockstep {env : Env} {k : List Frame} {s : Server} (h : Config env k s) {p : RoomPtr}
    (alloc : p < s.roomCnt) (status : (s.room p).status = .ingame) : Lockstep (s.room p) (roomTrace p s.trace) :=
  (h.roomRun alloc).lockstep status

/-- Three players are in a game; the clock moves on by five frames, and the write of the first message to player 1
    fails. -/
def Script.brokenGame : Env := { party
    (fun n => if n = 46 then [readable 4, readable 5, readable 6] else [])
    (fun n => if n = 47 then some (request 0x10 ++ request 0x12)
      else if n = 54 ∨ n = 56 then some (request 0x12) else none) (· == 67) with
  clock := fun n => if n < 64 then 0 else 100000 }

/-- Player 1 leaves in the middle of the first frame; the others are sent both frames. -/
theorem game_in_lockstep_broken : ∃ s, Reachable Script.brokenGame s ∧ (s.room 0).onlineSlots = [2, 3] ∧
    Lockstep (s.room 0) (roomTrace 0 s.trace) ∧ (streamed 2 (roomTrace 0 s.trace)).length = 2 ∧
    streamed 2 (roomTrace 0 s.trace) = streamed 3 (roomTrace 0 s.trace) := by
  obtain ⟨s, reachable, test⟩ := exists_of_ends 9
    (fun s => decide (0 < s.roomCnt) && (s.room 0).status == .ingame && (s.room 0).onlineSlots == [2, 3] &&
      decide (3 ≤ (s.room 0).playerCnt) && (s.room 0).isOnline 2 && (s.room 0).isOnline 3 &&
      (streamed 2 (roomTrace 0 s.trace)).length == 2 && (sending (roomTrace 0 s.trace)).isNone)
    (Script.reachable Script.brokenGame) (by decide +kernel)
  simp only [Bool.and_eq_true, beq_iff_eq, decide_eq_true_eq] at test
  obtain ⟨⟨⟨⟨⟨⟨⟨alloc, status⟩, slots⟩, cnt⟩, second⟩, third⟩, two⟩, rests⟩ := test
  have lockstep := game_in_lockstep reachable.config alloc status
  have rests := Option.isNone_iff_eq_none.mp rests
  have here := (lockstep.inStep 2 (by decide) (Nat.le_of_succ_le cnt) second [] _ rfl (List.forall_mem_nil _)).all rests
  have there := (lockstep.inStep 3 (by decide) cnt third [] _ rfl (List.forall_mem_nil _)).all rests
  exact ⟨s, reachable, slots, lockstep, two, here.trans there.symm⟩

end IslandSurvival
