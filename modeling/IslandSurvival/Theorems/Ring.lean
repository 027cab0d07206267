import IslandSurvival.Theorems.RoomRun
import IslandSurvival.Theorems.Scenario

/-! The ring during a game. `SYN::Init` empties every slot, and a room is run only while it is in game, so
    what the ring broadcasts was stored since the game started, or stands for an empty frame. -/

namespace IslandSurvival

/-! ### `SYN` -/

@[simp] theorem CMessage.setFramenum_setFramenum (mess : CMessage) (a b : Int) :
    (mess.setFramenum a).setFramenum b = mess.setFramenum b := (rfl)

namespace Syn

variable {syn syn' : Syn} {mess : CMessage} {now : Int} {h : Nat}

/-- A slot number is one of the array. -/
theorem slot_eq_ok {i : Int} : slot i = .ok h ↔ (h : Int) = i ∧ i < 64 := by
  unfold slot synBufferSize
  split
  · simp only [Except.ok.injEq]
    omega
  · simp only [reduceCtorEq, false_iff]
    omega

/-- The slots after a message was put into one that is not full, or into none. -/
def put (slot : Option (Nat × Nat)) (mess : CMessage) (frames : Nat → OneFrame) : Nat → OneFrame :=
  match slot with
  | none => frames
  | some (i, num) => if num < oneFrameBufferSize then Function.update frames i { mess := (frames i).mess ++ [mess] } else frames

theorem store_oneframe (i : Nat) :
    (syn.store i mess).oneframe = put (some (i, (syn.oneframe i).num)) mess syn.oneframe := by
  unfold store OneFrame.add put
  split
  · rename_i full
    simp [Nat.not_lt.mpr full]
  · rename_i free
    simp [Nat.lt_of_not_le free]

theorem bind_eq_ok {α β : Type} {x : Except Fault α} {f : α → Except Fault β} {b : β} :
    (x >>= f) = .ok b ↔ ∃ a, x = .ok a ∧ f a = .ok b := by
  cases x with
  | ok a => simp [bind, Except.bind]
  | error e => simp [bind, Except.bind]

/-- `Add` puts the message into a slot or drops it; the counters of the ring stay as they are. -/
theorem add_eq {slot : Option (Nat × Nat)} (h : syn.add now mess = .ok (syn', slot)) :
    syn' = { syn.updateTime now with oneframe := put slot mess syn.oneframe } := by
  unfold add at h
  obtain ⟨target, -, h⟩ := bind_eq_ok.mp h
  cases target with
  | none =>
    obtain ⟨rfl, rfl⟩ := Prod.mk.inj (Except.ok.inj h)
    rfl
  | some i =>
    obtain ⟨rfl, rfl⟩ := Prod.mk.inj (Except.ok.inj h)
    have frames : ((syn.updateTime now).store i mess).oneframe =
        put (some (i, ((syn.updateTime now).oneframe i).num)) mess (syn.updateTime now).oneframe := store_oneframe i
    calc (syn.updateTime now).store i mess
        = { syn.updateTime now with oneframe := ((syn.updateTime now).store i mess).oneframe } := rfl
      _ = _ := by rw [frames]; rfl

theorem advance_eq (h : syn.advance = .ok syn') :
    syn' = { syn with head := (syn.head + 1).tmod 64, headFrame := syn.headFrame + 1 } := by
  unfold advance at h
  obtain ⟨head, hhead, h⟩ := bind_eq_ok.mp h
  obtain ⟨headFrame, hframe, h⟩ := bind_eq_ok.mp h
  obtain ⟨rfl, -⟩ := add32_eq_ok.mp hhead
  obtain ⟨rfl, -⟩ := add32_eq_ok.mp hframe
  exact (Except.ok.inj h).symm

/-- What `stamp` and `setFramenum` leave of the messages of a slot -/
def contents (frames : Nat → OneFrame) (i : Nat) : List CMessage := (frames i).mess.map (·.setFramenum 0)

theorem contents_put (j num : Nat) (mess : CMessage) (frames : Nat → OneFrame) :
    contents (put (some (j, num)) mess frames) =
      if num < oneFrameBufferSize then Function.update (contents frames) j (contents frames j ++ [mess.setFramenum 0])
      else contents frames := by
  simp only [put]
  split
  · funext i
    by_cases hij : i = j
    · subst hij
      simp [contents]
    · simp [contents, hij]
  · rfl

theorem contents_stamp (i : Nat) : contents (syn.stamp h i).oneframe = contents syn.oneframe := by
  funext j
  by_cases hj : j = h
  · subst hj
    simp only [contents, stamp, Function.update_self]
    refine List.ext_getElem? fun n => ?_
    simp only [List.getElem?_map, List.getElem?_modify]
    cases ((syn.oneframe j).mess)[n]? with
    | none => rfl
    | some m =>
      by_cases hn : i = n <;> simp [hn]
  · simp [contents, stamp, hj]

end Syn

/-! ### The trace of a room -/

/-- The messages that were stored since the game started; none where no game started since the room was set up -/
def stored : List Event → Option (List CMessage)
  | [] => none
  | .roomInit _ :: _ => none
  | .gameStart _ _ :: _ => some []
  | .synAdd _ mess (some (_, num)) :: older =>
    if num < oneFrameBufferSize then (stored older).map (mess :: ·) else stored older
  | _ :: older => stored older

/-- The slot of a frame -/
def slotOf (frame : Int) : Nat := ((frame - 1) % 64).toNat

/-- What each slot holds, by the messages that were stored in it and the frames that were sent -/
def held : List Event → Option (Nat → List CMessage)
  | [] => none
  | .roomInit _ :: _ => none
  | .gameStart _ _ :: _ => some fun _ => []
  | .synAdd _ mess (some (i, num)) :: older =>
    if num < oneFrameBufferSize then (held older).map fun slots => Function.update slots i (slots i ++ [mess])
    else held older
  | .frameEnd _ frame :: older => (held older).map fun slots => Function.update slots (slotOf frame) []
  | _ :: older => held older

/-- Every message that left the ring was sent in a state of the run for which `ok` holds. -/
def everySend (ok : List Event → CMessage → Prop) : List Event → Prop
  | [] => True
  | .synSend _ mess :: older => ok older mess ∧ everySend ok older
  | _ :: older => everySend ok older

/-- The message was stored since the game started; only its frame number may have changed. -/
def FromGame (older : List Event) (mess : CMessage) : Prop :=
  ∃ game, stored older = some game ∧ ∃ m ∈ game, ∃ frame, mess = m.setFramenum frame

/-- What a slot holds was stored since the game started. -/
theorem stored_of_held {tr : List Event} : ∀ {slots : Nat → List CMessage}, held tr = some slots →
    ∃ game, stored tr = some game ∧ ∀ i, ∀ m ∈ slots i, m ∈ game := by
  induction tr with
  | nil =>
    intro _ h
    cases h
  | cons e older ih =>
    intro slots h
    cases e with
    | roomInit p => cases h
    | gameStart p unreported =>
      obtain rfl := Option.some.inj h
      exact ⟨[], rfl, fun _ _ hm => absurd hm List.not_mem_nil⟩
    | synAdd p mess slot =>
      cases slot with
      | none => exact ih h
      | some target =>
        simp only [held] at h
        split at h
        · rename_i free
          obtain ⟨slots, hslots, rfl⟩ := Option.map_eq_some_iff.mp h
          obtain ⟨game, hgame, sub⟩ := ih hslots
          refine ⟨mess :: game, by simp [stored, hgame, free], fun j m hm => ?_⟩
          by_cases hj : j = target.1
          · subst hj
            rw [Function.update_self, List.mem_append, List.mem_singleton] at hm
            rcases hm with hm | rfl
            · exact List.mem_cons_of_mem _ (sub _ m hm)
            · exact List.mem_cons_self
          · rw [Function.update_of_ne hj] at hm
            exact List.mem_cons_of_mem _ (sub j m hm)
        · rename_i full
          simp only [stored, if_neg full]
          exact ih h
    | frameEnd p frame =>
      obtain ⟨slots, hslots, rfl⟩ := Option.map_eq_some_iff.mp h
      obtain ⟨game, hgame, sub⟩ := ih hslots
      refine ⟨game, hgame, fun j m hm => sub j m ?_⟩
      by_cases hj : j = slotOf frame
      · subst hj
        simp at hm
      · rwa [Function.update_of_ne hj] at hm
    | _ => exact ih h

/-! ### A room -/

/-- What is pending between the moves of a room, for its ring -/
inductive RingWork
  | up
  | starting
  | running
  | frame (f : Int) (i : Option Nat)
  | framed
deriving DecidableEq

def Frame.ring? : Frame → Option RingWork
  | .loadingUp _ _ => some .up
  | .starting _ _ => some .starting
  | .running _ => some .running
  | .frame _ f i => some (.frame f i)
  | .framed _ => some .framed
  | _ => none

/-- The ring of a room: during a game its slots hold what was stored in them. -/
structure RingRoom (work : List RingWork) (r : Room) (game : Option (Nat → List CMessage)) : Prop where
  up : .up ∈ work → r.status = .waiting
  starting : .starting ∈ work → r.status ≠ .waiting ∧ .running ∉ work
  running : .running ∈ work → r.status = .ingame
  frame : ∀ {f : Int} {i : Option Nat}, .frame f i ∈ work → .running ∈ work ∧ r.syn.headFrame = f
  framed : .framed ∈ work → .running ∈ work
  playing : game.isSome = true ↔ r.status = .ingame
  head : r.status = .ingame → r.syn.head = (r.syn.headFrame - 1) % 64 ∧ 1 ≤ r.syn.headFrame
  holds : ∀ {slots : Nat → List CMessage}, game = some slots → ∀ i, Syn.contents r.syn.oneframe i = (slots i).map (·.setFramenum 0)

namespace RingRoom

variable {work : List RingWork} {r : Room} {game : Option (Nat → List CMessage)}

/-- Updates that leave the status and the ring as they are -/
theorem congr {r' : Room} (h : RingRoom work r game) (status : r'.status = r.status)
    (head : r'.syn.head = r.syn.head) (headFrame : r'.syn.headFrame = r.syn.headFrame)
    (contents : Syn.contents r'.syn.oneframe = Syn.contents r.syn.oneframe) : RingRoom work r' game where
  up := by rw [status]; exact h.up
  starting := by rw [status]; exact h.starting
  running := by rw [status]; exact h.running
  frame := by rw [headFrame]; exact h.frame
  framed := h.framed
  playing := by rw [status]; exact h.playing
  head := by rw [status, head, headFrame]; exact h.head
  holds := by rw [contents]; exact h.holds

/-- A room that is set up again -/
theorem init (status : r.status = .waiting) : RingRoom [] r none where
  up hm := absurd hm List.not_mem_nil
  starting hm := absurd hm List.not_mem_nil
  running hm := absurd hm List.not_mem_nil
  frame hm := absurd hm List.not_mem_nil
  framed hm := absurd hm List.not_mem_nil
  playing := by simp [status]
  head hs := by simp [status] at hs
  holds hs := by cases hs

/-- A message was added to the ring. -/
theorem add {now : Int} {mess : CMessage} {syn : Syn} {slot : Option (Nat × Nat)} {tr : List Event}
    (h : RingRoom work r (held tr)) (add : r.syn.add now mess = .ok (syn, slot)) :
    RingRoom work { r with syn } (held (.synAdd p mess slot :: tr)) := by
  rw [Syn.add_eq add]
  exact {
    up := h.up, starting := h.starting, running := h.running, frame := h.frame, framed := h.framed, head := h.head
    playing := by
      rw [← h.playing]
      cases slot with
      | none => rfl
      | some target =>
        simp only [held]
        split <;> simp
    holds := fun {slots} hs i => by
      cases slot with
      | none => exact h.holds hs i
      | some target =>
        simp only [held] at hs
        rw [Syn.contents_put]
        split at hs
        · rename_i free
          obtain ⟨slots, hslots, rfl⟩ := Option.map_eq_some_iff.mp hs
          rw [if_pos free]
          by_cases hij : i = target.1
          · simp [hij, h.holds hslots]
          · simp [hij, h.holds hslots]
        · rename_i full
          rw [if_neg full]
          exact h.holds hs i }

/-- `SendGameLoading` ends. -/
theorem load (h : RingRoom [.up] r game) (now : Int) : RingRoom [] (r.startLoading now) game where
  up hm := absurd hm List.not_mem_nil
  starting hm := absurd hm List.not_mem_nil
  running hm := absurd hm List.not_mem_nil
  frame hm := absurd hm List.not_mem_nil
  framed hm := absurd hm List.not_mem_nil
  playing := by
    rw [h.playing, h.up List.mem_cons_self]
    simp [Room.startLoading]
  head hs := by simp [Room.startLoading] at hs
  holds := h.holds

/-- `SendGameStart` ends with `SYN::Init`. -/
theorem start (h : RingRoom (.starting :: work) r game) (now now' : Int) :
    RingRoom work (r.startGame now now') (some fun _ => []) where
  up hm := absurd (h.up (List.mem_cons_of_mem _ hm)) (h.starting List.mem_cons_self).1
  starting hm := ⟨by simp [Room.startGame], fun hr => (h.starting List.mem_cons_self).2 (List.mem_cons_of_mem _ hr)⟩
  running _ := rfl
  frame hm := absurd (h.frame (List.mem_cons_of_mem _ hm)).1 (h.starting List.mem_cons_self).2
  framed hm := absurd (h.framed (List.mem_cons_of_mem _ hm)) (h.starting List.mem_cons_self).2
  playing := by simp [Room.startGame]
  head _ := ⟨rfl, Int.le_refl 1⟩
  holds hs i := by
    obtain rfl := Option.some.inj hs
    rfl

/-- The head slot is cleared. -/
theorem clear {f : Int} {i : Option Nat} {slot : Nat} (h : RingRoom [.frame f i, .running] r game)
    (head : Syn.slot r.syn.head = .ok slot) :
    RingRoom [.framed, .running] { r with syn := r.syn.clear slot }
      (game.map fun slots => Function.update slots (slotOf f) []) where
  up hm := by simp at hm
  starting hm := by simp at hm
  running _ := h.running (by simp)
  frame hm := by simp at hm
  framed _ := by simp
  playing := by
    rw [← h.playing]
    simp
  head := h.head
  holds {slots} hs i := by
    obtain ⟨slots, hslots, rfl⟩ := Option.map_eq_some_iff.mp hs
    obtain ⟨running, frame⟩ := h.frame List.mem_cons_self
    have slot_eq : slotOf f = slot := by
      have := (h.head (h.running running)).1
      have := (Syn.slot_eq_ok.mp head).1
      unfold slotOf
      omega
    by_cases hi : i = slot
    · subst hi
      simp [slot_eq, Syn.contents, Syn.clear, OneFrame.init]
    · have old := h.holds hslots i
      rw [slot_eq, Function.update_of_ne hi]
      simpa [Syn.contents, Syn.clear, hi] using old

/-- `SYN::Run` goes on to the next frame. -/
theorem advance {syn : Syn} (h : RingRoom [.framed, .running] r game) (next : r.syn.advance = .ok syn) :
    RingRoom [.running] { r with syn } game := by
  rw [Syn.advance_eq next]
  exact {
    up := by simp, starting := by simp, frame := by simp, framed := by simp
    running := fun _ => h.running (by simp)
    playing := h.playing, holds := h.holds
    head := fun status => by
      have old := h.head status
      refine ⟨?_, by simp only; omega⟩
      simp only
      rw [Int.tmod_eq_emod_of_nonneg (by omega)]
      omega }

/-- Nothing is pending any more. -/
theorem done (h : RingRoom work r game) : RingRoom [] r game where
  up hm := absurd hm List.not_mem_nil
  starting hm := absurd hm List.not_mem_nil
  running hm := absurd hm List.not_mem_nil
  frame hm := absurd hm List.not_mem_nil
  framed hm := absurd hm List.not_mem_nil
  playing := h.playing
  head := h.head
  holds := h.holds

/-- A start is due. -/
theorem due (h : RingRoom work r game) (status : r.status = .loading) : RingRoom (.starting :: work) r game where
  up hm := h.up (List.mem_of_ne_of_mem (by simp) hm)
  starting _ := by
    refine ⟨by simp [status], fun hr => ?_⟩
    have playing := h.running (List.mem_of_ne_of_mem (by simp) hr)
    simp [status] at playing
  running hm := h.running (List.mem_of_ne_of_mem (by simp) hm)
  frame hm := by
    obtain ⟨running, frame⟩ := h.frame (List.mem_of_ne_of_mem (by simp) hm)
    exact ⟨List.mem_cons_of_mem _ running, frame⟩
  framed hm := List.mem_cons_of_mem _ (h.framed (List.mem_of_ne_of_mem (by simp) hm))
  playing := h.playing
  head := h.head
  holds := h.holds

/-- `SendGameLoading` begins. -/
theorem loading (h : RingRoom [] r game) (status : r.status = .waiting) : RingRoom [.up] r game where
  up _ := status
  starting hm := by simp at hm
  running hm := by simp at hm
  frame hm := by simp at hm
  framed hm := by simp at hm
  playing := h.playing
  head := h.head
  holds := h.holds

/-- A run of the ring begins. -/
theorem begin (h : RingRoom [] r game) (status : r.status = .ingame) : RingRoom [.running] r game where
  up hm := by simp at hm
  starting hm := by simp at hm
  running _ := status
  frame hm := by simp at hm
  framed hm := by simp at hm
  playing := h.playing
  head := h.head
  holds := h.holds

/-- The head frame is sent. -/
theorem head_frame {f : Int} {i : Option Nat} (h : RingRoom (.running :: work) r game) (frame : r.syn.headFrame = f) :
    RingRoom [.frame f i, .running] r game where
  up hm := by simp at hm
  starting hm := by simp at hm
  running _ := h.running List.mem_cons_self
  frame hm := by
    have only : ∀ {g j}, RingWork.frame g j ∈ [RingWork.frame f i, .running] → g = f := by simp
    exact ⟨by simp, (only hm).symm ▸ frame⟩
  framed hm := by simp at hm
  playing := h.playing
  head := h.head
  holds := h.holds

/-- The next message of the head frame is sent. -/
theorem next {f : Int} {i j : Option Nat} (h : RingRoom [.frame f i, .running] r game) :
    RingRoom [.frame f j, .running] r game where
  up hm := by simp at hm
  starting hm := by simp at hm
  running _ := h.running (by simp)
  frame hm := by
    have only : ∀ {g l}, RingWork.frame g l ∈ [RingWork.frame f j, .running] → g = f := by simp
    exact ⟨by simp, (only hm).symm ▸ (h.frame List.mem_cons_self).2⟩
  framed hm := by simp at hm
  playing := h.playing
  head := h.head
  holds := h.holds

end RingRoom

/-! ### Over runs -/

variable {p : RoomPtr} {w w' : List Frame} {r r' : Room} {tr tr' : List Event}

theorem ring_step (move : RoomStep p w r tr w' r' tr') (h : RingRoom (w.filterMap Frame.ring?) r (held tr)) :
    RingRoom (w'.filterMap Frame.ring?) r' (held tr') := by
  cases move with
  | init _ _ _ _ => exact .init rfl
  | join _ status _ => exact h.congr rfl rfl rfl rfl
  | change u teamId gameOption _ =>
    obtain ⟨_, _, hr⟩ := MP.applyChange_eq u teamId gameOption r
    rw [hr]
    exact h.congr rfl rfl rfl rfl
  | gameEnd _ _ => exact RingRoom.congr h rfl rfl rfl rfl
  | leave _ _ =>
    unfold Room.departing Room.vacate
    cases r.status with
    | waiting => exact h.congr rfl rfl rfl rfl
    | loading => exact h.congr rfl rfl rfl rfl
    | ingame => exact h.congr rfl rfl rfl rfl
  | uncount _ => exact h.congr rfl rfl rfl rfl
  | exitStart _ _ status => exact RingRoom.due h status
  | quit add => exact h.add add
  | everyone cast => cases cast <;> exact h
  | loadBegin status => exact RingRoom.loading h status
  | load now => exact RingRoom.load h now
  | loadReport _ _ _ _ _ => exact RingRoom.congr h rfl rfl rfl rfl
  | @reportStart _ _ pos status _ _ _ _ =>
    have reported : RingRoom [] (r.loadSlot pos) (held tr) := RingRoom.congr h rfl rfl rfl rfl
    exact reported.due status
  | timeoutStart status => exact RingRoom.due h status
  | start now now' => exact RingRoom.start h now now'
  | updateTime now => exact h.congr rfl rfl rfl rfl
  | relay _ add => exact h.add add
  | runBegin now status => exact RingRoom.congr (RingRoom.begin h status) rfl rfl rfl rfl
  | frameBegin _ => exact RingRoom.head_frame h rfl
  | castEmpty _ _ => exact RingRoom.next h
  | castNone _ _ => exact RingRoom.next h
  | cast _ _ => exact RingRoom.congr (RingRoom.next h) rfl rfl rfl (Syn.contents_stamp _)
  | frameEnd head _ => exact RingRoom.clear h head
  | advance next => exact RingRoom.advance h next
  | runEnd => exact RingRoom.done h
  | _ => exact h

theorem RoomRun.ring (h : RoomRun p w r tr) : RingRoom (w.filterMap Frame.ring?) r (held tr) := by
  induction h with
  | init _ _ _ _ => exact .init rfl
  | step _ move ih => exact ring_step move ih

/-- A message of the head slot was stored since the game started. -/
theorem RingRoom.fromGame {work : List RingWork} {slot : Nat} {m : CMessage} (h : RingRoom work r (held tr))
    (running : .running ∈ work) (mess : m ∈ (r.syn.oneframe slot).mess) (frame : Int) :
    FromGame tr (m.setFramenum frame) := by
  obtain ⟨slots, hslots⟩ := Option.isSome_iff_exists.mp (h.playing.mpr (h.running running))
  have mem : m.setFramenum 0 ∈ (slots slot).map (·.setFramenum 0) := by
    rw [← h.holds hslots]
    exact List.mem_map_of_mem mess
  obtain ⟨m', hm', same⟩ := List.mem_map.mp mem
  obtain ⟨game, hgame, sub⟩ := stored_of_held hslots
  refine ⟨game, hgame, m', sub slot m' hm', frame, ?_⟩
  calc m.setFramenum frame = (m.setFramenum 0).setFramenum frame := rfl
    _ = (m'.setFramenum 0).setFramenum frame := by rw [← same]
    _ = m'.setFramenum frame := rfl

/-- A message that is not made up for an empty frame was stored since the game started. -/
def Isolated (older : List Event) (mess : CMessage) : Prop :=
  mess.head.messageId ≠ Msg.scFrameMess → FromGame older mess

theorem isolated_step (move : RoomStep p w r tr w' r' tr') (ring : RingRoom (w.filterMap Frame.ring?) r (held tr))
    (h : everySend Isolated tr) : everySend Isolated tr' := by
  cases move with
  | castEmpty _ _ => exact ⟨fun other => absurd rfl other, h⟩
  | cast _ mess =>
    exact ⟨fun _ => ring.fromGame (by simp [Frame.ring?]) (List.mem_of_getElem? mess) _, h⟩
  | _ => exact h

theorem RoomRun.isolated (h : RoomRun p w r tr) : everySend Isolated tr := by
  induction h with
  | init _ _ _ _ => trivial
  | step run move ih => exact isolated_step move run.ring ih

/-! ### What the ring is for -/

/-- The numbers of the messages that go through the ring -/
def ringIds : List Int32 :=
  [Msg.scChoseRole, Msg.scMove, Msg.scKill, Msg.scSkill, Msg.scGamePause, Msg.scPlayerExitGame]

/-- Every message that was added to the ring is one of its kinds. -/
def addsKinds : List Event → Prop
  | [] => True
  | .synAdd _ mess _ :: older => mess.head.messageId ∈ ringIds ∧ addsKinds older
  | _ :: older => addsKinds older

/-- Every message that was added to the ring has `P`. -/
def everyAdd (P : CMessage → Prop) : List Event → Prop
  | [] => True
  | .synAdd _ mess _ :: older => P mess ∧ everyAdd P older
  | _ :: older => everyAdd P older

/-- What is stored has been added. -/
theorem everyAdd.stored {P : CMessage → Prop} {tr : List Event} (every : everyAdd P tr) :
    ∀ {game : List CMessage}, IslandSurvival.stored tr = some game → ∀ m ∈ game, P m := by
  induction tr with
  | nil =>
    intro _ h
    cases h
  | cons e older ih =>
    intro game h m hm
    cases e with
    | roomInit p => cases h
    | gameStart p unreported =>
      obtain rfl := Option.some.inj h
      exact absurd hm List.not_mem_nil
    | synAdd p mess slot =>
      cases slot with
      | none => exact ih every.2 h m hm
      | some target =>
        simp only [IslandSurvival.stored] at h
        split at h
        · obtain ⟨game, hgame, rfl⟩ := Option.map_eq_some_iff.mp h
          rcases List.mem_cons.mp hm with rfl | hm
          · exact every.1
          · exact ih every.2 hgame m hm
        · exact ih every.2 h m hm
    | _ => exact ih every h m hm

theorem addsKinds.every {tr : List Event} (kinds : addsKinds tr) : everyAdd (·.head.messageId ∈ ringIds) tr := by
  induction tr with
  | nil => trivial
  | cons e older ih =>
    cases e with
    | synAdd p mess slot => exact ⟨kinds.1, ih kinds.2⟩
    | _ => exact ih kinds

theorem Gameplay.kind {playerId : Nat} {mess : CMessage} (h : Gameplay playerId mess) :
    mess.head.messageId ∈ ringIds := by
  cases h <;> simp [CMessage.build, ringIds]

theorem Room.exitGameMessage_kind (pos : Nat) (framenum : Int32) :
    (exitGameMessage pos framenum).head.messageId ∈ ringIds := by
  simp [exitGameMessage, CMessage.build, ringIds]

theorem addsKinds_step (move : RoomStep p w r tr w' r' tr') (h : addsKinds tr) : addsKinds tr' := by
  cases move with
  | quit add => exact ⟨Room.exitGameMessage_kind _ _, h⟩
  | relay gameplay add => exact ⟨gameplay.kind, h⟩
  | _ => exact h

theorem RoomRun.addsKinds (h : RoomRun p w r tr) : addsKinds tr := by
  induction h with
  | init _ _ _ _ => trivial
  | step _ move ih => exact addsKinds_step move ih

/-- The message that `SYN` is sending -/
def Frame.cast? : Frame → Option CMessage
  | .casting _ mess _ => some mess
  | _ => none

/-- Every message that is on its way out of the ring is one of its kinds, or stands for an empty frame. -/
def CastsKinds (w : List Frame) : Prop :=
  ∀ mess ∈ w.filterMap Frame.cast?, mess.head.messageId ∈ Msg.scFrameMess :: ringIds

theorem castsKinds_step (run : RoomRun p w r tr) (move : RoomStep p w r tr w' r' tr') (h : CastsKinds w) :
    CastsKinds w' := by
  cases move with
  | leave _ _ =>
    unfold Room.departing
    split <;> exact h
  | everyone cast => cases cast <;> exact h
  | castEmpty _ _ => exact List.forall_mem_cons.mpr ⟨List.mem_cons_self, h⟩
  | cast _ mess =>
    obtain ⟨game, hgame, m, hm, frame, same⟩ := run.ring.fromGame (by simp [Frame.ring?]) (List.mem_of_getElem? mess) 0
    have kind := run.addsKinds.every.stored hgame m hm
    have id := congrArg (fun m : CMessage => m.head.messageId) same
    refine List.forall_mem_cons.mpr ⟨List.mem_cons_of_mem _ ?_, h⟩
    rw [show (m.setFramenum frame).head.messageId = m.head.messageId from rfl] at id
    exact id ▸ kind
  | castDone => exact fun m hm => h m (List.mem_cons_of_mem _ hm)
  | _ => exact h

theorem RoomRun.castsKinds (h : RoomRun p w r tr) : CastsKinds w := by
  induction h with
  | init _ _ _ _ => exact fun _ hm => absurd hm List.not_mem_nil
  | step run move ih => exact castsKinds_step run move ih

/-- Apart from the `SCFrameMess` of an empty frame, the ring of a room broadcasts only what was stored since
    the game started. -/
theorem broadcasts_isolated {env : Env} {s : Server} (h : Visited env s) (p : RoomPtr) :
    everySend Isolated (roomTrace p s.trace) := by
  obtain ⟨k, config⟩ := h.config
  by_cases alloc : p < s.roomCnt
  · exact (config.roomRun alloc).isolated
  · rw [((config.roomRuns p).2 (Nat.le_of_not_lt alloc)).2]
    trivial

/-- Player 1 starts a game alone and sends requests while the clock runs. -/
def Script.game (requests : Bytes) : Env :=
  { oneClient (request 0 ++ request 9 ++ request 0x10 ++ request 0x12 ++ requests) with
    clock := fun n => 100000 * n }

/-- The role that player 1 chooses is broadcast. -/
theorem broadcasts_isolated_role : ∃ s, Visited (Script.game (Script.request 0x15)) s ∧
    .synSend 0 (.build Msg.scChoseRole 1 (.scChoseRole 1 1)) ∈ s.trace ∧
      everySend Isolated (roomTrace 0 s.trace) := by
  obtain ⟨s, reachable, test⟩ := exists_of_ends 3
    (fun s => decide (.synSend 0 (.build Msg.scChoseRole 1 (.scChoseRole 1 1)) ∈ s.trace))
    (Script.reachable (Script.game (Script.request 0x15))) (by decide +kernel)
  exact ⟨s, .reach reachable, of_decide_eq_true test, broadcasts_isolated (.reach reachable) 0⟩

/-- A message of a trace left the ring although nothing had been stored. -/
def sendsUnstored : List Event → Bool
  | [] => false
  | .synSend _ _ :: older => stored older == some [] || sendsUnstored older
  | _ :: older => sendsUnstored older

theorem not_everySend_of_unstored {tr : List Event} (h : sendsUnstored tr = true) : ¬everySend FromGame tr := by
  induction tr with
  | nil => cases h
  | cons e older ih =>
    cases e with
    | synSend p mess =>
      rintro ⟨⟨game, hgame, m, hm, -⟩, rest⟩
      rcases Bool.or_eq_true_iff.mp h with empty | unstored
      · obtain rfl := Option.some.inj (hgame.symm.trans (eq_of_beq empty))
        exact absurd hm List.not_mem_nil
      · exact ih unstored rest
    | _ => exact ih h

/-- The ring sends an `SCFrameMess` for a frame in which nothing was stored. -/
theorem empty_frame_is_sent : ∃ s, Visited (Script.game []) s ∧ ¬everySend FromGame (roomTrace 0 s.trace) := by
  obtain ⟨s, reachable, test⟩ := exists_of_ends 3 (fun s => sendsUnstored (roomTrace 0 s.trace))
    (Script.reachable (Script.game [])) (by decide +kernel)
  exact ⟨s, .reach reachable, not_everySend_of_unstored test⟩

end IslandSurvival
