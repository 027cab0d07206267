import IslandSurvival.Theorems.Ring

/-! The frames of a game. What the ring sends since the game started are the frames one after the other, and
    each frame is the content of its slot, in the order in which it was stored. -/

namespace IslandSurvival

/-! ### The trace of a room -/

/-- The frame that is the next to end -/
def headOf : List Event → Int
  | [] => 1
  | .gameStart _ _ :: _ => 1
  | .frameEnd _ _ :: older => headOf older + 1
  | _ :: older => headOf older

/-- The messages that left the ring since the game started, oldest first -/
def sent : List Event → List CMessage
  | [] => []
  | .gameStart _ _ :: _ => []
  | .synSend _ mess :: older => sent older ++ [mess]
  | _ :: older => sent older

/-- The slot of the head frame was empty when its turn came. -/
def slotEmpty : List Event → Bool
  | [] => false
  | .frameBegin _ f :: older => (held older).any fun slots => (slots (slotOf f)).isEmpty
  | _ :: older => slotEmpty older

/-- The message that stands for an empty frame -/
def frameMess (f : Int) : CMessage := .build Msg.scFrameMess (.ofInt f) (.scFrameMess 0)

/-- What is sent for a frame before the messages of its slot -/
def opening (empty : Bool) (f : Int) : List CMessage := if empty then [frameMess f] else []

/-- Messages of a frame, with its number -/
def stamped (f : Int) (slot : List CMessage) : List CMessage := slot.map (·.setFramenum f)

/-- The frames that ended since the game started, oldest first -/
def frames : List Event → List CMessage
  | [] => []
  | .gameStart _ _ :: _ => []
  | .frameEnd _ f :: older =>
    frames older ++ (opening (slotEmpty older) f ++ stamped f (((held older).getD fun _ => []) (slotOf f)))
  | _ :: older => frames older

/-! ### A room -/

/-- The work of the ring between two frames -/
def RingWork.calm : RingWork → Bool
  | .frame _ _ => false
  | .framed => false
  | _ => true

/-- What was sent, by what is pending for the ring: a frame that has begun is sent up to a message of its slot. -/
inductive FrameRoom (slots : Nat → List CMessage) (headFrame head : Int) (empty : Bool) (sent frames : List CMessage) :
    List RingWork → Prop
  | between {work} (calm : work.all RingWork.calm = true) (next : head = headFrame) (all : sent = frames) :
      FrameRoom slots headFrame head empty sent frames work
  | begun {f} (frame : headFrame = f) (next : head = f) (free : empty = (slots (slotOf f)).isEmpty) (all : sent = frames) :
      FrameRoom slots headFrame head empty sent frames [.frame f none, .running]
  | turn {f i} (frame : headFrame = f) (next : head = f) (le : i ≤ (slots (slotOf f)).length)
      (all : sent = frames ++ (opening empty f ++ stamped f ((slots (slotOf f)).take i))) :
      FrameRoom slots headFrame head empty sent frames [.frame f (some i), .running]
  | ended (next : head = headFrame + 1) (all : sent = frames) :
      FrameRoom slots headFrame head empty sent frames [.framed, .running]

/-- What was sent of the current game of a room -/
def FramesRoom (w : List Frame) (r : Room) (tr : List Event) : Prop :=
  ∀ slots, held tr = some slots →
    FrameRoom slots r.syn.headFrame (headOf tr) (slotEmpty tr) (sent tr) (frames tr) (w.filterMap Frame.ring?)

variable {p : RoomPtr} {w w' : List Frame} {r r' : Room} {tr tr' : List Event} {work : List RingWork}
  {slots : Nat → List CMessage} {f : Int} {slot : Nat}

namespace RingRoom

/-- The head slot of the ring is the slot of the head frame. -/
theorem slotOf {i : Option Nat} (h : RingRoom work r (held tr)) (frame : .frame f i ∈ work)
    (head : Syn.slot r.syn.head = .ok slot) : slotOf r.syn.headFrame = slot := by
  have := (h.head (h.running (h.frame frame).1)).1
  have := (Syn.slot_eq_ok.mp head).1
  unfold IslandSurvival.slotOf
  omega

/-- The messages of the head slot are those that were stored there, up to their frame number. -/
theorem headSlot {i : Option Nat} (h : RingRoom work r (held tr)) (frame : .frame f i ∈ work)
    (head : Syn.slot r.syn.head = .ok slot) (hs : held tr = some slots) :
    stamped 0 (r.syn.oneframe slot).mess = stamped 0 (slots (IslandSurvival.slotOf r.syn.headFrame)) := by
  rw [h.slotOf frame head]
  exact h.holds hs slot

/-- No game is running. -/
theorem held_none (h : RingRoom work r (held tr)) (status : r.status ≠ .ingame) : held tr = none := by
  cases hs : held tr with
  | none => rfl
  | some slots => exact absurd (h.playing.mp (by simp [hs])) status

end RingRoom

/-- Messages that agree up to their frame number agree when they get the same one. -/
theorem setFramenum_congr {m m' : CMessage} (same : m.setFramenum 0 = m'.setFramenum 0) (f : Int) :
    m.setFramenum f = m'.setFramenum f :=
  calc m.setFramenum f = (m.setFramenum 0).setFramenum f := rfl
    _ = (m'.setFramenum 0).setFramenum f := by rw [same]
    _ = m'.setFramenum f := rfl

/-- Outside of a game nothing is claimed. -/
theorem FramesRoom.idle (none : held tr = none) : FramesRoom w r tr := by
  intro slots hs
  rw [none] at hs
  cases hs

namespace FrameRoom

variable {headFrame head : Int} {empty : Bool} {sent frames : List CMessage} {i : Nat} {mess : CMessage}

/-- A message is stored in a slot. -/
theorem store (i : Nat) (mess : CMessage) (h : FrameRoom slots headFrame head empty sent frames work)
    (waits : ∀ f, .frame f none ∉ work) :
    FrameRoom (Function.update slots i (slots i ++ [mess])) headFrame head empty sent frames work := by
  cases h with
  | between calm next all => exact .between calm next all
  | begun _ _ _ _ => exact absurd List.mem_cons_self (waits _)
  | @turn f n frame next le all =>
    have grows : slots (slotOf f) <+: Function.update slots i (slots i ++ [mess]) (slotOf f) := by
      by_cases hi : slotOf f = i
      · rw [hi, Function.update_self]
        exact List.prefix_append _ _
      · exact (Function.update_of_ne hi _ slots).symm ▸ List.prefix_rfl
    refine .turn frame next (Nat.le_trans le grows.length_le) ?_
    obtain ⟨rest, grown⟩ := grows
    rw [all, ← grown, List.take_append_of_le_length le]
  | ended next all => exact .ended next all

/-- Between two frames it does not matter what else is pending. -/
theorem calm {work' : List RingWork} (h : FrameRoom slots headFrame head empty sent frames work)
    (before : work.all RingWork.calm = true) (after : work'.all RingWork.calm = true) :
    FrameRoom slots headFrame head empty sent frames work' := by
  cases h with
  | between _ next all => exact .between after next all
  | begun _ _ _ _ => cases before
  | turn _ _ _ _ => cases before
  | ended _ _ => cases before

/-- The turn of a frame comes. -/
theorem begin (h : FrameRoom slots headFrame head empty sent frames [.running]) :
    FrameRoom slots headFrame head (slots (slotOf headFrame)).isEmpty sent frames [.frame headFrame none, .running] := by
  cases h with
  | between _ next all => exact .begun rfl next rfl all

/-- Something is sent for an empty slot. -/
theorem opened (h : FrameRoom slots headFrame head empty sent frames [.frame f none, .running]) :
    FrameRoom slots headFrame head empty (sent ++ opening (slots (slotOf headFrame)).isEmpty headFrame) frames
      [.frame f (some 0), .running] := by
  cases h with
  | between calm _ _ => cases calm
  | begun frame next free all =>
    refine .turn frame next (Nat.zero_le _) ?_
    simp [all, free, frame, stamped]

/-- The next message of the slot is sent. -/
theorem next (h : FrameRoom slots headFrame head empty sent frames [.frame f (some i), .running])
    (here : (stamped headFrame (slots (slotOf headFrame)))[i]? = some mess) :
    FrameRoom slots headFrame head empty (sent ++ [mess]) frames [.frame f (some (i + 1)), .running] := by
  cases h with
  | between calm _ _ => cases calm
  | turn frame first le all =>
    subst frame
    have lt : i < (slots (slotOf headFrame)).length := by
      have := (List.getElem?_eq_some_iff.mp here).1
      simpa [stamped] using this
    refine .turn rfl first lt ?_
    have more : stamped headFrame ((slots (slotOf headFrame)).take (i + 1)) =
        stamped headFrame ((slots (slotOf headFrame)).take i) ++ [mess] := by
      simp only [stamped, List.map_take] at here ⊢
      rw [List.take_add_one, here]
      rfl
    rw [all, more, List.append_assoc, List.append_assoc]

/-- All messages of the slot are sent. -/
theorem done (h : FrameRoom slots headFrame head empty sent frames [.frame f (some i), .running])
    (le : (slots (slotOf headFrame)).length ≤ i) (slots' : Nat → List CMessage) (empty' : Bool) :
    FrameRoom slots' headFrame (head + 1) empty' sent
      (frames ++ (opening empty f ++ stamped f (slots (slotOf f)))) [.framed, .running] := by
  cases h with
  | between calm _ _ => cases calm
  | turn frame next _ all =>
    subst frame
    refine .ended (by rw [next]) ?_
    rw [all, List.take_of_length_le le]

/-- `Run` goes on to the next frame. -/
theorem advance (h : FrameRoom slots headFrame head empty sent frames [.framed, .running]) :
    FrameRoom slots (headFrame + 1) head empty sent frames [.running] := by
  cases h with
  | between calm _ _ => cases calm
  | ended next all => exact .between rfl next all

end FrameRoom

/-- When a game starts, no frame is being sent. -/
theorem RingRoom.calm (h : RingRoom (.starting :: work) r (held tr)) : work.all RingWork.calm = true := by
  have idle := (h.starting List.mem_cons_self).2
  refine List.all_eq_true.mpr fun x hx => ?_
  cases x with
  | frame f i => exact absurd (h.frame (List.mem_cons_of_mem _ hx)).1 idle
  | framed => exact absurd (h.framed (List.mem_cons_of_mem _ hx)) idle
  | _ => rfl

theorem FramesRoom.add {now : Int} {mess : CMessage} {syn : Syn} {slot : Option (Nat × Nat)} (h : FramesRoom w r tr)
    (add : r.syn.add now mess = .ok (syn, slot)) (waits : ∀ f, .frame f none ∉ w'.filterMap Frame.ring?)
    (same : w'.filterMap Frame.ring? = w.filterMap Frame.ring?) :
    FramesRoom w' { r with syn } (.synAdd p mess slot :: tr) := by
  rw [Syn.add_eq add]
  intro slots hs
  cases slot with
  | none => exact same ▸ h slots hs
  | some target =>
    simp only [held] at hs
    rw [same] at waits ⊢
    split at hs
    · obtain ⟨slots, hslots, rfl⟩ := Option.map_eq_some_iff.mp hs
      exact (h slots hslots).store _ mess waits
    · exact h slots hs

/-- An activation that has not begun its loop does not wait. -/
theorem waits_ring (waits : ∀ f ∈ w, ∃ role, Waits role f) (f : Int) : .frame f none ∉ w.filterMap Frame.ring? := by
  intro mem
  obtain ⟨frame, hframe, work⟩ := List.mem_filterMap.mp mem
  obtain ⟨role, waits⟩ := waits frame hframe
  cases waits <;> simp [Frame.ring?] at work

theorem frames_step (run : RoomRun p w r tr) (move : RoomStep p w r tr w' r' tr') (h : FramesRoom w r tr) :
    FramesRoom w' r' tr' := by
  have ring := run.ring
  cases move with
  | init _ _ _ _ => exact .idle rfl
  | change u teamId gameOption _ =>
    obtain ⟨_, _, hr⟩ := MP.applyChange_eq u teamId gameOption r
    rw [hr]
    exact h
  | leave _ _ =>
    unfold Room.departing Room.vacate
    cases r.status with
    | waiting => exact h
    | loading => exact h
    | ingame => exact h
  | exitStart _ _ status => exact .idle (ring.held_none (by simp [status]))
  | quit add => exact h.add add (waits_ring run.waits) rfl
  | everyone cast => cases cast <;> exact h
  | loadBegin status => exact .idle (ring.held_none (by simp [status]))
  | load now => exact .idle (ring.held_none (by simp [ring.up (by simp [Frame.ring?])]))
  | reportStart status _ _ _ _ => exact .idle (ring.held_none (by simp [status]))
  | timeoutStart status => exact .idle (ring.held_none (by simp [status]))
  | start now now' => exact fun slots _ => .between (RingRoom.calm ring) rfl rfl
  | relay _ add => exact h.add add (by simp) rfl
  | runBegin now status => exact fun slots hs => FrameRoom.calm (h slots hs) rfl rfl
  | frameBegin _ =>
    intro slots hs
    have begun := FrameRoom.begin (h slots hs)
    have hs : held tr = some slots := hs
    simp only [slotEmpty, hs, Option.any_some]
    exact begun
  | @castEmpty _ _ _ _ f slot head empty =>
    intro slots hs
    have opened := FrameRoom.opened (h slots hs)
    have same := ring.headSlot (f := f) (i := none) (by simp [Frame.ring?]) head hs
    have none : slots (slotOf r.syn.headFrame) = [] := by
      rw [List.length_eq_zero_iff.mp empty] at same
      simpa [stamped] using same.symm
    rw [none] at opened
    exact opened
  | @castNone _ _ _ _ f slot head filled =>
    intro slots hs
    have opened := FrameRoom.opened (h slots hs)
    have same := ring.headSlot (f := f) (i := none) (by simp [Frame.ring?]) head hs
    have some : (slots (slotOf r.syn.headFrame)).isEmpty = false := by
      refine List.isEmpty_eq_false_iff.mpr fun none => filled ?_
      rw [none] at same
      simpa [stamped, OneFrame.num] using same
    rw [some, opening, if_neg (by simp), List.append_nil] at opened
    exact opened
  | @cast _ _ _ _ f slot i m head mess =>
    intro slots hs
    have same := congrArg (·[i]?) (ring.headSlot (f := f) (i := some i) (by simp [Frame.ring?]) head hs)
    simp only [stamped, List.getElem?_map, mess, Option.map_some] at same
    obtain ⟨m', hm', eq⟩ := Option.map_eq_some_iff.mp same.symm
    have here : (stamped r.syn.headFrame (slots (slotOf r.syn.headFrame)))[i]? = some (m.setFramenum r.syn.headFrame) := by
      simp only [stamped, List.getElem?_map, hm', Option.map_some, setFramenum_congr eq]
    exact FrameRoom.next (h slots hs) here
  | @frameEnd _ _ _ _ f slot i head none =>
    intro slots' hs'
    obtain ⟨slots, hs, rfl⟩ := Option.map_eq_some_iff.mp hs'
    have same := congrArg List.length (ring.headSlot (f := f) (i := some i) (by simp [Frame.ring?]) head hs)
    simp only [stamped, List.length_map] at same
    have le := same ▸ List.getElem?_eq_none_iff.mp none
    simp only [frames, hs, Option.getD_some]
    exact FrameRoom.done (h slots hs) le _ _
  | advance next =>
    intro slots hs
    rw [Syn.advance_eq next]
    exact FrameRoom.advance (h slots hs)
  | runEnd => exact fun slots hs => FrameRoom.calm (h slots hs) rfl rfl
  | _ => exact h

theorem RoomRun.frames (h : RoomRun p w r tr) : FramesRoom w r tr := by
  induction h with
  | init _ _ _ _ => exact .idle rfl
  | step run move ih => exact frames_step run move ih

end IslandSurvival
