import IslandSurvival.Theorems.Frames

/-! The announcement of a player that leaves a game. It goes through the ring like the messages of the players;
    once it is stored in a slot, the turn of that slot comes within one round of the ring and sends it once. -/

namespace IslandSurvival

/-! ### The trace of a room -/

/-- `SCPlayerExitGame` for a slot -/
def announces (pos : Nat) (mess : CMessage) : Bool := mess.proto == some (.scPlayerExitGame pos)

/-- How often the departure of a slot was handed to `SYN::Add` since the game started -/
def announcements (pos : Nat) : List Event → Nat
  | [] => 0
  | .roomInit _ :: _ => 0
  | .gameStart _ _ :: _ => 0
  | .synAdd _ mess _ :: older => if announces pos mess then announcements pos older + 1 else announcements pos older
  | _ :: older => announcements pos older

/-- The frames end one after the other. -/
def inOrder : List Event → Prop
  | [] => True
  | .frameEnd _ f :: older => f = headOf older ∧ inOrder older
  | _ :: older => inOrder older

theorem inOrder.tail {e : Event} {tr : List Event} (h : inOrder (e :: tr)) : inOrder tr := by
  cases e with
  | frameEnd _ _ => exact h.2
  | _ => exact h

/-- `SYN::Add` picks a slot of the ring. -/
def addsInRing : List Event → Prop
  | [] => True
  | .synAdd _ _ (some (i, _)) :: older => i < synBufferSize ∧ addsInRing older
  | _ :: older => addsInRing older

theorem addsInRing.older {newer older : List Event} (h : addsInRing (newer ++ older)) : addsInRing older := by
  induction newer with
  | nil => exact h
  | cons e newer ih =>
    cases e with
    | synAdd _ _ slot =>
      cases slot with
      | none => exact ih h
      | some _ => exact ih h.2
    | _ => exact ih h

/-- The slot that has left the game and whose departure was not handed to `SYN::Add` yet -/
def departing : List Event → Option Nat
  | [] => none
  | .leave _ pos .ingame :: _ => some pos
  | .synAdd _ _ _ :: _ => none
  | _ :: older => departing older

/-- A departure is handed to `SYN::Add` before anything else is, and before a frame ends. -/
def addsDepartures : List Event → Prop
  | [] => True
  | .synAdd _ mess _ :: older =>
    (∀ pos, departing older = some pos → ∃ frame, mess = Room.exitGameMessage pos frame) ∧ addsDepartures older
  | .frameEnd _ _ :: older => departing older = none ∧ addsDepartures older
  | .leave _ _ _ :: older => departing older = none ∧ addsDepartures older
  | _ :: older => addsDepartures older

theorem addsDepartures.tail {e : Event} {tr : List Event} (h : addsDepartures (e :: tr)) : addsDepartures tr := by
  cases e with
  | synAdd _ _ _ => exact h.2
  | frameEnd _ _ => exact h.2
  | leave _ _ _ => exact h.2
  | _ => exact h

/-- The room is set up, or `SYN::Init` runs. -/
def Event.restarts : Event → Bool
  | .roomInit _ => true
  | .gameStart _ _ => true
  | _ => false

/-- The frame in which the turn of slot `i` comes next -/
def turn (head : Int) (i : Nat) : Int := head + ((i : Int) - slotOf head) % 64

theorem turn_bounds (head : Int) (i : Nat) : head ≤ turn head i ∧ turn head i < head + 64 := by
  unfold turn
  omega

/-- The head frame is the turn of its own slot, and of no other. -/
theorem slotOf_eq_iff {head first : Int} {i : Nat} (lt : i < 64) (from_ : first ≤ head) (le : head ≤ turn first i) :
    slotOf head = i ↔ head = turn first i := by
  unfold turn slotOf at *
  omega

section
variable {pos : Nat} {mess : CMessage} {f : Int} {tr : List Event}

theorem countP_stamped (slot : List CMessage) : (stamped f slot).countP (announces pos) = slot.countP (announces pos) := by
  rw [stamped, List.countP_map]
  rfl

theorem countP_opening (empty : Bool) : (opening empty f).countP (announces pos) = 0 := by
  cases empty <;> rfl

end

/-! ### Where the announcement is -/

/-- During a game, no announcement is in the ring or has been sent. -/
def Silent (pos : Nat) (tr : List Event) : Prop :=
  ∀ slots, held tr = some slots →
    (∀ j, (slots j).countP (announces pos) = 0) ∧ (frames tr).countP (announces pos) = 0

/-- The announcement that was stored in slot `i` when the head frame was `first` is there until its turn, and
    has been sent from then on. -/
structure Stored (pos : Nat) (first : Int) (i : Nat) (tr : List Event) : Prop where
  first_le : first ≤ headOf tr
  slots : ∀ slots, held tr = some slots →
    ∀ j, (slots j).countP (announces pos) = if j = i ∧ headOf tr ≤ turn first i then 1 else 0
  frames : (held tr).isSome → (frames tr).countP (announces pos) = if headOf tr ≤ turn first i then 0 else 1

section
variable {pos i : Nat} {first : Int} {tr newer older : List Event} {e : Event} {slots : Nat → List CMessage}

theorem announcements_tail (same : e.restarts = false) : announcements pos tr ≤ announcements pos (e :: tr) := by
  cases e with
  | roomInit _ => cases same
  | gameStart _ _ => cases same
  | synAdd _ _ _ =>
    simp only [announcements]
    split <;> omega
  | _ => exact Nat.le_refl _

theorem announcements_append (same : ∀ e ∈ newer, e.restarts = false) :
    announcements pos older ≤ announcements pos (newer ++ older) := by
  induction newer with
  | nil => exact Nat.le_refl _
  | cons e newer ih =>
    have rest := ih fun e he => same e (List.mem_cons_of_mem _ he)
    exact Nat.le_trans rest (announcements_tail (same e List.mem_cons_self))

theorem countP_put (slots : Nat → List CMessage) (i j : Nat) (mess : CMessage) :
    (Function.update slots i (slots i ++ [mess]) j).countP (announces pos) =
      (slots j).countP (announces pos) + if j = i ∧ announces pos mess = true then 1 else 0 := by
  by_cases hj : j = i
  · subst hj
    simp [List.countP_append, List.countP_cons]
  · simp [hj]

theorem countP_clear (slots : Nat → List CMessage) (i j : Nat) :
    (Function.update slots i [] j).countP (announces pos) = if j = i then 0 else (slots j).countP (announces pos) := by
  by_cases hj : j = i
  · simp [hj]
  · simp [hj]

theorem countP_frameEnd {p : RoomPtr} {f : Int} (hs : held tr = some slots) :
    (frames (.frameEnd p f :: tr)).countP (announces pos) =
      (frames tr).countP (announces pos) + (slots (slotOf f)).countP (announces pos) := by
  simp only [frames, hs, Option.getD_some, List.countP_append, countP_opening, countP_stamped, Nat.zero_add]

/-- Without a new announcement there is none. -/
theorem Silent.step (h : Silent pos tr) (no : announcements pos (e :: tr) ≤ announcements pos tr) :
    Silent pos (e :: tr) := by
  intro slots' hs'
  cases e with
  | roomInit _ => cases hs'
  | gameStart _ _ =>
    obtain rfl := Option.some.inj hs'
    exact ⟨fun _ => rfl, rfl⟩
  | synAdd _ mess slot =>
    have other : announces pos mess = false := by
      by_contra yes
      simp only [announcements, if_pos (Bool.not_eq_false _ ▸ yes)] at no
      omega
    cases slot with
    | none => exact h slots' hs'
    | some target =>
      simp only [held] at hs'
      split at hs'
      · obtain ⟨slots, hs, rfl⟩ := Option.map_eq_some_iff.mp hs'
        refine ⟨fun j => ?_, (h slots hs).2⟩
        rw [countP_put, (h slots hs).1 j]
        simp [other]
      · exact h slots' hs'
  | frameEnd _ f =>
    obtain ⟨slots, hs, rfl⟩ := Option.map_eq_some_iff.mp hs'
    refine ⟨fun j => ?_, ?_⟩
    · rw [countP_clear, (h slots hs).1 j, ite_self]
    · rw [countP_frameEnd hs, (h slots hs).1, (h slots hs).2]
  | _ => exact h slots' hs'

/-- What was never handed to `SYN::Add` is nowhere. -/
theorem silent_of_none (h : announcements pos tr = 0) : Silent pos tr := by
  induction tr with
  | nil =>
    intro _ hs
    cases hs
  | cons e older ih =>
    by_cases same : e.restarts = false
    · have none : announcements pos older = 0 := Nat.le_zero.mp (h ▸ announcements_tail same)
      exact (ih none).step (by omega)
    · intro slots hs
      cases e with
      | roomInit _ => cases hs
      | gameStart _ _ =>
        obtain rfl := Option.some.inj hs
        exact ⟨fun _ => rfl, rfl⟩
      | _ => exact absurd rfl same

/-- The announcement is stored. -/
theorem Silent.store {p : RoomPtr} {mess : CMessage} {num : Nat} (h : Silent pos tr) (room : num < oneFrameBufferSize)
    (yes : announces pos mess = true) :
    Stored pos (headOf tr) i (.synAdd p mess (some (i, num)) :: tr) where
  first_le := Int.le_refl _
  slots slots' hs' j := by
    simp only [held, if_pos room] at hs'
    obtain ⟨slots, hs, rfl⟩ := Option.map_eq_some_iff.mp hs'
    rw [countP_put, (h slots hs).1 j, Nat.zero_add]
    simp only [headOf, yes, (turn_bounds (headOf tr) i).1]
  frames playing := by
    simp only [held, if_pos room, Option.isSome_map] at playing
    obtain ⟨slots, hs⟩ := Option.isSome_iff_exists.mp playing
    simp only [headOf, IslandSurvival.frames, (h slots hs).2, (turn_bounds (headOf tr) i).1, if_true]

/-- It waits for its turn, and is sent then. -/
theorem Stored.step (h : Stored pos first i tr) (lt : i < 64) (same : e.restarts = false) (order : inOrder (e :: tr))
    (no : announcements pos (e :: tr) ≤ announcements pos tr) : Stored pos first i (e :: tr) := by
  cases e with
  | roomInit _ => cases same
  | gameStart _ _ => cases same
  | synAdd _ mess slot =>
    have other : announces pos mess = false := by
      by_contra yes
      simp only [announcements, if_pos (Bool.not_eq_false _ ▸ yes)] at no
      omega
    cases slot with
    | none => exact ⟨h.first_le, h.slots, h.frames⟩
    | some target =>
      by_cases room : target.2 < oneFrameBufferSize
      · refine ⟨h.first_le, fun slots' hs' j => ?_, fun playing => ?_⟩
        · simp only [held, if_pos room] at hs'
          obtain ⟨slots, hs, rfl⟩ := Option.map_eq_some_iff.mp hs'
          have old : ¬(j = target.1 ∧ announces pos mess = true) := by simp [other]
          rw [countP_put, h.slots slots hs j, if_neg old]
          rfl
        · simp only [held, if_pos room, Option.isSome_map] at playing
          exact h.frames playing
      · refine ⟨h.first_le, fun slots hs => ?_, fun playing => ?_⟩
        · simp only [held, if_neg room] at hs
          exact h.slots slots hs
        · simp only [held, if_neg room] at playing
          exact h.frames playing
  | frameEnd p f =>
    obtain ⟨rfl, -⟩ := order
    have past := h.first_le
    have here := slotOf_eq_iff lt h.first_le
    have next : headOf (.frameEnd p (headOf tr) :: tr) = headOf tr + 1 := rfl
    refine ⟨by omega, fun slots' hs' j => ?_, fun playing => ?_⟩
    · obtain ⟨slots, hs, rfl⟩ := Option.map_eq_some_iff.mp hs'
      rw [countP_clear, h.slots slots hs j, next]
      split <;> split <;> first | omega | split <;> omega
    · obtain ⟨slots, hs⟩ := Option.isSome_iff_exists.mp ((Option.isSome_map ..).symm.trans playing)
      rw [countP_frameEnd hs, h.frames (by simp [hs]), h.slots slots hs, next]
      split <;> split <;> split <;> omega
  | _ => exact ⟨h.first_le, h.slots, h.frames⟩

/-- What holds when the departure is handed to `SYN::Add` holds as long as there is no other one. -/
theorem Silent.append (h : Silent pos older) (once : announcements pos (newer ++ older) ≤ announcements pos older)
    (same : ∀ e ∈ newer, e.restarts = false) : Silent pos (newer ++ older) := by
  induction newer with
  | nil => exact h
  | cons e newer ih =>
    have rest : ∀ e ∈ newer, e.restarts = false := fun e he => same e (List.mem_cons_of_mem _ he)
    have before : announcements pos (newer ++ older) ≤ announcements pos (e :: (newer ++ older)) :=
      announcements_tail (same e List.mem_cons_self)
    have after : announcements pos older ≤ announcements pos (newer ++ older) := announcements_append rest
    exact (ih (Nat.le_trans before once) rest).step (Nat.le_trans once after)

theorem Stored.append (h : Stored pos first i older) (lt : i < 64) (order : inOrder (newer ++ older))
    (once : announcements pos (newer ++ older) ≤ announcements pos older)
    (same : ∀ e ∈ newer, e.restarts = false) : Stored pos first i (newer ++ older) := by
  induction newer with
  | nil => exact h
  | cons e newer ih =>
    have rest : ∀ e ∈ newer, e.restarts = false := fun e he => same e (List.mem_cons_of_mem _ he)
    have before : announcements pos (newer ++ older) ≤ announcements pos (e :: (newer ++ older)) :=
      announcements_tail (same e List.mem_cons_self)
    have after : announcements pos older ≤ announcements pos (newer ++ older) := announcements_append rest
    exact (ih order.tail (Nat.le_trans before once) rest).step lt (same e List.mem_cons_self) order
      (Nat.le_trans once after)

end

/-! ### A room -/

section
variable {p : RoomPtr} {w w' : List Frame} {r r' : Room} {tr tr' : List Event} {pos : Nat}

theorem inOrder_step (run : RoomRun p w r tr) (move : RoomStep p w r tr w' r' tr') (h : inOrder tr) : inOrder tr' := by
  cases move with
  | @frameEnd _ _ _ _ f _ i _ _ =>
    refine ⟨?_, h⟩
    have status := run.ring.running (by simp [Frame.ring?])
    obtain ⟨slots, hs⟩ := Option.isSome_iff_exists.mp (run.ring.playing.mpr status)
    cases run.frames slots hs with
    | between calm _ _ => cases calm
    | turn frame next _ _ => exact next.symm
  | _ => exact h

theorem RoomRun.inOrder (h : RoomRun p w r tr) : inOrder tr := by
  induction h with
  | init _ _ _ _ => trivial
  | step run move ih => exact inOrder_step run move ih

theorem Syn.add_slot {syn syn' : Syn} {now : Int} {mess : CMessage} {i num : Nat}
    (h : syn.add now mess = .ok (syn', some (i, num))) : i < synBufferSize := by
  unfold Syn.add at h
  obtain ⟨target, target_eq, h⟩ := Syn.bind_eq_ok.mp h
  cases target with
  | none => cases h
  | some j =>
    obtain ⟨rfl, -⟩ := Prod.mk.inj (Option.some.inj (Prod.mk.inj (Except.ok.inj h)).2)
    unfold Syn.slotFor at target_eq
    obtain ⟨_, -, target_eq⟩ := Syn.bind_eq_ok.mp target_eq
    split at target_eq
    · cases target_eq
    · obtain ⟨_, -, target_eq⟩ := Syn.bind_eq_ok.mp target_eq
      split at target_eq
      · obtain ⟨_, -, target_eq⟩ := Syn.bind_eq_ok.mp target_eq
        obtain ⟨_, -, target_eq⟩ := Syn.bind_eq_ok.mp target_eq
        obtain ⟨_, slot, target_eq⟩ := Syn.bind_eq_ok.mp target_eq
        cases target_eq
        have := Syn.slot_eq_ok.mp slot
        unfold synBufferSize
        omega
      · obtain ⟨_, -, target_eq⟩ := Syn.bind_eq_ok.mp target_eq
        split at target_eq
        · obtain ⟨_, slot, target_eq⟩ := Syn.bind_eq_ok.mp target_eq
          cases target_eq
          have := Syn.slot_eq_ok.mp slot
          unfold synBufferSize
          omega
        · cases target_eq

theorem addsInRing_step (move : RoomStep p w r tr w' r' tr') (h : addsInRing tr) : addsInRing tr' := by
  cases move with
  | @quit _ _ _ _ _ _ slot add =>
    cases slot with
    | none => exact h
    | some target => exact ⟨Syn.add_slot add, h⟩
  | @relay _ _ _ _ _ _ slot _ add =>
    cases slot with
    | none => exact h
    | some target => exact ⟨Syn.add_slot add, h⟩
  | _ => exact h

theorem RoomRun.addsInRing (h : RoomRun p w r tr) : addsInRing tr := by
  induction h with
  | init _ _ _ _ => trivial
  | step _ move ih => exact addsInRing_step move ih

/-- The slot whose player has just left the game -/
def Frame.quit? : Frame → Option Nat
  | .quitting _ pos => some pos
  | _ => none

/-- A slot of a game leaves once, and only during a game. -/
structure ExitsRoom (pos : Nat) (quits : List Nat) (status : RoomStatus) (online : Nat → Bool) (announced : Nat) : Prop where
  ingame : quits ≠ [] ∨ announced ≠ 0 → status = .ingame
  once : (online pos).toNat + quits.count pos + announced ≤ 1

namespace ExitsRoom

variable {quits : List Nat} {status : RoomStatus} {online online' : Nat → Bool} {announced i : Nat}

/-- Before the game -/
theorem idle (status : RoomStatus) (online : Nat → Bool) : ExitsRoom pos [] status online 0 where
  ingame := by simp
  once := Bool.toNat_le _

/-- Outside of a game nothing was announced. -/
theorem none (h : ExitsRoom pos quits status online announced) (out : status ≠ .ingame) : announced = 0 := by
  by_contra some
  exact out (h.ingame (.inr some))

/-- A slot goes offline. -/
theorem offline (h : ExitsRoom pos quits status online announced) (i : Nat) :
    ExitsRoom pos quits status (Function.update online i false) announced where
  ingame := h.ingame
  once := by
    by_cases hi : pos = i
    · simp only [hi, Function.update_self, Bool.toNat_false]
      have := h.once
      rw [hi] at this
      omega
    · rw [Function.update_of_ne hi]
      exact h.once

/-- A player leaves the game. -/
theorem quit (h : ExitsRoom pos quits .ingame online announced) (here : online i = true) :
    ExitsRoom pos (i :: quits) .ingame (Function.update online i false) announced where
  ingame _ := rfl
  once := by
    by_cases hi : pos = i
    · subst hi
      have := h.once
      rw [here, Bool.toNat_true] at this
      rw [Function.update_self, List.count_cons_self, Bool.toNat_false]
      omega
    · rw [Function.update_of_ne hi, List.count_cons_of_ne (Ne.symm hi)]
      exact h.once

/-- Its departure is handed to `SYN::Add`. -/
theorem announce (h : ExitsRoom pos (i :: quits) status online announced) :
    ExitsRoom pos quits status online (if i = pos then announced + 1 else announced) where
  ingame _ := h.ingame (.inl (List.cons_ne_nil _ _))
  once := by
    have := h.once
    split
    · rename_i hi
      rw [hi, List.count_cons_self] at this
      omega
    · rename_i hi
      rwa [List.count_cons_of_ne hi] at this

/-- The game starts. -/
theorem start (h : ExitsRoom pos quits status online announced) : ExitsRoom pos quits .ingame online 0 where
  ingame _ := rfl
  once := Nat.le_trans (Nat.le_add_right _ _) h.once

end ExitsRoom

theorem announces_exit (pos pos' : Nat) (frame : Int32) :
    announces pos (Room.exitGameMessage pos' frame) = decide (pos' = pos) := by
  simp only [announces, Room.exitGameMessage, CMessage.build, beq_eq_decide, Option.some.injEq,
    Proto.scPlayerExitGame.injEq, Int.natCast_inj]

theorem Gameplay.not_announces {playerId : Nat} {mess : CMessage} (h : Gameplay playerId mess) (pos : Nat) :
    announces pos mess = false := by
  cases h <;> rfl

theorem exits_step (run : RoomRun p w r tr) (move : RoomStep p w r tr w' r' tr')
    (h : ExitsRoom pos (w.filterMap Frame.quit?) r.status r.isOnline (announcements pos tr)) :
    ExitsRoom pos (w'.filterMap Frame.quit?) r'.status r'.isOnline (announcements pos tr') := by
  have ring := run.ring
  cases move with
  | init _ _ _ _ => exact .idle _ _
  | join _ status _ =>
    rw [h.none (by simp [status])]
    exact .idle _ _
  | change u teamId gameOption _ =>
    obtain ⟨_, _, hr⟩ := MP.applyChange_eq u teamId gameOption r
    rw [hr]
    exact h
  | gameEnd _ _ => exact h.offline _
  | leave _ pos' =>
    unfold Room.departing Room.vacate
    cases status : r.status with
    | waiting =>
      rw [status] at h
      simp only [if_true, Room.removeSlot, status]
      exact h.offline _
    | loading =>
      rw [status] at h
      simp only [reduceCtorEq, if_false, Room.setOffline, status]
      exact h.offline _
    | ingame =>
      rw [status] at h
      simp only [reduceCtorEq, if_false, Room.setOffline, status]
      exact h.quit (Room.getPlayerId_spec pos').2.1
  | @quit _ _ _ pos' _ _ _ _ =>
    have announced := ExitsRoom.announce h
    simp only [announcements, announces_exit, decide_eq_true_eq]
    exact announced
  | everyone cast => cases cast <;> exact h
  | load _ =>
    have none : announcements pos tr = 0 := h.none (by simp [ring.up (by simp [Frame.ring?])])
    simp only [announcements, none]
    exact .idle _ _
  | start _ _ => exact h.start
  | relay gameplay _ =>
    rw [announcements, gameplay.not_announces, if_neg (by simp)]
    exact h
  | _ => exact h

theorem RoomRun.exits (h : RoomRun p w r tr) (pos : Nat) :
    ExitsRoom pos (w.filterMap Frame.quit?) r.status r.isOnline (announcements pos tr) := by
  induction h with
  | init _ _ _ _ => exact .idle _ _
  | step run move ih => exact exits_step run move ih

theorem waits_quit (waits : ∀ f ∈ w, ∃ role, Waits role f) : w.filterMap Frame.quit? = [] := by
  refine List.filterMap_eq_nil_iff.mpr fun f hf => ?_
  obtain ⟨role, waits⟩ := waits f hf
  cases waits <;> rfl

/-- The departure that is pending is that of the innermost activation. -/
theorem departing_step (run : RoomRun p w r tr) (move : RoomStep p w r tr w' r' tr')
    (h : w.filterMap Frame.quit? = (departing tr).toList) : w'.filterMap Frame.quit? = (departing tr').toList := by
  cases move with
  | leave waits _ =>
    unfold Room.departing
    cases r.status with
    | waiting => exact h
    | loading => exact h
    | ingame => exact congrArg _ (waits_quit waits)
  | quit _ => exact waits_quit run.waits
  | everyone cast => cases cast <;> exact h
  | relay _ _ => rfl
  | _ => exact h

theorem RoomRun.departing (h : RoomRun p w r tr) : w.filterMap Frame.quit? = (departing tr).toList := by
  induction h with
  | init _ _ _ _ => rfl
  | step run move ih => exact departing_step run move ih

theorem addsDepartures_step (run : RoomRun p w r tr) (move : RoomStep p w r tr w' r' tr') (h : addsDepartures tr) :
    addsDepartures tr' := by
  have pending := run.departing
  have other : w.filterMap Frame.quit? = [] → IslandSurvival.departing tr = none := fun none =>
    Option.toList_eq_nil_iff.mp (pending.symm.trans none)
  cases move with
  | @quit _ _ _ pos' _ _ _ _ =>
    refine ⟨fun pos here => ?_, h⟩
    rw [here] at pending
    obtain rfl : pos' = pos := (List.cons.inj pending).1
    exact ⟨_, rfl⟩
  | relay _ _ =>
    refine ⟨fun pos here => ?_, h⟩
    rw [other rfl] at here
    cases here
  | frameEnd _ _ => exact ⟨other rfl, h⟩
  | leave waits _ => exact ⟨other (waits_quit waits), h⟩
  | _ => exact h

theorem RoomRun.addsDepartures (h : RoomRun p w r tr) : addsDepartures tr := by
  induction h with
  | init _ _ _ _ => trivial
  | step run move ih => exact addsDepartures_step run move ih

/-- After a departure, either `SYN::Add` gets it next, or the ring has not moved. -/
theorem departing_append {newer older : List Event} (h : addsDepartures (newer ++ .leave p pos .ingame :: older))
    (same : ∀ e ∈ newer, e.restarts = false) :
    (IslandSurvival.departing (newer ++ .leave p pos .ingame :: older) = some pos ∧
      headOf (newer ++ .leave p pos .ingame :: older) = headOf older) ∨
    ∃ rest q frame slot before, newer = rest ++ .synAdd q (Room.exitGameMessage pos frame) slot :: before ∧
      headOf (before ++ .leave p pos .ingame :: older) = headOf older := by
  induction newer with
  | nil => exact .inl ⟨rfl, rfl⟩
  | cons e newer ih =>
    rcases ih h.tail fun e he => same e (List.mem_cons_of_mem _ he) with
      ⟨pending, head⟩ | ⟨rest, q, frame, slot, before, rfl, head⟩
    · cases e with
      | roomInit _ => cases same _ List.mem_cons_self
      | gameStart _ _ => cases same _ List.mem_cons_self
      | synAdd q mess slot =>
        obtain ⟨frame, rfl⟩ := h.1 pos pending
        exact .inr ⟨[], q, frame, slot, newer, rfl, head⟩
      | frameEnd _ _ => cases h.1.symm.trans pending
      | leave _ _ _ => cases h.1.symm.trans pending
      | _ => exact .inl ⟨pending, head⟩
    · exact .inr ⟨e :: rest, q, frame, slot, before, rfl, head⟩

/-- Where no slot holds an announcement, all of them were sent in frames that ended. -/
theorem FrameRoom.countP {slots : Nat → List CMessage} {headFrame head : Int} {empty : Bool} {sent frames : List CMessage}
    {work : List RingWork} (h : FrameRoom slots headFrame head empty sent frames work)
    (none : ∀ i, (slots i).countP (announces pos) = 0) :
    sent.countP (announces pos) = frames.countP (announces pos) := by
  cases h with
  | between _ _ all => rw [all]
  | begun _ _ _ all => rw [all]
  | @turn f i _ _ _ all =>
    have part := List.Sublist.countP_le (p := announces pos) (List.take_sublist i (slots (slotOf f)))
    rw [none] at part
    rw [all, List.countP_append, List.countP_append, countP_opening, countP_stamped, Nat.le_zero.mp part, Nat.add_zero]
  | ended _ all => rw [all]

/-- A departure that is stored is sent once by the turn of its slot; one that is dropped is never sent. -/
theorem RoomRun.announced (h : RoomRun p w r tr) {newer older : List Event} {q : RoomPtr} {frame : Int32}
    {slot : Option (Nat × Nat)} (trace : newer ++ .synAdd q (Room.exitGameMessage pos frame) slot :: older = tr)
    (same : ∀ e ∈ newer, e.restarts = false) (reach : ∀ i num, slot = some (i, num) → turn (headOf older) i < headOf tr) :
    (sent tr).countP (announces pos) = 1 ↔ ∃ i num, slot = some (i, num) ∧ num < oneFrameBufferSize := by
  have exits := h.exits pos
  have here : announces pos (Room.exitGameMessage pos frame) = true := by simp [announces_exit]
  have first : announcements pos (.synAdd q (Room.exitGameMessage pos frame) slot :: older) = announcements pos older + 1 := by
    simp only [announcements, if_pos here]
  have more : announcements pos (.synAdd q (Room.exitGameMessage pos frame) slot :: older) ≤
      announcements pos (newer ++ .synAdd q (Room.exitGameMessage pos frame) slot :: older) := announcements_append same
  rw [first, trace] at more
  have once := exits.once
  have none : announcements pos older = 0 := by omega
  have only : announcements pos tr ≤ announcements pos older + 1 := by omega
  rw [← first, ← trace] at only
  have status := exits.ingame (.inr (by omega))
  obtain ⟨slots, hs⟩ := Option.isSome_iff_exists.mp (h.ring.playing.mpr status)
  have all := h.frames slots hs
  have before := silent_of_none none
  by_cases stored : ∃ i num, slot = some (i, num) ∧ num < oneFrameBufferSize
  · obtain ⟨i, num, rfl, room⟩ := stored
    have lt := (trace ▸ h.addsInRing).older.1
    have after := (before.store (i := i) (p := q) room here).append lt (trace ▸ h.inOrder) only same
    rw [trace] at after
    have past : ¬headOf tr ≤ turn (headOf older) i := Int.not_le.mpr (reach i num rfl)
    have gone : ∀ j, (slots j).countP (announces pos) = 0 := fun j => by
      rw [after.slots slots hs j, if_neg fun hj => past hj.2]
    rw [all.countP gone, after.frames (by simp [hs]), if_neg past]
    exact ⟨fun _ => ⟨i, num, rfl, room⟩, fun _ => rfl⟩
  · have dropped : Silent pos (.synAdd q (Room.exitGameMessage pos frame) slot :: older) := by
      intro slots hs
      cases slot with
      | none => exact before slots hs
      | some target =>
        simp only [held, if_neg fun room => stored ⟨_, _, rfl, room⟩] at hs
        exact before slots hs
    have after := trace ▸ dropped.append only same
    rw [all.countP (after slots hs).1, (after slots hs).2]
    exact ⟨fun zero => absurd zero (by decide), fun found => absurd found stored⟩

end

/-! ### What the announcement is for -/

/-- Between two frames, the frame that is next is `m_head_frame`. -/
theorem RoomRun.headOf_eq {p : RoomPtr} {r : Room} {tr : List Event} (h : RoomRun p [] r tr) (status : r.status = .ingame) :
    headOf tr = r.syn.headFrame := by
  obtain ⟨slots, hs⟩ := Option.isSome_iff_exists.mp (h.ring.playing.mpr status)
  cases h.frames slots hs with
  | between _ next _ => exact next

/-- When a player leaves a game, its departure is handed to `SYN::Add` before the ring moves on. Unless the room
    starts again, exactly one announcement has been broadcast 64 frames later if and only if `SYN::Add` finds
    a slot with a free cell whose turn comes by then. -/
theorem departures_announced {env : Env} {s : Server} (h : Visited env s) {p : RoomPtr} {pos : Nat}
    {newer older : List Event} (moment : newer ++ .leave p pos .ingame :: older <:+ roomTrace p s.trace)
    (same : ∀ e ∈ newer, e.restarts = false) (moves : headOf older < headOf (newer ++ .leave p pos .ingame :: older)) :
    ∃ rest q frame slot before, newer = rest ++ .synAdd q (Room.exitGameMessage pos frame) slot :: before ∧
      headOf (before ++ .leave p pos .ingame :: older) = headOf older ∧
      ((∀ i num, slot = some (i, num) → turn (headOf older) i < frame.toInt + 64) →
        frame.toInt + 64 ≤ headOf (newer ++ .leave p pos .ingame :: older) →
        ((sent (newer ++ .leave p pos .ingame :: older)).countP (announces pos) = 1 ↔
          ∃ i num, slot = some (i, num) ∧ num < oneFrameBufferSize)) := by
  obtain ⟨k, config⟩ := h.config
  have alloc : p < s.roomCnt := by
    by_contra lt
    rw [((config.roomRuns p).2 (Nat.le_of_not_lt lt)).2] at moment
    simp at moment
  obtain none | ⟨w, r, run⟩ := (config.roomRun alloc).suffix moment
  · simp at none
  · rcases departing_append run.addsDepartures same with
      ⟨-, head⟩ | ⟨rest, q, frame, slot, before, rfl, head⟩
    · exact absurd moves (by simp [head])
    · refine ⟨rest, q, frame, slot, before, rfl, head, fun reach passed => ?_⟩
      have trace : rest ++ .synAdd q (Room.exitGameMessage pos frame) slot :: (before ++ .leave p pos .ingame :: older) =
          rest ++ .synAdd q (Room.exitGameMessage pos frame) slot :: before ++ .leave p pos .ingame :: older := by simp
      refine run.announced trace (fun e he => same e (List.mem_append_left _ he)) ?_
      rw [head]
      exact fun i num target => Int.lt_of_lt_of_le (reach i num target) passed

/-- Player 1 starts a game alone, sends requests and hangs up; at a later call of the kernel the clock has
    moved on by 70 frames. -/
def Script.hangup (requests : Bytes) (jump : Nat) : Env :=
  { oneClient (request 0 ++ request 9 ++ request 0x10 ++ request 0x12 ++ requests) with
    epollWait := fun n => if n = 1 then [readable 3] else if n = 6 then [readable 4] else [hungUp 4]
    clock := fun n => if n < jump then 0 else 1400000 }

/-- The departure of player 1 is the last of a trace, `SYN::Add` got it with a slot, and the ring has moved on. -/
def Script.departed (slot : Option (Nat × Nat)) (tr : List Event) : Bool :=
  let newer := tr.takeWhile (· != .leave 0 1 .ingame)
  (tr.dropWhile (· != .leave 0 1 .ingame)).head? == some (.leave 0 1 .ingame) &&
    newer.all (fun e => !e.restarts) &&
    newer.all (fun e => match e with
      | .synAdd _ mess target => mess == Room.exitGameMessage 1 1 && target == slot
      | _ => true) &&
    newer.contains (.synAdd 0 (Room.exitGameMessage 1 1) slot) &&
    decide (headOf (tr.dropWhile (· != .leave 0 1 .ingame)) = 1) && decide (65 ≤ headOf tr)

theorem Script.departed_spec {slot : Option (Nat × Nat)} {tr : List Event} (h : departed slot tr = true) :
    ∃ newer older, newer ++ .leave 0 1 .ingame :: older = tr ∧ (∀ e ∈ newer, e.restarts = false) ∧
      (∀ q mess target, .synAdd q mess target ∈ newer → mess = Room.exitGameMessage 1 1 ∧ target = slot) ∧
      .synAdd 0 (Room.exitGameMessage 1 1) slot ∈ newer ∧ headOf older = 1 ∧ 65 ≤ headOf tr := by
  simp only [departed, Bool.and_eq_true, beq_iff_eq, decide_eq_true_eq, List.all_eq_true, List.contains_iff_mem] at h
  obtain ⟨⟨⟨⟨⟨found, same⟩, adds⟩, added⟩, before⟩, passed⟩ := h
  obtain ⟨older, drop⟩ := List.head?_eq_some_iff.mp found
  refine ⟨_, older, ?_, fun e he => by simpa using same e he, fun q mess target hm => ?_, added, by rwa [drop] at before, passed⟩
  · rw [← drop]
    exact List.takeWhile_append_dropWhile
  · simpa using adds _ hm

/-- The departure of a player that sent nothing is announced once. -/
theorem departures_announced_alone : ∃ s newer older, Visited (Script.hangup [] 25) s ∧
    newer ++ .leave 0 1 .ingame :: older <:+ roomTrace 0 s.trace ∧
      (sent (newer ++ .leave 0 1 .ingame :: older)).countP (announces 1) = 1 := by
  obtain ⟨s, reachable, test⟩ := exists_of_ends 4 (fun s => Script.departed (some (0, 0)) (roomTrace 0 s.trace))
    (Script.reachable (Script.hangup [] 25)) (by decide +kernel)
  obtain ⟨newer, older, trace, same, adds, -, before, passed⟩ := Script.departed_spec test
  rw [← trace] at passed
  have moment : newer ++ .leave 0 1 .ingame :: older <:+ roomTrace 0 s.trace := trace ▸ List.suffix_rfl
  refine ⟨s, newer, older, .reach reachable, moment, ?_⟩
  obtain ⟨rest, q, frame, slot, between, split, -, once⟩ :=
    departures_announced (.reach reachable) moment same (by omega)
  obtain ⟨mess, rfl⟩ := adds q (Room.exitGameMessage 1 frame) slot (by simp [split])
  obtain rfl : frame = 1 := congrArg (fun m : CMessage => m.head.framenum) mess
  refine (once (fun i num target => ?_) passed).mpr ⟨0, 0, rfl, by decide⟩
  cases target
  rw [before]
  decide

/-- 32 requests fill the slot of the frame in which player 1 leaves, and its departure is never announced. -/
theorem full_slot_drops_departure : ∃ s newer older,
    Visited (Script.hangup (List.replicate 32 (Script.request 0x15)).flatten 89) s ∧
      newer ++ .leave 0 1 .ingame :: older <:+ roomTrace 0 s.trace ∧ (∀ e ∈ newer, e.restarts = false) ∧
      .synAdd 0 (Room.exitGameMessage 1 1) (some (0, 32)) ∈ newer ∧
      1 + 64 ≤ headOf (newer ++ .leave 0 1 .ingame :: older) ∧
      (sent (newer ++ .leave 0 1 .ingame :: older)).countP (announces 1) = 0 := by
  obtain ⟨s, reachable, test⟩ := exists_of_ends 4
    (fun s => Script.departed (some (0, 32)) (roomTrace 0 s.trace) &&
      decide ((sent (roomTrace 0 s.trace)).countP (announces 1) = 0))
    (Script.reachable (Script.hangup (List.replicate 32 (Script.request 0x15)).flatten 89)) (by decide +kernel)
  simp only [Bool.and_eq_true, decide_eq_true_eq] at test
  obtain ⟨newer, older, trace, same, -, added, -, passed⟩ := Script.departed_spec test.1
  exact ⟨s, newer, older, .reach reachable, trace ▸ List.suffix_rfl, same, added, trace.symm ▸ passed, trace.symm ▸ test.2⟩

end IslandSurvival
