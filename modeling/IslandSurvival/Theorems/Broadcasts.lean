import IslandSurvival.Theorems.Departures

/-! Who gets a broadcast. The loop of `SendMessageToEveryone` counts slots, and a failed write in it deletes a player.
    In a room that waits the players behind then move down, and one that moves past the turn of the loop gets
    nothing. Nor does one whose send buffer is full. -/

namespace IslandSurvival

open Prog

/-! ### Players that move -/

/-- The slot of the player that was in slot `o` before the players in the slots of the list left, the last one first,
    if it has not left itself. In a room that waits, the players behind move down. -/
def Room.follow (waits : Bool) : List Nat → Nat → Option Nat
  | [], o => some o
  | pos :: l, o => (follow waits l o).bind fun i =>
      if i = pos then none else some (if waits && decide (pos < i) then i - 1 else i)

namespace Room

variable {waits : Bool} {l l' : List Nat} {o i i' : Nat} {r r' : Room}

theorem follow_append : follow waits (l' ++ l) o = (follow waits l o).bind (follow waits l') := by
  induction l' with
  | nil => simp [follow]
  | cons pos l' ih => simp only [List.cons_append, follow, ih, Option.bind_assoc]

theorem follow_cons (h : follow waits (i :: l) o = some i') : ∃ j, follow waits l o = some j ∧ j ≠ i ∧
    i' = if waits && decide (i < j) then j - 1 else j := by
  simp only [follow, Option.bind_eq_some_iff] at h
  obtain ⟨j, before, h⟩ := h
  split at h
  · cases h
  · exact ⟨j, before, ‹_›, (Option.some.inj h).symm⟩

/-- Nobody moves up. -/
theorem follow_le : ∀ {l : List Nat} {i : Nat}, follow waits l o = some i → i ≤ o
  | [], _, h => Nat.le_of_eq (Option.some.inj h).symm
  | _ :: _, _, h => by
    obtain ⟨j, before, -, rfl⟩ := follow_cons h
    have le := follow_le before
    split
    · omega
    · exact le

theorem follow_apart : ∀ {l : List Nat} {i : Nat}, follow false l o = some i → i = o
  | [], _, h => (Option.some.inj h).symm
  | _ :: _, _, h => by
    obtain ⟨j, before, -, rfl⟩ := follow_cons h
    exact follow_apart before

/-- One slot becomes free, and the players behind it move down. -/
theorem filterMap_shift {pos : Nat} (first : 1 ≤ pos) (n : Nat) : (List.range' 1 n).filterMap (fun i =>
      if i = pos then none else some (if pos < i then i - 1 else i)) = List.range' 1 (if pos ≤ n then n - 1 else n) := by
  induction n with
  | zero => simp [Nat.not_le.mpr first]
  | succ n ih =>
    rw [List.range'_1_concat, List.filterMap_append, ih]
    rcases Nat.lt_trichotomy pos (1 + n) with lt | rfl | gt
    · have moved : 1 + n - 1 = 1 + (n - 1) := by omega
      have last : n + 1 - 1 = n - 1 + 1 := by omega
      simp only [List.filterMap_cons, List.filterMap_nil, Nat.ne_of_gt lt, lt, if_true, if_false]
      rw [if_pos (by omega), if_pos (by omega), moved, last, List.range'_1_concat]
    · simp only [List.filterMap_cons, List.filterMap_nil, if_true, List.append_nil]
      rw [if_neg (by omega), if_pos (by omega), Nat.add_sub_cancel]
    · simp only [List.filterMap_cons, List.filterMap_nil, Nat.ne_of_lt gt, if_false, Nat.not_lt.mpr (Nat.le_of_lt gt)]
      rw [if_neg (by omega), if_neg (by omega), List.range'_1_concat]

/-- In a room that waits, those of the players in front that have not left fill the slots in front, in their order. -/
theorem follow_front (first : ∀ pos ∈ l, 1 ≤ pos) (slot : 1 ≤ o) (stays : follow true l o = some i) :
    (List.range' 1 (o - 1)).filterMap (follow true l) = List.range' 1 (i - 1) ∧ 1 ≤ i := by
  induction l generalizing i with
  | nil =>
    obtain rfl := Option.some.inj stays
    exact ⟨List.filterMap_some, slot⟩
  | cons pos l ih =>
    obtain ⟨pos_first, first⟩ := List.forall_mem_cons.mp first
    obtain ⟨j, before, other, rfl⟩ := follow_cons stays
    obtain ⟨front, j_first⟩ := ih first before
    have split : follow true (pos :: l) = fun o' => (follow true l o').bind fun i =>
        if i = pos then none else some (if pos < i then i - 1 else i) := by
      funext o'
      simp [follow]
    rw [split, ← List.filterMap_filterMap, front, filterMap_shift pos_first]
    simp only [Bool.true_and, decide_eq_true_eq]
    split
    · rw [if_pos (by omega)]
      exact ⟨rfl, by omega⟩
    · rw [if_neg (by omega)]
      exact ⟨rfl, j_first⟩

/-- Before a game everybody in a slot is online. -/
def Full (r : Room) : Prop := r.status = .waiting → ∀ i ∈ r.slots, r.isOnline i = true

theorem Fades.full (h : r.Fades l r') (full : r.Full) : r'.Full := by
  induction h with
  | refl => exact full
  | @leave l r' u h pos ih =>
    intro waits i slot
    rw [vacate_status] at waits
    obtain ⟨here, -⟩ := getPlayerId_spec pos
    have here := mem_slots.mp here
    rw [vacate, if_pos waits] at slot ⊢
    obtain ⟨first, last⟩ := mem_slots.mp slot
    simp only [removeSlot] at last ⊢
    rw [Function.update_of_ne (by omega)]
    exact ih waits i (mem_slots.mpr ⟨first, by omega⟩)
  | unload _ _ _ ih => exact ih
  | start _ _ _ _ _ => exact fun waits => by cases waits
  | syn _ _ _ ih => exact ih

theorem Fades.first (h : r.Fades l r') : ∀ pos ∈ l, 1 ≤ pos := by
  induction h with
  | refl => exact List.forall_mem_nil _
  | leave _ _ pos ih => exact List.forall_mem_cons.mpr ⟨Nat.one_le_iff_ne_zero.mpr pos, ih⟩
  | unload _ _ _ ih => exact ih
  | start _ _ _ _ ih => exact ih
  | syn _ _ _ ih => exact ih

/-- A player that has not left is online in the slot that it has moved to. -/
theorem Fades.follow (h : r.Fades l r') (full : r.Full) (slot : o ∈ r.slots) (online : r.isOnline o = true)
    (stays : Room.follow (decide (r.status = .waiting)) l o = some i) :
    i ∈ r'.slots ∧ r'.isOnline i = true ∧ r'.players i = r.players o := by
  induction h generalizing i with
  | refl => exact Option.some.inj stays ▸ ⟨slot, online, rfl⟩
  | @leave l r' u h pos ih =>
    obtain ⟨j, before, other, rfl⟩ := follow_cons stays
    obtain ⟨slot', online', player⟩ := ih before
    obtain ⟨here, -⟩ := getPlayerId_spec pos
    have here := mem_slots.mp here
    obtain ⟨first, last⟩ := mem_slots.mp slot'
    by_cases waits : r.status = .waiting
    · have waits' := h.waiting.mpr waits
      have full' := h.full full waits'
      rw [vacate, if_pos waits', decide_eq_true waits, Bool.true_and, mem_slots]
      simp only [removeSlot, decide_eq_true_eq]
      split
      · have moved : j - 1 + 1 = j := by omega
        rw [Function.update_of_ne (by omega), shift, if_pos (by omega), moved]
        exact ⟨by omega, full' _ (mem_slots.mpr (by omega)), player⟩
      · rw [Function.update_of_ne (by omega), shift, if_neg (by omega)]
        exact ⟨by omega, online', player⟩
    · have waits' := mt h.waiting.mp waits
      rw [vacate, if_neg waits', decide_eq_false waits, Bool.false_and]
      simp only [setOffline, Bool.false_eq_true, if_false]
      rw [Function.update_of_ne other]
      exact ⟨slot', online', player⟩
  | unload _ _ _ ih => exact ih stays
  | start _ _ _ _ ih => exact ih stays
  | syn _ _ _ ih => exact ih stays

end Room

/-- The slots of room `p` that players left between `s` and `t`, the last one first -/
def vacated (p : RoomPtr) (s t : Server) : List Nat := leaves p (t.trace.take (t.trace.length - s.trace.length))

theorem vacated_eq {p : RoomPtr} {s t : Server} {events : List Event} (trace : t.trace = events ++ s.trace) :
    vacated p s t = leaves p events := by
  rw [vacated, trace, List.length_append, Nat.add_sub_cancel, List.take_left]

namespace Fading

variable {p : RoomPtr} {s t u : Server}

theorem fades (h : Fading p s t) : (s.room p).Fades (vacated p s t) (t.room p) := by
  obtain ⟨events, trace, fades⟩ := h
  rwa [vacated_eq trace]

theorem vacated_trans (h : Fading p s t) (h' : Fading p t u) : vacated p s u = vacated p t u ++ vacated p s t := by
  obtain ⟨events, trace, -⟩ := h
  obtain ⟨events', trace', -⟩ := h'
  rw [vacated_eq trace, vacated_eq trace', ← leaves_append]
  exact vacated_eq (by rw [trace', trace, List.append_assoc])

end Fading

/-! ### The turns of a broadcast -/

/-- A turn of the loop of `SendMessageToEveryone`: its slot, and the states in which it begins and ends -/
structure CastTurn where
  pos : Nat
  before : Server
  after : Server

section
variable (env : Env) (del : Int → M Unit) (p : RoomPtr) (mess : CMessage)

/-- The turns of the loop from slot `i` on, from one state to another -/
inductive Room.Turns : Nat → Server → List CastTurn → Server → Prop
  | done {i s} (gt : (s.room p).playerCnt < i) : Turns i s [] s
  | turn {i s t l u} (le : i ≤ (s.room p).playerCnt) (run : Room.deliver env del p mess i s = .ok () t)
      (rest : Turns (i + 1) t l u) : Turns i s ({ pos := i, before := s, after := t } :: l) u

end

section
variable {env : Env} {del : Int → M Unit} {p : RoomPtr} {mess : CMessage} {s t u a : Server} {l : List CastTurn}

/-- Where the player is at `t` who was in slot `o` of room `p` at `s` -/
def followed (p : RoomPtr) (s t : Server) (o : Nat) : Option Nat :=
  Room.follow (decide ((s.room p).status = .waiting)) (vacated p s t) o

/-- The answer to the write in a turn, if there was one: it comes right after the message is handed on. -/
def CastTurn.answer (turn : CastTurn) : Option WriteStatus :=
  match (turn.after.trace.take (turn.after.trace.length - turn.before.trace.length)).reverse with
  | .deliver _ _ _ :: .sendTo _ _ :: .write _ _ _ status :: _ => some status
  | _ => none

/-- The players that leave room `p` in a turn, by their slots at `s` -/
def CastTurn.left (p : RoomPtr) (s : Server) (turn : CastTurn) : List Nat :=
  (s.room p).slots.filter fun o => (followed p s turn.before o).isSome && (followed p s turn.after o).isNone

/-- It is the turn of the player who was in slot `o` at `s`, and the message is sent whole. -/
def sentIn (p : RoomPtr) (s : Server) (o : Nat) (turn : CastTurn) : Bool :=
  (turn.before.room p).isOnline turn.pos && followed p s turn.before o == some turn.pos && turn.answer == some .success

/-- What fails in a turn: how the write ends, and which players leave, by their slots before the broadcast -/
structure TurnFailures where
  answer : Option WriteStatus
  left : List Nat

def CastTurn.failures (p : RoomPtr) (s : Server) (turn : CastTurn) : TurnFailures where
  answer := turn.answer
  left := turn.left p s

/-- How many slots the player of slot `o` moves up in the turn: in a room that waits, as many as players in front of it
    leave. -/
def TurnFailures.moves (waits : Bool) (o : Nat) (turn : TurnFailures) : Nat :=
  if waits then turn.left.countP (· < o) else 0

/-- The player of slot `o`, which is `behind` slots behind that of the next turn, does not move past the slot of a turn,
    and in its own turn the write to it succeeds. -/
def Room.reaches (waits : Bool) (o : Nat) : List TurnFailures → Nat → Bool
  | [], _ => false
  | turn :: _, 0 => turn.answer == some .success
  | turn :: turns, behind + 1 =>
    decide (turn.moves waits o ≤ behind) && reaches waits o turns (behind - turn.moves waits o)

/-- A player that stays was there in between. -/
theorem followed_between {o x y : Nat} (first : Fading p s a) (rest : Fading p a t) (here : followed p s a o = some x)
    (stays : followed p s t o = some y) : y ≤ x := by
  rw [followed, first.vacated_trans rest, Room.follow_append] at stays
  rw [followed] at here
  rw [here] at stays
  exact Room.follow_le stays

theorem followed_some {o : Nat} (first : Fading p s a) (rest : Fading p a t) (stays : (followed p s t o).isSome) :
    ∃ x, followed p s a o = some x := by
  rw [followed, first.vacated_trans rest, Room.follow_append] at stays
  unfold followed
  cases here : Room.follow (decide ((s.room p).status = .waiting)) (vacated p s a) o with
  | none => simp [here] at stays
  | some x => exact ⟨x, rfl⟩

theorem Room.Turns.fading {i : Nat} (hd : ∀ fd, Along (Fading p) (del fd)) (turns : Room.Turns env del p mess i a l u) :
    Fading p a u := by
  induction turns with
  | done _ => exact .refl p _
  | turn _ run _ ih => exact (wp_ok (deliver_fading hd p mess _ _) run).trans ih

/-- As many slots as a player moves up in a turn, as many players in front of it leave in it. -/
theorem CastTurn.moved {o x x' : Nat} {turn : CastTurn} (first : Fading p s turn.before) (turned : Fading p turn.before turn.after)
    (waits : (s.room p).status = .waiting) (slot : o ∈ (s.room p).slots) (here : followed p s turn.before o = some x)
    (here' : followed p s turn.after o = some x') : (turn.left p s).countP (· < o) + x' = x := by
  obtain ⟨o_first, o_last⟩ := Room.mem_slots.mp slot
  have front : ∀ {b : Server} {i : Nat}, Fading p s b → followed p s b o = some i →
      (List.range' 1 (o - 1)).countP (fun o' => (followed p s b o').isSome) + 1 = i := by
    intro b i fading here
    rw [followed, decide_eq_true waits] at here
    obtain ⟨front, i_first⟩ := Room.follow_front fading.fades.first o_first here
    have count := congrArg List.length front
    rw [List.length_filterMap_eq_countP, List.length_range'] at count
    have same : (fun o' => (followed p s b o').isSome) = fun o' => (Room.follow true (vacated p s b) o').isSome := by
      funext o'
      rw [followed, decide_eq_true waits]
    rw [same, count]
    omega
  have before := front first here
  have after := front (first.trans turned) here'
  have cut : (s.room p).slots = List.range' 1 (o - 1) ++ List.range' o ((s.room p).playerCnt - (o - 1)) := by
    have at_o : List.range' o ((s.room p).playerCnt - (o - 1)) = List.range' (1 + (o - 1)) ((s.room p).playerCnt - (o - 1)) := by
      rw [Nat.add_sub_cancel' o_first]
    rw [at_o, List.range'_append_1, Nat.add_sub_cancel' (by omega)]
    rfl
  have behind : (List.range' o ((s.room p).playerCnt - (o - 1))).countP (fun o' =>
      decide (o' < o) && ((followed p s turn.before o').isSome && (followed p s turn.after o').isNone)) = 0 := by
    refine List.countP_eq_zero.mpr fun o' mem => ?_
    have ge := (List.mem_range'_1.mp mem).1
    simp [Nat.not_lt.mpr ge]
  have ahead : (List.range' 1 (o - 1)).countP (fun o' =>
        decide (o' < o) && ((followed p s turn.before o').isSome && (followed p s turn.after o').isNone)) =
      (List.range' 1 (o - 1)).countP fun o' => (followed p s turn.before o').isSome && !(followed p s turn.after o').isSome := by
    refine List.countP_congr fun o' mem => ?_
    have lt : o' < o := by
      have := List.mem_range'_1.mp mem
      omega
    simp [lt]
  have stayed : (List.range' 1 (o - 1)).countP (fun o' => (followed p s turn.before o').isSome && (followed p s turn.after o').isSome) =
      (List.range' 1 (o - 1)).countP fun o' => (followed p s turn.after o').isSome := by
    refine List.countP_congr fun o' _ => ?_
    rw [Bool.and_eq_true]
    refine and_iff_right_of_imp fun there => ?_
    obtain ⟨y, there'⟩ := followed_some first turned there
    rw [there']
    rfl
  have parts := List.countP_eq_countP_filter_add (List.range' 1 (o - 1)) (fun o' => (followed p s turn.before o').isSome)
    fun o' => (followed p s turn.after o').isSome
  rw [List.countP_filter, List.countP_filter, stayed] at parts
  rw [CastTurn.left, List.countP_filter, cut, List.countP_append, behind, ahead]
  omega

/-- From the turn of slot `i` on, a player in front of it is sent nothing, and one that is not is sent the message once
    if and only if it is reached. -/
theorem Room.Turns.sent {i o x : Nat} (hd : ∀ fd, Along (Fading p) (del fd)) (turns : Room.Turns env del p mess i a l u)
    (first : Fading p s a) (full : (s.room p).Full) (slot : o ∈ (s.room p).slots)
    (online : (s.room p).isOnline o = true) (stays : (followed p s u o).isSome) (here : followed p s a o = some x) :
    (x < i → l.countP (sentIn p s o) = 0) ∧
    (i ≤ x → (l.countP (sentIn p s o) = 1 ↔
      Room.reaches (decide ((s.room p).status = .waiting)) o (l.map (CastTurn.failures p s)) (x - i) = true)) := by
  induction turns generalizing x with
  | done gt =>
    have last := (mem_slots.mp (first.fades.follow full slot online here).1).2
    exact ⟨fun _ => rfl, fun le => absurd gt (by omega)⟩
  | @turn i a b l u le run rest ih =>
    have fades : Along (Fading p) (Room.deliver env del p mess i) := deliver_fading hd p mess i
    have turned := wp_ok (fades a) run
    have next := first.trans turned
    obtain ⟨x', here'⟩ := followed_some next (rest.fading hd) stays
    have down := followed_between first turned here here'
    obtain ⟨behind, ahead⟩ := ih next stays here'
    generalize turn_eq : ({ pos := i, before := a, after := b } : CastTurn) = turn
    have sent : sentIn p s o turn = (decide (x = i) && turn.answer == some .success) := by
      subst turn_eq
      by_cases same : x = i
      · subst same
        simp [sentIn, here, (first.fades.follow full slot online here).2.1]
      · simp [sentIn, here, same]
    rw [List.countP_cons, sent, List.map_cons]
    refine ⟨fun lt => ?_, fun ge => ?_⟩
    · simp [behind (by omega), Nat.ne_of_lt lt]
    · rcases Nat.eq_or_lt_of_le ge with rfl | lt
      · -- it is its turn now, and never again
        rw [behind (by omega), Nat.sub_self]
        simp [Room.reaches, CastTurn.failures]
      · have moved : (turn.failures p s).moves (decide ((s.room p).status = .waiting)) o + x' = x := by
          subst turn_eq
          by_cases waits : (s.room p).status = .waiting
          · rw [decide_eq_true waits]
            exact CastTurn.moved first turned waits slot here here'
          · rw [followed, decide_eq_false waits] at here here'
            rw [Room.follow_apart here, Room.follow_apart here', decide_eq_false waits]
            exact Nat.zero_add o
        obtain ⟨d, hd⟩ : ∃ d, x - i = d + 1 := ⟨x - i - 1, by omega⟩
        rw [hd, Room.reaches]
        generalize (turn.failures p s).moves (decide ((s.room p).status = .waiting)) o = m at moved ⊢
        simp only [Nat.ne_of_gt lt, decide_false, Bool.false_and, Bool.false_eq_true, if_false, Nat.add_zero, Bool.and_eq_true,
          decide_eq_true_eq]
        by_cases later : i < x'
        · have rest : d - m = x' - (i + 1) := by omega
          rw [ahead later, rest]
          exact (and_iff_right (by omega)).symm
        · rw [behind (by omega)]
          exact iff_of_false (by decide) fun h => absurd h.1 (by omega)

end

section
variable {env : Env} {p : RoomPtr} {s : Server}

/-- The rooms of a run count their slots. -/
theorem Config.counted {k : List Frame} (h : Config env k s) (alloc : p < s.roomCnt) : (s.room p).Counted :=
  h.rooms.counted alloc

end

end IslandSurvival
