import Mathlib.Data.List.TakeWhile
import IslandSurvival.Theorems.Departures

/-! What the players of a waiting room are told of it, as the trace shows it. Every change is followed by a broadcast of
    the details; but a failed write in one removes a player, so that newer details are broadcast while the loop for the
    older ones has still turns to make. Whether somebody is left with older details depends on the turns in which writes
    fail, and on how many players are left. -/

namespace IslandSurvival

/-! ### Details in the trace -/

def CMessage.isDetail (mess : CMessage) : Bool := mess.head.messageId == Msg.scPullOneRoomDetail

/-- The number of players in the details -/
def CMessage.shown (mess : CMessage) : Nat := match mess.proto with
  | some (.scPullOneRoomDetail (some info)) => info.players.length
  | _ => 0

namespace Event

/-- The event hands on the details of a room. -/
def tells : Event → Bool
  | .sendTo _ mess | .broadcast _ mess | .deliver _ _ mess => mess.isDetail
  | _ => false

/-- The details of room `p` whose broadcast begins -/
def cast? (p : RoomPtr) : Event → Option CMessage
  | .broadcast q mess => if q = p ∧ mess.isDetail then some mess else none
  | _ => none

/-- The details that user `u` is handed -/
def told? (u : Int) : Event → Option CMessage
  | .sendTo v mess => if v = u ∧ mess.isDetail then some mess else none
  | _ => none

/-- The event is none of those that end the turn of a player in the broadcast of details. -/
def opens : Event → Bool
  | .writeError _ _ | .write _ _ _ _ => false
  | .sendTo _ mess => !mess.isDetail
  | _ => true

end Event

/-- The details of room `p` whose broadcast began last -/
def newest (p : RoomPtr) (tr : List Event) : Option CMessage := tr.findSome? (Event.cast? p)

/-- What happened before that broadcast began -/
def beforeNewest (p : RoomPtr) (tr : List Event) : List Event := tr.dropWhile fun e => (e.cast? p).isNone

/-- The details that user `u` was handed last -/
def lastHanded (u : Int) (tr : List Event) : Option CMessage := tr.findSome? (Event.told? u)

/-- The users to whom a write failed, with their connections -/
def failedWrites (tr : List Event) : List (Int × Int) := tr.filterMap fun e => match e with
  | .writeError u fd => some (u, fd)
  | _ => none

/-- The write fails in the turn for slot `i` of a broadcast of details; `newer` is what followed. -/
def BrokenTurn (p : RoomPtr) (tr newer : List Event) (i : Nat) (mess : CMessage) : Prop :=
  mess.isDetail ∧ ∃ u fd data taken status older,
    tr = newer ++ .writeError u fd :: .write fd data taken status :: .sendTo u mess :: .deliver p i mess :: older

/-- The loop that broadcasts the details goes on before the broadcast of the newest ones begins. -/
def GoesOn (p : RoomPtr) (mess : CMessage) (newer : List Event) : Prop := ∃ j, .deliver p j mess ∈ beforeNewest p newer

/-- Where a write fails in a turn of a broadcast of details, this loop has no slot left to serve, of as many as the bound
    says, unless newer details are broadcast after it goes on. -/
def Settled (p : RoomPtr) (bound : CMessage → Nat) (tr : List Event) : Prop :=
  ∀ newer i mess, BrokenTurn p tr newer i mess → bound mess ≤ i ∨ GoesOn p mess newer

/-- No details are handed on. -/
def Untold (events : List Event) : Prop := ∀ e ∈ events, e.tells = false

/-- The oldest event does not end a turn. -/
def Clean (events : List Event) : Prop := ∀ e, events.getLast? = some e → e.opens = true

/-- The details in the events show fewer players. -/
def Below (p : RoomPtr) (n : Nat) (events : List Event) : Prop :=
  ∀ i mess, .deliver p i mess ∈ events → mess.isDetail → mess.shown < n

/-- The loops in which a write fails have gone on or are at an end. -/
def Finished (p : RoomPtr) (n : Nat) (events : List Event) : Prop :=
  ∀ newer i mess, BrokenTurn p events newer i mess → n ≤ i ∨ ∃ j, .deliver p j mess ∈ newer

section
variable {p : RoomPtr} {u : Int} {e : Event} {events newer older : List Event} {mess : CMessage} {i n m : Nat}

theorem lastHanded_append : lastHanded u (events ++ older) = (lastHanded u events).or (lastHanded u older) :=
  List.findSome?_append

theorem newest_append : newest p (events ++ older) = (newest p events).or (newest p older) := List.findSome?_append

theorem failedWrites_append : failedWrites (events ++ older) = failedWrites events ++ failedWrites older :=
  List.filterMap_append

theorem mem_failedWrites {fd : Int} : (u, fd) ∈ failedWrites events ↔ .writeError u fd ∈ events := by
  unfold failedWrites
  rw [List.mem_filterMap]
  constructor
  · rintro ⟨e, mem, found⟩
    cases e <;> simp at found
    obtain ⟨rfl, rfl⟩ := found
    exact mem
  · exact fun mem => ⟨_, mem, rfl⟩

theorem Event.cast?_none (quiet : e.tells = false) : e.cast? p = none := by
  cases e with
  | broadcast q mess =>
    have other : mess.isDetail = false := quiet
    simp [cast?, other]
  | _ => rfl

theorem Event.told?_none (quiet : e.tells = false) : e.told? u = none := by
  cases e with
  | sendTo v mess =>
    have other : mess.isDetail = false := quiet
    simp [told?, other]
  | _ => rfl

namespace Untold

theorem newest (quiet : Untold events) : newest p events = none :=
  List.findSome?_eq_none_iff.mpr fun e mem => Event.cast?_none (quiet e mem)

theorem lastHanded (quiet : Untold events) : lastHanded u events = none :=
  List.findSome?_eq_none_iff.mpr fun e mem => Event.told?_none (quiet e mem)

theorem append (quiet : Untold events) (quiet' : Untold older) : Untold (events ++ older) := by
  intro e mem
  rcases List.mem_append.mp mem with here | there
  · exact quiet e here
  · exact quiet' e there

theorem below (quiet : Untold events) : Below p n events := by
  intro i mess mem detail
  have other : mess.isDetail = false := quiet _ mem
  rw [detail] at other
  cases other

end Untold

/-! ### Broken turns -/

theorem BrokenTurn.delivered (h : BrokenTurn p events newer i mess) : .deliver p i mess ∈ events := by
  obtain ⟨-, _, _, _, _, _, _, rfl⟩ := h
  simp

theorem Untold.unbroken (quiet : Untold events) : ¬BrokenTurn p events newer i mess := fun broken => by
  have other : mess.isDetail = false := quiet _ broken.delivered
  rw [broken.1] at other
  cases other

theorem BrokenTurn.later (h : BrokenTurn p older newer i mess) (events : List Event) :
    BrokenTurn p (events ++ older) (events ++ newer) i mess := by
  obtain ⟨detail, u, fd, data, taken, status, rest, rfl⟩ := h
  exact ⟨detail, u, fd, data, taken, status, rest, (List.append_assoc ..).symm⟩

theorem BrokenTurn.earlier (h : BrokenTurn p events newer i mess) (older : List Event) :
    BrokenTurn p (events ++ older) newer i mess := by
  obtain ⟨detail, u, fd, data, taken, status, rest, rfl⟩ := h
  exact ⟨detail, u, fd, data, taken, status, rest ++ older, by simp⟩

/-- A broken turn lies on one side of a cut. -/
theorem brokenTurn_append (clean : Clean events) : BrokenTurn p (events ++ older) newer i mess ↔
    BrokenTurn p events newer i mess ∨ ∃ rest, newer = events ++ rest ∧ BrokenTurn p older rest i mess := by
  constructor
  · rintro ⟨detail, u, fd, data, taken, status, rest, cut⟩
    obtain ⟨more, rfl, same⟩ | ⟨more, rfl, same⟩ := List.append_eq_append_iff.mp cut
    · exact .inr ⟨more, rfl, detail, u, fd, data, taken, status, rest, same⟩
    · -- the cut is behind the first event of the turn, behind one of the next three, or behind them all
      match more, same with
      | [], same => exact .inr ⟨[], by simp, detail, u, fd, data, taken, status, rest, by simpa using same.symm⟩
      | [e], same => simp at same; obtain ⟨rfl, -⟩ := same; simpa [Event.opens] using clean (.writeError u fd)
      | [_, e], same => simp at same; obtain ⟨-, rfl, -⟩ := same; simpa [Event.opens] using clean (.write fd data taken status)
      | [_, _, e], same => simp at same; obtain ⟨-, -, rfl, -⟩ := same; simpa [Event.opens, detail] using clean (.sendTo u mess)
      | _ :: _ :: _ :: _ :: more, same =>
        simp only [List.cons_append, List.cons.injEq] at same
        obtain ⟨rfl, rfl, rfl, rfl, same⟩ := same
        exact .inl ⟨detail, u, fd, data, taken, status, more, rfl⟩
  · rintro (here | ⟨rest, rfl, there⟩)
    · exact here.earlier older
    · exact there.later events

theorem Clean.append (clean : Clean events) (clean' : Clean older) : Clean (events ++ older) := by
  intro e last
  rw [List.getLast?_append] at last
  cases here : older.getLast? with
  | none =>
    rw [here, Option.none_or] at last
    exact clean e last
  | some e' =>
    rw [here, Option.some_or] at last
    exact clean' e (here.trans last)

theorem Clean.of_last (events : List Event) (opens : e.opens = true) : Clean (events ++ [e]) := by
  intro e' last
  rw [List.getLast?_concat] at last
  exact Option.some.inj last ▸ opens

theorem Clean.nil : Clean [] := fun _ last => by cases last

theorem Clean.single (opens : e.opens = true) : Clean [e] := .of_last [] opens

theorem beforeNewest_append_none (quiet : newest p events = none) :
    beforeNewest p (events ++ older) = beforeNewest p older := by
  unfold beforeNewest
  rw [List.dropWhile_append_of_pos]
  exact fun e mem => Option.isNone_iff_eq_none.mpr (List.findSome?_eq_none_iff.mp quiet e mem)

theorem beforeNewest_append_some (some : (newest p events).isSome) :
    beforeNewest p (events ++ older) = beforeNewest p events ++ older := by
  unfold beforeNewest
  rw [List.dropWhile_append, if_neg]
  intro empty
  rw [List.isEmpty_iff, List.dropWhile_eq_nil_iff] at empty
  obtain ⟨mess, found⟩ := Option.isSome_iff_exists.mp some
  obtain ⟨e, mem, cast⟩ := List.exists_of_findSome?_eq_some found
  have none := empty e mem
  rw [cast] at none
  cases none

theorem goesOn_append_none (quiet : newest p events = none) : GoesOn p mess (events ++ older) ↔ GoesOn p mess older := by
  unfold GoesOn
  rw [beforeNewest_append_none quiet]

theorem goesOn_append_some (some : (newest p events).isSome) (mem : .deliver p i mess ∈ older) :
    GoesOn p mess (events ++ older) := by
  refine ⟨i, ?_⟩
  rw [beforeNewest_append_some some]
  exact List.mem_append_right _ mem

/-- Without a broken turn and a broadcast of details, nothing is settled or unsettled. -/
theorem settled_append {bound : CMessage → Nat} (unbroken : ∀ rest i mess, ¬BrokenTurn p newer rest i mess)
    (quiet : newest p newer = none) (clean : Clean newer) : Settled p bound (newer ++ older) ↔ Settled p bound older := by
  constructor
  · intro settled rest i mess broken
    have here := settled (newer ++ rest) i mess (broken.later newer)
    rwa [goesOn_append_none quiet] at here
  · intro settled rest i mess broken
    rcases (brokenTurn_append clean).mp broken with here | ⟨rest, rfl, there⟩
    · exact absurd here (unbroken _ i mess)
    · rw [goesOn_append_none quiet]
      exact settled rest i mess there

/-- Once newer details are broadcast, only what happens then can be unsettled. -/
theorem Finished.settled (fin : Finished p n older) (some : (newest p newer).isSome) (clean : Clean newer) :
    Settled p (fun _ => n) (newer ++ older) ↔ Settled p (fun _ => n) newer := by
  constructor
  · exact fun settled rest i mess broken => settled rest i mess (broken.earlier older)
  · intro settled rest i mess broken
    rcases (brokenTurn_append clean).mp broken with here | ⟨rest, rfl, there⟩
    · exact settled rest i mess here
    · refine (fin rest i mess there).imp_right fun ⟨j, mem⟩ => ?_
      exact goesOn_append_some some mem

theorem Finished.append (fin : Finished p n newer) (fin' : Finished p n older) (clean : Clean newer) :
    Finished p n (newer ++ older) := by
  intro rest i mess broken
  rcases (brokenTurn_append clean).mp broken with here | ⟨rest, rfl, there⟩
  · exact fin rest i mess here
  · exact (fin' rest i mess there).imp_right fun ⟨j, mem⟩ => ⟨j, List.mem_append_right _ mem⟩

theorem Finished.mono (fin : Finished p m events) (le : n ≤ m) : Finished p n events := fun rest i mess broken =>
  (fin rest i mess broken).imp_left (Nat.le_trans le)

theorem Untold.finished (quiet : Untold events) : Finished p n events := fun _ _ _ broken => absurd broken quiet.unbroken

theorem Below.append (below : Below p n newer) (below' : Below p n older) : Below p n (newer ++ older) := by
  intro i mess mem
  rcases List.mem_append.mp mem with here | there
  · exact below i mess here
  · exact below' i mess there

theorem Below.mono (below : Below p n events) (le : n ≤ m) : Below p m events := fun i mess mem detail =>
  Nat.lt_of_lt_of_le (below i mess mem detail) le

end

/-! ### What is told -/

/-- Everybody in the room has been told something; and the newest details last, exactly if everything is settled. -/
structure Told (p : RoomPtr) (a : Server) (events : List Event) : Prop where
  newest : newest p events = some (Room.detailMessage p a)
  everyone : ∀ u ∈ (a.room p).members, (lastHanded u events).isSome
  current : (∀ u ∈ (a.room p).members, lastHanded u events = some (Room.detailMessage p a)) ↔
    Settled p (fun _ => (a.room p).members.length) events
  finished : Finished p (a.room p).members.length events
  clean : Clean events

/-- From `a` to `b` the players leave the room to whom a write fails, and those of the list, nobody enters it, and nobody in
    it changes its name. -/
structure Ran (p : RoomPtr) (out : List Int) (a b : Server) (events : List Event) : Prop where
  trace : b.trace = events ++ a.trace
  table : b.rooms = a.rooms
  bound : ∀ {u fd : Int}, b.userIdToFd[u]? = some fd → a.userIdToFd[u]? = some fd
  members : (b.room p).members.Perm
    ((a.room p).members.filter fun u => decide (u ∉ out ∧ u ∉ (failedWrites events).map Prod.fst))
  names : ∀ u ∈ (b.room p).members, PersonManager.getPersonName b u = PersonManager.getPersonName a u

/-- Either the room is as it was and nobody has been told anything, or somebody has left and everybody has. -/
structure Refreshes (p : RoomPtr) (out : List Int) (a b : Server) (events : List Event) : Prop
    extends Ran p out a b events where
  told : (b.room p = a.room p ∧ Untold events) ∨
    (Told p b events ∧ (b.room p).members.length < (a.room p).members.length)
  below : Below p (a.room p).members.length events
  clean : Clean events

section
variable {p : RoomPtr} {out out' : List Int} {a b c : Server} {events newer older : List Event} {u : Int} {mess : CMessage}
  {i : Nat}

/-- The details show a room and the names of its members. -/
theorem Room.detailMessage_congr (room : b.room p = a.room p)
    (names : ∀ u ∈ (a.room p).members, PersonManager.getPersonName b u = PersonManager.getPersonName a u) :
    Room.detailMessage p b = Room.detailMessage p a := by
  have players :
      ((a.room p).slots.filter (a.room p).isOnline).map (fun i => PersonManager.getPersonName b ((a.room p).players i)) =
      ((a.room p).slots.filter (a.room p).isOnline).map fun i => PersonManager.getPersonName a ((a.room p).players i) :=
    List.map_congr_left fun i mem => names _ (List.mem_map_of_mem mem)
  simp only [Room.detailMessage, Room.getDetailInfo, room, players]

theorem Room.isDetail_detailMessage (p : RoomPtr) (s : Server) : (Room.detailMessage p s).isDetail = true := rfl

theorem Room.shown_detailMessage (p : RoomPtr) (s : Server) :
    (Room.detailMessage p s).shown = (s.room p).members.length := by
  simp [Room.detailMessage, CMessage.build, CMessage.shown, Room.getDetailInfo, Room.members]

namespace Ran

theorem mem (h : Ran p out a b events) : u ∈ (b.room p).members ↔
    u ∈ (a.room p).members ∧ u ∉ out ∧ u ∉ (failedWrites events).map Prod.fst := by
  rw [h.members.mem_iff, List.mem_filter, decide_eq_true_eq]

theorem length_le (h : Ran p out a b events) : (b.room p).members.length ≤ (a.room p).members.length :=
  Nat.le_trans (Nat.le_of_eq h.members.length_eq) (List.length_filter_le ..)

theorem detailMessage (h : Ran p out a b events) (room : b.room p = a.room p) :
    Room.detailMessage p b = Room.detailMessage p a :=
  Room.detailMessage_congr room fun u mem => h.names u (room ▸ mem)

theorem trans (h : Ran p out a b older) (h' : Ran p out' b c newer) : Ran p (out' ++ out) a c (newer ++ older) where
  trace := by rw [h'.trace, h.trace, List.append_assoc]
  table := h'.table.trans h.table
  bound here := h.bound (h'.bound here)
  members := by
    refine h'.members.trans ((h.members.filter _).trans (List.Perm.of_eq ?_))
    rw [List.filter_filter]
    refine List.filter_congr fun u _ => ?_
    rw [failedWrites_append]
    simp only [List.map_append, List.mem_append, not_or, Bool.decide_and]
    grind
  names u mem := (h'.names u mem).trans (h.names u (h'.mem.mp mem).1)

/-- Where nobody fails and nobody leaves -/
theorem quiet (trace : b.trace = events ++ a.trace) (table : b.rooms = a.rooms)
    (bound : ∀ {u fd : Int}, b.userIdToFd[u]? = some fd → a.userIdToFd[u]? = some fd) (room : b.room p = a.room p)
    (names : ∀ u ∈ (a.room p).members, PersonManager.getPersonName b u = PersonManager.getPersonName a u)
    (none : failedWrites events = []) : Ran p [] a b events where
  trace := trace
  table := table
  bound := bound
  members := by
    rw [room, none, List.filter_eq_self.mpr]
    exact fun u _ => decide_eq_true ⟨List.not_mem_nil, List.not_mem_nil⟩
  names u mem := names u (room ▸ mem)

theorem refl (p : RoomPtr) (a : Server) : Ran p [] a a [] := .quiet rfl rfl id rfl (fun _ _ => rfl) rfl

/-- A failed write is as good a reason to leave. -/
theorem failing {fd : Int} (h : Ran p [u] a b events) (failed : failedWrites older = [(u, fd)])
    (trace : b.trace = (events ++ older) ++ c.trace) (table : a.rooms = c.rooms) (room : a.room p = c.room p)
    (bound : a.userIdToFd = c.userIdToFd) (persons : a.persons = c.persons) : Ran p [] c b (events ++ older) where
  trace := trace
  table := h.table.trans table
  bound here := bound ▸ h.bound here
  members := by
    refine h.members.trans (List.Perm.of_eq ?_)
    rw [room]
    refine List.filter_congr fun v _ => ?_
    rw [failedWrites_append, failed]
    simp only [List.map_append, List.mem_append, List.map_cons, List.map_nil, List.mem_singleton, List.not_mem_nil, not_or]
    grind
  names v mem := by
    rw [h.names v mem]
    unfold PersonManager.getPersonName
    rw [persons]

end Ran

namespace Told

/-- What was told before does not matter. -/
theorem of_newer (h : Told p a newer) (fin : Finished p (a.room p).members.length older) (clean : Clean older) :
    Told p a (newer ++ older) where
  newest := by rw [newest_append, h.newest, Option.some_or]
  everyone u mem := by
    obtain ⟨mess, told⟩ := Option.isSome_iff_exists.mp (h.everyone u mem)
    rw [lastHanded_append, told, Option.some_or]
    rfl
  current := by
    rw [fin.settled (by rw [h.newest]; rfl) h.clean, ← h.current]
    refine forall_congr' fun u => forall_congr' fun mem => ?_
    obtain ⟨mess, told⟩ := Option.isSome_iff_exists.mp (h.everyone u mem)
    rw [lastHanded_append, told, Option.some_or]
  finished := h.finished.append fin h.clean
  clean := h.clean.append clean

/-- While nobody is told anything, all stays as it was told. -/
theorem later (h : Told p a older) (ran : Ran p out a b newer) (room : b.room p = a.room p) (quiet : Untold newer)
    (clean : Clean newer) : Told p b (newer ++ older) where
  newest := by rw [newest_append, quiet.newest, Option.none_or, h.newest, ran.detailMessage room]
  everyone u mem := by
    rw [lastHanded_append, quiet.lastHanded, Option.none_or]
    exact h.everyone u (room ▸ mem)
  current := by
    rw [settled_append (fun _ _ _ => quiet.unbroken) quiet.newest clean, ran.detailMessage room, room, ← h.current]
    simp only [lastHanded_append, quiet.lastHanded, Option.none_or]
  finished := by
    rw [room]
    exact quiet.finished.append h.finished clean
  clean := clean.append h.clean

end Told

namespace Refreshes

theorem trans (h : Refreshes p out a b older) (h' : Refreshes p out' b c newer) :
    Refreshes p (out' ++ out) a c (newer ++ older) where
  toRan := h.toRan.trans h'.toRan
  told := by
    rcases h'.told with ⟨room', quiet'⟩ | ⟨told', fewer'⟩
    · rcases h.told with ⟨room, quiet⟩ | ⟨told, fewer⟩
      · exact .inl ⟨room'.trans room, quiet'.append quiet⟩
      · exact .inr ⟨told.later h'.toRan room' quiet' h'.clean, by rwa [room']⟩
    · refine .inr ?_
      rcases h.told with ⟨-, quiet⟩ | ⟨told, -⟩
      · exact ⟨told'.of_newer quiet.finished h.clean, Nat.lt_of_lt_of_le fewer' h.length_le⟩
      · exact ⟨told'.of_newer (told.finished.mono (Nat.le_of_lt fewer')) h.clean, Nat.lt_of_lt_of_le fewer' h.length_le⟩
  below := (h'.below.mono h.length_le).append h.below
  clean := h'.clean.append h.clean

/-- A state in which the room and the names in it are the same, and some events later -/
theorem quiet (ran : Ran p out a b events) (room : b.room p = a.room p) (untold : Untold events) (clean : Clean events) :
    Refreshes p out a b events := ⟨ran, .inl ⟨room, untold⟩, untold.below, clean⟩

theorem refl (p : RoomPtr) (a : Server) : Refreshes p [] a a [] := .quiet (.refl p a) rfl (List.forall_mem_nil _) .nil

/-- Where somebody has left, everybody has been told. -/
theorem told_of_left (h : Refreshes p out a b events) (mem : u ∈ (a.room p).members) (left : u ∉ (b.room p).members) :
    Told p b events := by
  rcases h.told with ⟨room, -⟩ | ⟨told, -⟩
  · exact absurd mem (room ▸ left)
  · exact told

end Refreshes

end

/-! ### The broadcast of the details -/

/-- The state in the turn for slot `i` when the message is handed to its player. -/
def Server.delivered (p : RoomPtr) (i : Nat) (mess : CMessage) (c : Server) : Server :=
  (c.log (.deliver p i mess)).log (.sendTo ((c.room p).players i) mess)

/-- What follows from `a` on when a message has been handed to user `u`: nobody is told anything, or the write fails, the
    user leaves, and everybody is told. -/
inductive Handed (p : RoomPtr) (u : Int) (a b : Server) : List Event → Prop
  | kept {events} (ran : Ran p [] a b events) (room : b.room p = a.room p) (untold : Untold events) : Handed p u a b events
  | lost {events fd data taken status} (ran : Ran p [] a b (events ++ [.writeError u fd, .write fd data taken status]))
      (told : Told p b events) (fewer : (b.room p).members.length < (a.room p).members.length)
      (below : Below p (a.room p).members.length events) :
      Handed p u a b (events ++ [.writeError u fd, .write fd data taken status])

theorem Handed.ran {p : RoomPtr} {u : Int} {a b : Server} {events : List Event} (h : Handed p u a b events) :
    Ran p [] a b events := by
  cases h with
  | kept ran _ _ => exact ran
  | lost ran _ _ _ => exact ran

/-- The slots that the loop of the details of `a` has served before slot `i`, and those that the finished loops have -/
def served (p : RoomPtr) (a : Server) (i : Nat) (c : Server) (mess : CMessage) : Nat :=
  if mess = Room.detailMessage p a then min (c.room p).members.length (i - 1) else (c.room p).members.length

/-- Nobody has left since the broadcast of the details began, and the players in the slots before `i` have been told. -/
structure OnTime (p : RoomPtr) (a : Server) (i : Nat) (c : Server) (events : List Event) : Prop where
  room : c.room p = a.room p
  newest : newest p events = some (Room.detailMessage p a)
  unbroken : ∀ newer j mess, ¬BrokenTurn p events newer j mess
  before : ∀ j, 1 ≤ j → j ≤ (a.room p).playerCnt → j < i →
    lastHanded ((a.room p).players j) events = some (Room.detailMessage p a)

/-- Somebody has left, and everybody has been told newer details; the loop for the older ones has a broken turn and goes
    on. -/
structure Overtaken (p : RoomPtr) (a : Server) (i : Nat) (c : Server) (events : List Event) : Prop where
  fewer : (c.room p).members.length < (a.room p).members.length
  newest : newest p events = some (Room.detailMessage p c)
  everyone : ∀ u ∈ (c.room p).members, (lastHanded u events).isSome
  current : (∀ u ∈ (c.room p).members, lastHanded u events = some (Room.detailMessage p c)) ↔
    Settled p (served p a i c) events
  broken : ∃ newer j, BrokenTurn p events newer j (Room.detailMessage p a) ∧ j < i ∧
    ¬GoesOn p (Room.detailMessage p a) newer
  finished : ∀ newer j mess, BrokenTurn p events newer j mess → (∃ j, .deliver p j mess ∈ newer) ∨
    if mess = Room.detailMessage p a then j + 1 = i else (c.room p).members.length ≤ j

/-- The broadcast of the details of the room in `a`, after the turns for the slots before `i` -/
structure Casting (p : RoomPtr) (a : Server) (i : Nat) (c : Server) (events : List Event) : Prop
    extends Ran p [] a c events where
  clean : Clean events
  below : Below p ((a.room p).members.length + 1) events
  told : OnTime p a i c events ∨ Overtaken p a i c events

section
variable {p : RoomPtr} {a b c : Server} {events newer older : List Event} {u : Int} {mess : CMessage} {i : Nat}

/-- One player is told. -/
theorem lastHanded_delivered {v : Int} (detail : mess.isDetail = true) :
    lastHanded v (.sendTo u mess :: .deliver p i mess :: events) = if u = v then some mess else lastHanded v events := by
  have passed : lastHanded v (.deliver p i mess :: events) = lastHanded v events :=
    List.findSome?_cons_of_isNone rfl
  unfold lastHanded at passed ⊢
  rw [List.findSome?_cons]
  by_cases same : u = v
  · simp [Event.told?, same, detail]
  · simp only [Event.told?, same, false_and, if_false]
    exact passed

theorem newest_delivered : newest p (.sendTo u mess :: .deliver p i mess :: events) = newest p events := by
  unfold newest
  rw [List.findSome?_cons_of_isNone rfl, List.findSome?_cons_of_isNone rfl]

/-- A turn in which no write fails -/
theorem unbroken_delivered (untold : Untold newer) (kept : u ∉ (failedWrites newer).map Prod.fst) (rest : List Event) (j : Nat)
    (mess' : CMessage) : ¬BrokenTurn p (newer ++ [.sendTo u mess, .deliver p i mess]) rest j mess' := by
  rintro ⟨detail, v, fd, data, taken, status, older, cut⟩
  have cut := congrArg List.reverse cut
  simp only [List.reverse_append, List.reverse_cons, List.reverse_nil, List.nil_append, List.cons_append,
    List.append_assoc] at cut
  match older.reverse, cut with
  | [], cut =>
    simp only [List.nil_append, List.cons.injEq, Event.sendTo.injEq] at cut
    obtain ⟨-, ⟨rfl, -⟩, cut⟩ := cut
    have failed : .writeError u fd ∈ newer := by
      rw [← List.mem_reverse, cut]
      simp
    exact kept (List.mem_map_of_mem (mem_failedWrites.mpr failed))
  | [e], cut => simp at cut
  | e :: e' :: rest', cut =>
    simp only [List.cons_append, List.cons.injEq] at cut
    have delivered : .deliver p j mess' ∈ newer := by
      rw [← List.mem_reverse, cut.2.2]
      simp
    have other : mess'.isDetail = false := untold _ delivered
    rw [detail] at other
    cases other

theorem brokenTurn_turn {fd : Int} {data taken : Bytes} {status : WriteStatus} {v : Int} {j : Nat} {mess' : CMessage}
    (h : BrokenTurn p [.writeError v fd, .write fd data taken status, .sendTo u mess, .deliver p i mess] newer j mess') :
    newer = [] ∧ j = i ∧ mess' = mess := by
  obtain ⟨-, v', fd'', data', taken', status', older, cut⟩ := h
  have length := congrArg List.length cut
  simp only [List.length_append, List.length_cons, List.length_nil] at length
  obtain rfl : newer = [] := List.length_eq_zero_iff.mp (by omega)
  simp only [List.nil_append, List.cons.injEq, Event.deliver.injEq] at cut
  obtain ⟨-, -, -, ⟨-, rfl, rfl⟩, -⟩ := cut
  exact ⟨rfl, rfl, rfl⟩

/-- The events of a turn in which user `u` is handed the details and nobody leaves -/
structure KeptTurn (p : RoomPtr) (u : Int) (i : Nat) (mess : CMessage) (turn : List Event) : Prop where
  unbroken : ∀ rest j mess', ¬BrokenTurn p turn rest j mess'
  quiet : newest p turn = none
  clean : Clean turn
  delivered : .deliver p i mess ∈ turn
  handed : ∀ v events, lastHanded v (turn ++ events) = if u = v then some mess else lastHanded v events

theorem Untold.keptTurn (untold : Untold newer) (kept : u ∉ (failedWrites newer).map Prod.fst) (detail : mess.isDetail = true) :
    KeptTurn p u i mess (newer ++ [.sendTo u mess, .deliver p i mess]) where
  unbroken := unbroken_delivered untold kept
  quiet := by
    rw [newest_append, untold.newest, newest_delivered]
    rfl
  clean := by
    have last := Clean.of_last (e := .deliver p i mess) (newer ++ [.sendTo u mess]) rfl
    rwa [List.append_assoc] at last
  delivered := by simp
  handed v events := by
    rw [List.append_assoc, List.cons_append, List.cons_append, List.nil_append, lastHanded_append, untold.lastHanded,
      Option.none_or, lastHanded_delivered detail]

theorem OnTime.kept {turn : List Event} (h : OnTime p a i c events) (room : b.room p = c.room p)
    (kept : KeptTurn p ((c.room p).players i) i (Room.detailMessage p a) turn) : OnTime p a (i + 1) b (turn ++ events) where
  room := room.trans h.room
  newest := by rw [newest_append, kept.quiet, Option.none_or, h.newest]
  unbroken rest j mess broken := by
    rcases (brokenTurn_append kept.clean).mp broken with here | ⟨_, -, before⟩
    · exact kept.unbroken _ _ _ here
    · exact h.unbroken _ _ _ before
  before j first le lt := by
    rw [kept.handed, h.room]
    split
    · rfl
    · rename_i other
      have lt' : j < i := Nat.lt_of_le_of_ne (Nat.le_of_lt_succ lt) fun same => other (same ▸ rfl)
      exact h.before j first le lt'

/-- These details are older than those that everybody knows. -/
theorem Overtaken.kept {turn : List Event} (h : Overtaken p a i c events) (last : i ≤ (c.room p).members.length)
    (member : (c.room p).players i ∈ (c.room p).members) (room : b.room p = c.room p)
    (same : Room.detailMessage p b = Room.detailMessage p c)
    (kept : KeptTurn p ((c.room p).players i) i (Room.detailMessage p a) turn) : Overtaken p a (i + 1) b (turn ++ events) := by
  have differ : Room.detailMessage p a ≠ Room.detailMessage p c := fun equal => by
    have shown := congrArg CMessage.shown equal
    rw [Room.shown_detailMessage, Room.shown_detailMessage] at shown
    exact absurd shown (Nat.ne_of_gt h.fewer)
  obtain ⟨rest, j, broken, lt, ended⟩ := h.broken
  have broken := broken.later turn
  rw [← goesOn_append_none kept.quiet] at ended
  refine ⟨by rw [room]; exact h.fewer, ?_, fun v mem => ?_, ?_, ⟨_, j, broken, Nat.lt_succ_of_lt lt, ended⟩,
    fun rest' j' mess broken' => ?_⟩
  · rw [newest_append, kept.quiet, Option.none_or, h.newest, same]
  · rw [kept.handed]
    split
    · rfl
    · exact h.everyone v (room ▸ mem)
  · rw [room, same]
    refine iff_of_false (fun all => ?_) fun settled => ?_
    · have stale := all _ member
      rw [kept.handed, if_pos rfl] at stale
      exact differ (Option.some.inj stale)
    · rcases settled _ j _ broken with le | goes
      · rw [served, if_pos rfl, room] at le
        omega
      · exact ended goes
  · rcases (brokenTurn_append kept.clean).mp broken' with here | ⟨rest', rfl, before⟩
    · exact absurd here (kept.unbroken _ _ _)
    · rcases h.finished _ _ _ before with ⟨k, mem⟩ | ended
      · exact .inl ⟨k, List.mem_append_right _ mem⟩
      · split at ended
        · rename_i own
          exact .inl ⟨i, List.mem_append_left _ (own ▸ kept.delivered)⟩
        · rename_i other
          rw [if_neg other, room]
          exact .inr ended

/-- What was broken before a turn in which somebody leaves is over. -/
theorem OnTime.ended (h : OnTime p a i c events) (rest : List Event) (j : Nat) (mess : CMessage)
    (broken : BrokenTurn p events rest j mess) : (∃ k, .deliver p k mess ∈ rest) ∨
      if mess = Room.detailMessage p a then j + 1 = i else (c.room p).members.length ≤ j :=
  absurd broken (h.unbroken rest j mess)

/-- Somebody leaves in the turn for slot `i`, and everybody is told so. -/
theorem overtaken_of_told {fd : Int} {data taken : Bytes} {status : WriteStatus} (told : Told p b newer)
    (fewer : (b.room p).members.length < (c.room p).members.length)
    (le : (c.room p).members.length ≤ (a.room p).members.length) (below : Below p (c.room p).members.length newer)
    (ended : ∀ rest j mess, BrokenTurn p events rest j mess → (∃ k, .deliver p k mess ∈ rest) ∨
      if mess = Room.detailMessage p a then j + 1 = i else (c.room p).members.length ≤ j) :
    Overtaken p a (i + 1) b (newer ++ ([.writeError u fd, .write fd data taken status, .sendTo u (Room.detailMessage p a),
      .deliver p i (Room.detailMessage p a)] ++ events)) := by
  have broken : BrokenTurn p ([.writeError u fd, .write fd data taken status, .sendTo u (Room.detailMessage p a),
      .deliver p i (Room.detailMessage p a)] ++ events) [] i (Room.detailMessage p a) :=
    ⟨rfl, u, fd, data, taken, status, events, rfl⟩
  have own : ∀ rest j mess, BrokenTurn p [.writeError u fd, .write fd data taken status, .sendTo u (Room.detailMessage p a),
      .deliver p i (Room.detailMessage p a)] rest j mess → rest = [] ∧ j = i ∧ mess = Room.detailMessage p a :=
    fun _ _ _ => brokenTurn_turn
  generalize turn_eq : [Event.writeError u fd, .write fd data taken status, .sendTo u (Room.detailMessage p a),
    .deliver p i (Room.detailMessage p a)] = turn at broken own ⊢
  have delivered : .deliver p i (Room.detailMessage p a) ∈ turn := by simp [← turn_eq]
  have clean : Clean turn := turn_eq ▸ .of_last [.writeError u fd, .write fd data taken status,
    .sendTo u (Room.detailMessage p a)] rfl
  have found : (newest p newer).isSome := by
    rw [told.newest]
    rfl
  have handed : ∀ v ∈ (b.room p).members, lastHanded v (newer ++ (turn ++ events)) = lastHanded v newer := fun v mem => by
    obtain ⟨mess, last⟩ := Option.isSome_iff_exists.mp (told.everyone v mem)
    rw [lastHanded_append, last, Option.some_or]
  -- the details that are broadcast since somebody left are others
  have other : ∀ {k mess}, .deliver p k mess ∈ newer → mess.isDetail → mess ≠ Room.detailMessage p a := by
    rintro k mess mem detail rfl
    have shown := below k _ mem detail
    rw [Room.shown_detailMessage] at shown
    omega
  have fresh : ¬GoesOn p (Room.detailMessage p a) newer := fun ⟨k, mem⟩ =>
    other ((List.dropWhile_suffix _).subset mem) rfl rfl
  refine ⟨Nat.lt_of_lt_of_le fewer le, ?_, fun v mem => ?_, ?_, ⟨newer, i, ?_, Nat.lt_succ_self i, fresh⟩,
    fun rest j mess here => ?_⟩
  · rw [newest_append, told.newest, Option.some_or]
  · rw [handed v mem]
    exact told.everyone v mem
  · have same : (∀ v ∈ (b.room p).members, lastHanded v (newer ++ (turn ++ events)) = some (Room.detailMessage p b)) ↔
        ∀ v ∈ (b.room p).members, lastHanded v newer = some (Room.detailMessage p b) :=
      forall_congr' fun v => forall_congr' fun mem => by rw [handed v mem]
    rw [same, told.current]
    constructor
    · intro settled rest j mess here
      rcases (brokenTurn_append told.clean).mp here with here | ⟨rest, rfl, before⟩
      · rw [served, if_neg (other here.delivered here.1)]
        exact settled rest j mess here
      · rcases (brokenTurn_append clean).mp before with here | ⟨rest, rfl, earlier⟩
        · obtain ⟨-, rfl, rfl⟩ := own _ _ _ here
          rw [served, if_pos rfl]
          exact .inl (Nat.le_trans (Nat.min_le_right ..) (Nat.le_of_eq (Nat.add_sub_cancel ..)))
        · by_cases stale : mess = Room.detailMessage p a
          · exact .inr (goesOn_append_some found (List.mem_append_left _ (stale ▸ delivered)))
          · have ended := ended rest j mess earlier
            rw [if_neg stale] at ended
            rcases ended with ⟨k, mem⟩ | le
            · exact .inr (goesOn_append_some found (List.mem_append_right _ mem))
            · rw [served, if_neg stale]
              exact .inl (Nat.le_trans (Nat.le_of_lt fewer) le)
    · intro settled rest j mess here
      have settled := settled rest j mess (here.earlier _)
      rwa [served, if_neg (other here.delivered here.1)] at settled
  · have later := broken.later newer
    rwa [List.append_nil] at later
  · rcases (brokenTurn_append told.clean).mp here with here | ⟨rest, rfl, before⟩
    · rw [if_neg (other here.delivered here.1)]
      exact (told.finished rest j mess here).symm
    · rcases (brokenTurn_append clean).mp before with here | ⟨rest, rfl, earlier⟩
      · obtain ⟨-, rfl, rfl⟩ := own _ _ _ here
        exact .inr (if_pos rfl ▸ rfl)
      · by_cases stale : mess = Room.detailMessage p a
        · exact .inl ⟨i, List.mem_append_right _ (List.mem_append_left _ (stale ▸ delivered))⟩
        · have ended := ended rest j mess earlier
          rw [if_neg stale] at ended ⊢
          rcases ended with ⟨k, mem⟩ | le
          · exact .inl ⟨k, List.mem_append_right _ (List.mem_append_right _ mem)⟩
          · exact .inr (Nat.le_trans (Nat.le_of_lt fewer) le)

/-- The details are handed on. -/
theorem Ran.delivered (p : RoomPtr) (i : Nat) (mess : CMessage) (c : Server) :
    Ran p [] c (c.delivered p i mess) [.sendTo ((c.room p).players i) mess, .deliver p i mess] :=
  .quiet rfl rfl id rfl (fun _ _ => rfl) rfl

theorem Clean.delivered : Clean [.sendTo u mess, .deliver p i mess] := .of_last [.sendTo u mess] rfl

namespace Casting

theorem start (p : RoomPtr) (a : Server) :
    Casting p a 1 (a.log (.broadcast p (Room.detailMessage p a))) [.broadcast p (Room.detailMessage p a)] where
  toRan := .quiet rfl rfl id rfl (fun _ _ => rfl) rfl
  clean := .single rfl
  below i mess mem := by simp at mem
  told := by
    have cast : Event.cast? p (.broadcast p (Room.detailMessage p a)) = some (Room.detailMessage p a) := by
      simp [Event.cast?, Room.isDetail_detailMessage]
    refine .inl ⟨rfl, by simp [newest, cast], fun newer j mess broken => ?_, fun j first _ lt => ?_⟩
    · have mem := broken.delivered
      simp at mem
    · exact absurd lt (Nat.not_lt.mpr first)

/-- A turn in which nobody leaves -/
theorem kept (h : Casting p a i c events) (last : i ≤ (c.room p).members.length)
    (member : (c.room p).players i ∈ (c.room p).members)
    (ran : Ran p [] (c.delivered p i (Room.detailMessage p a)) b newer)
    (room : b.room p = (c.delivered p i (Room.detailMessage p a)).room p) (untold : Untold newer) :
    Casting p a (i + 1) b ((newer ++ [.sendTo ((c.room p).players i) (Room.detailMessage p a),
      .deliver p i (Room.detailMessage p a)]) ++ events) := by
  have stays : (c.room p).players i ∉ (failedWrites newer).map Prod.fst := (ran.mem.mp (room.symm ▸ member)).2.2
  have kept := untold.keptTurn (p := p) (i := i) stays (Room.isDetail_detailMessage p a)
  have shows : Below p ((a.room p).members.length + 1) [.sendTo ((c.room p).players i) (Room.detailMessage p a),
      .deliver p i (Room.detailMessage p a)] := by
    intro j mess mem _
    simp only [List.mem_cons, reduceCtorEq, false_or, Event.deliver.injEq, List.not_mem_nil, or_false] at mem
    obtain ⟨-, -, rfl⟩ := mem
    exact Nat.lt_succ_of_le (Nat.le_of_eq (Room.shown_detailMessage p a))
  refine ⟨?_, kept.clean.append h.clean, (untold.below.append shows).append h.below, ?_⟩
  · simpa using (h.toRan.trans (.delivered p i _ c)).trans ran
  · rcases h.told with onTime | overtaken
    · exact .inl (onTime.kept room kept)
    · exact .inr (overtaken.kept last member room (ran.detailMessage room) kept)

/-- A turn in which somebody leaves -/
theorem lost {fd : Int} {data taken : Bytes} {status : WriteStatus} (h : Casting p a i c events)
    (ran : Ran p [] (c.delivered p i (Room.detailMessage p a)) b (newer ++ [.writeError ((c.room p).players i) fd,
      .write fd data taken status]))
    (told : Told p b newer) (fewer : (b.room p).members.length < (c.room p).members.length)
    (below : Below p (c.room p).members.length newer) :
    Casting p a (i + 1) b (newer ++ ([.writeError ((c.room p).players i) fd, .write fd data taken status,
      .sendTo ((c.room p).players i) (Room.detailMessage p a), .deliver p i (Room.detailMessage p a)] ++ events)) := by
  have clean : Clean [.writeError ((c.room p).players i) fd, .write fd data taken status,
      .sendTo ((c.room p).players i) (Room.detailMessage p a), .deliver p i (Room.detailMessage p a)] :=
    .of_last [.writeError ((c.room p).players i) fd, .write fd data taken status,
      .sendTo ((c.room p).players i) (Room.detailMessage p a)] rfl
  have shows : Below p ((a.room p).members.length + 1) [.writeError ((c.room p).players i) fd, .write fd data taken status,
      .sendTo ((c.room p).players i) (Room.detailMessage p a), .deliver p i (Room.detailMessage p a)] := by
    intro j mess mem _
    simp only [List.mem_cons, reduceCtorEq, false_or, Event.deliver.injEq, List.not_mem_nil, or_false] at mem
    obtain ⟨-, -, rfl⟩ := mem
    exact Nat.lt_succ_of_le (Nat.le_of_eq (Room.shown_detailMessage p a))
  refine ⟨?_, told.clean.append (clean.append h.clean),
    (below.mono (Nat.le_succ_of_le h.length_le)).append (shows.append h.below), .inr ?_⟩
  · simpa using (h.toRan.trans (.delivered p i _ c)).trans ran
  · refine overtaken_of_told told fewer h.length_le below fun rest j mess broken => ?_
    rcases h.told with onTime | overtaken
    · exact onTime.ended rest j mess broken
    · exact overtaken.finished rest j mess broken

/-- At the end everybody has been told. -/
theorem finish (h : Casting p a i c events) (past : (c.room p).members.length < i)
    (slots : (a.room p).playerCnt = (a.room p).members.length) : Told p c events := by
  rcases h.told with onTime | overtaken
  · have all : ∀ u ∈ (c.room p).members, lastHanded u events = some (Room.detailMessage p c) := by
      intro u mem
      rw [onTime.room] at mem past
      obtain ⟨j, first, last, -, rfl⟩ := Room.mem_members.mp mem
      rw [h.detailMessage onTime.room]
      exact onTime.before j first last (Nat.lt_of_le_of_lt last (slots ▸ past))
    have settled : Settled p (fun _ => (c.room p).members.length) events := fun rest j mess broken =>
      absurd broken (onTime.unbroken rest j mess)
    refine ⟨by rw [h.detailMessage onTime.room, onTime.newest], fun u mem => ?_, iff_of_true all settled,
      fun rest j mess broken => absurd broken (onTime.unbroken rest j mess), h.clean⟩
    rw [all u mem]
    rfl
  · have bound : served p a i c = fun _ => (c.room p).members.length := by
      funext mess
      rw [served, Nat.min_eq_left (by omega), ite_self]
    refine ⟨overtaken.newest, overtaken.everyone, bound ▸ overtaken.current, fun rest j mess broken => ?_, h.clean⟩
    rcases overtaken.finished rest j mess broken with goes | ended
    · exact .inr goes
    · split at ended
      · exact .inl (by omega)
      · exact .inl ended

end Casting

end

end IslandSurvival
