import IslandSurvival.Theorems.Details
import IslandSurvival.Theorems.Replies

/-! What follows from a failed write in a waiting room, and when the players know the room after an operation on it. The
    records of rooms and connections may disagree; what counts is that each user to whom a write fails has its one seat
    in the room, so that it is removed and the others are told. -/

namespace IslandSurvival

open Prog

/-- User `u` on connection `fd` has at most one seat, in room `p`, and its records say so. -/
structure Seated (p : RoomPtr) (s : Server) (u fd : Int) : Prop where
  user : s.fdToUserId[fd]? = some u
  once : (s.room p).members.count u ≤ 1
  seat : s.belongRoom[u]? = if u ∈ (s.room p).members then some p else none
  person : u ∈ (s.room p).members → ∃ person, s.persons[u]? = some person ∧ person.status = .inRoom

/-- A waiting room, some time after `c`: those that are still bound are seated as they were. -/
structure WaitingRoom (p : RoomPtr) (c a : Server) : Prop where
  since : c.trace <:+ a.trace
  counted : (a.room p).Counted
  status : (a.room p).status = .waiting
  userId : ∀ {u : Int} {person : Person}, a.persons[u]? = some person → person.userId = u
  seated : ∀ {u fd : Int}, Seated p c u fd → a.userIdToFd[u]? = some fd → Seated p a u fd

/-- Since `c` a write failed to a user that had no proper seat then. -/
def Spoiled (p : RoomPtr) (c a : Server) : Prop :=
  ∃ newer u fd older, a.trace = newer ++ .writeError u fd :: older ∧ c.trace <:+ older ∧ ¬Seated p c u fd

/-- From `a` on the room has been waiting, and what followed from departures has been told. -/
def Refreshed (p : RoomPtr) (c : Server) (out : List Int) (a b : Server) : Prop :=
  Spoiled p c b ∨ (WaitingRoom p c b ∧ ∃ events, Refreshes p out a b events)

section
variable {p : RoomPtr} {c a b d : Server} {out : List Int} {u fd : Int} {mess : CMessage} {events older : List Event}

theorem Spoiled.later (h : Spoiled p c a) (later : Fading p a b) : Spoiled p c b := by
  obtain ⟨newer, u, fd, older, trace, since, unseated⟩ := h
  obtain ⟨events, grown, -⟩ := later
  exact ⟨events ++ newer, u, fd, older, by rw [grown, trace, List.append_assoc], since, unseated⟩

theorem Refreshes.refreshed (h : Refreshes p out a b events) (waits : WaitingRoom p c b) : Refreshed p c out a b :=
  .inr ⟨waits, events, h⟩

/-- After another call; where a write failed to a user without a seat, nothing more is said. -/
theorem Refreshed.wp_of {α : Type} {m : M α} (h : Refreshed p c [] a b) (fading : Along (Fading p) m)
    (hm : WaitingRoom p c b → wp m (fun _ d => Refreshed p c [] b d) (fun _ _ => True) b) :
    wp m (fun _ d => Refreshed p c [] a d) (fun _ _ => True) b := by
  rcases h with spoiled | ⟨waits, _, before⟩
  · exact wp_mono (fading b) (fun _ _ later => .inl (spoiled.later later)) fun _ _ _ => trivial
  · refine wp_post (hm waits) fun _ d after => ?_
    rcases after with spoiled | ⟨waits, _, after⟩
    · exact .inl spoiled
    · exact (before.trans after).refreshed waits

theorem Seated.congr (h : Seated p a u fd) (room : b.room p = a.room p) (user : b.fdToUserId[fd]? = a.fdToUserId[fd]?)
    (belong : b.belongRoom[u]? = a.belongRoom[u]?) (person : b.persons[u]? = a.persons[u]?) : Seated p b u fd where
  user := user.trans h.user
  once := room ▸ h.once
  seat := by
    rw [belong, room]
    exact h.seat
  person mem := by
    rw [person]
    exact h.person (room ▸ mem)

namespace WaitingRoom

theorem start (counted : (c.room p).Counted) (status : (c.room p).status = .waiting)
    (userId : ∀ {u : Int} {person : Person}, c.persons[u]? = some person → person.userId = u) : WaitingRoom p c c :=
  ⟨List.suffix_rfl, counted, status, userId, fun seated _ => seated⟩

/-- An update that leaves the room as it is, and the records of those that are still bound -/
theorem keep (h : WaitingRoom p c a) (trace : a.trace <:+ b.trace) (room : b.room p = a.room p)
    (userId : ∀ {u : Int} {person : Person}, b.persons[u]? = some person → person.userId = u)
    (bound : ∀ {u fd : Int}, b.userIdToFd[u]? = some fd → a.userIdToFd[u]? = some fd)
    (users : ∀ {u fd : Int}, Seated p c u fd → Seated p a u fd → b.userIdToFd[u]? = some fd →
      b.fdToUserId[fd]? = a.fdToUserId[fd]? ∧ b.belongRoom[u]? = a.belongRoom[u]? ∧ b.persons[u]? = a.persons[u]?) :
    WaitingRoom p c b where
  since := h.since.trans trace
  counted := room ▸ h.counted
  status := room ▸ h.status
  userId := userId
  seated first bound' := by
    have before := h.seated first (bound bound')
    obtain ⟨user, belong, person⟩ := users first before bound'
    exact before.congr room user belong person

theorem congr (h : WaitingRoom p c a) (trace : a.trace <:+ b.trace) (room : b.room p = a.room p)
    (belong : b.belongRoom = a.belongRoom) (fds : b.userIdToFd = a.userIdToFd) (users : b.fdToUserId = a.fdToUserId)
    (persons : b.persons = a.persons) : WaitingRoom p c b :=
  h.keep trace room (fun here => h.userId (persons ▸ here)) (fun here => fds ▸ here) fun _ _ _ => by
    rw [users, belong, persons]
    exact ⟨rfl, rfl, rfl⟩

theorem logged {e : Event} (h : WaitingRoom p c a) : WaitingRoom p c (a.log e) :=
  h.congr (List.suffix_cons _ _) rfl rfl rfl rfl rfl

theorem forgetFd (h : WaitingRoom p c a) (u : Int) : WaitingRoom p c { a with userIdToFd := a.userIdToFd.erase u } := by
  refine h.keep List.suffix_rfl rfl h.userId (fun here => ?_) fun _ _ _ => ⟨rfl, rfl, rfl⟩
  rw [Map.getElem?_erase] at here
  split at here
  · cases here
  · exact here

/-- The connection of a user that is not bound any more -/
theorem forgetUser (h : WaitingRoom p c a) (first : Seated p c u fd) (unbound : a.userIdToFd[u]? = none) :
    WaitingRoom p c { a with fdToUserId := a.fdToUserId.erase fd } := by
  refine h.keep List.suffix_rfl rfl h.userId id fun {v fd'} first' _ bound => ⟨?_, rfl, rfl⟩
  rw [Map.getElem?_erase, if_neg]
  rintro rfl
  obtain rfl := Option.some.inj (first.user.symm.trans first'.user)
  rw [unbound] at bound
  cases bound

theorem forgetPerson (h : WaitingRoom p c a) (unbound : a.userIdToFd[u]? = none) :
    WaitingRoom p c { a with persons := a.persons.erase u } := by
  refine h.keep List.suffix_rfl rfl (fun here => ?_) id fun {v fd'} _ _ bound => ⟨rfl, rfl, ?_⟩
  · rw [Map.getElem?_erase] at here
    split at here
    · cases here
    · exact h.userId here
  · rw [Map.getElem?_erase, if_neg]
    rintro rfl
    rw [unbound] at bound
    cases bound

/-- A user that is out of the room changes its status. -/
theorem changePersonStatus (h : WaitingRoom p c a) (out : ∀ fd, Seated p c u fd → u ∉ (a.room p).members)
    (status : PersonStatus) : WaitingRoom p c (PersonManager.changePersonStatus u status a).2 := by
  rw [PersonManager.changePersonStatus_eq]
  refine ⟨h.since, h.counted, h.status, fun {v person} here => ?_, fun {v fd} first bound => ?_⟩
  · by_cases same : v = u
    · subst same
      rw [PersonManager.changed_self, Option.map_eq_some_iff] at here
      obtain ⟨person, here, rfl⟩ := here
      have own := h.userId here
      exact own
    · rw [PersonManager.changed_ne same] at here
      exact h.userId here
  · have before := h.seated first bound
    refine ⟨before.user, before.once, before.seat, fun mem => ?_⟩
    have other : v ≠ u := by
      rintro rfl
      exact out fd first mem
    rw [PersonManager.changed_ne other]
    exact before.person mem

/-- The slots of a waiting room are online. -/
theorem online (h : WaitingRoom p c a) {i : Nat} (first : 1 ≤ i) (last : i ≤ (a.room p).playerCnt) :
    (a.room p).isOnline i = true ∧ (a.room p).players i ∈ (a.room p).members := by
  have online := h.counted.waiting h.status i (Room.mem_slots.mpr ⟨first, last⟩)
  exact ⟨online, Room.mem_members.mpr ⟨i, first, last, online, rfl⟩⟩

theorem length (h : WaitingRoom p c a) : (a.room p).members.length = (a.room p).playerCnt := by
  rw [Room.members, List.length_map, List.filter_eq_self.mpr (h.counted.waiting h.status)]
  exact List.length_range'

end WaitingRoom

/-! ### Departures -/

theorem departed_room : (RoomManager.departed u p a).room p = (a.room p).vacate ((a.room p).getPlayerId u) :=
  Server.setRoom_room_self _ _ _

namespace WaitingRoom

/-- The members of the room when somebody leaves -/
theorem members_departed (h : WaitingRoom p c a) (pos : (a.room p).getPlayerId u ≠ 0) :
    (u :: ((RoomManager.departed u p a).room p).members).Perm (a.room p).members := by
  obtain ⟨slot, online, player⟩ := Room.getPlayerId_spec pos
  have left := Room.members_vacate h.counted slot online
  rwa [player, ← departed_room] at left

theorem departed (h : WaitingRoom p c a) (pos : (a.room p).getPlayerId u ≠ 0) (unbound : a.userIdToFd[u]? = none) :
    WaitingRoom p c (RoomManager.departed u p a) := by
  obtain ⟨slot, online, -⟩ := Room.getPlayerId_spec pos
  have left := h.members_departed pos
  refine ⟨h.since.trans (List.suffix_cons _ _), ?_, ?_, h.userId, fun {v fd} first bound => ?_⟩
  · rw [departed_room]
    exact h.counted.vacate slot online
  · rw [departed_room, Room.vacate_status]
    exact h.status
  · have before := h.seated first bound
    have other : u ≠ v := by
      rintro rfl
      have bound : a.userIdToFd[u]? = some fd := bound
      rw [unbound] at bound
      cases bound
    have mem : v ∈ ((RoomManager.departed u p a).room p).members ↔ v ∈ (a.room p).members := by
      rw [← left.mem_iff, List.mem_cons, or_iff_right other.symm]
    refine ⟨before.user, ?_, ?_, fun here => before.person (mem.mp here)⟩
    · have count := left.count_eq v
      rw [List.count_cons_of_ne other] at count
      exact count ▸ before.once
    · have belong : (RoomManager.departed u p a).belongRoom[v]? = a.belongRoom[v]? :=
        (Map.getElem?_erase ..).trans (if_neg other)
      rw [belong, before.seat]
      simp only [mem]

end WaitingRoom

end

/-! ### What follows from a failed write -/

/-- What the functions of the circle rely on for `DeleteClientByFD`: it is called for a user that has its seat. -/
structure DeletesRefreshing (p : RoomPtr) (c : Server) (del : Int → M Unit) : Prop where
  fading : ∀ fd, Along (Fading p) (del fd)
  refreshes : ∀ {u fd : Int} {a : Server}, WaitingRoom p c a → Seated p c u fd → a.userIdToFd[u]? = some fd →
    fd ∈ a.connects → wp (del fd) (fun _ b => Refreshed p c [u] a b) (fun _ _ => True) a

section
variable {env : Env} {del : Int → M Unit} {p : RoomPtr} {c a b d : Server} {u fd : Int} {mess : CMessage}
  {events older : List Event}

theorem sendMessageByConnfd_answers (fd : Int) (mess : CMessage) (a : Server) :
    wp (sendMessageByConnfd env fd mess) (fun ret b => (ret = .fail ∧ b = a) ∨ ∃ sock n data taken status,
      ret = .status status ∧ fd ∈ a.connects ∧
      b = { a with sock, sys := a.sys + n, trace := .write fd data taken status :: a.trace }) (fun _ _ => True) a := by
  simp only [sendMessageByConnfd, wp_bind, wp_get]
  split
  · exact .inl ⟨rfl, rfl⟩
  · rename_i ptr conn
    split
    · simp only [wp_bind, wp_log, wp_throw]
    · obtain ⟨out, run⟩ := @TcpSocket.sendData_returns (fun n => env.send (a.sys + n)) (mess.encode env.pb) (a.sock ptr)
      rw [wp_bind, run]
      exact .inr ⟨_, out.calls, _, _, _, rfl, Map.mem_of_getElem? conn, rfl⟩

theorem sendMessageToClient_hands (hd : DeletesRefreshing p c del) (u : Int) (mess : CMessage) (h : WaitingRoom p c a) :
    wp (sendMessageToClient env del u mess)
      (fun _ b => Spoiled p c b ∨ (WaitingRoom p c b ∧ ∃ events, Handed p u (a.log (.sendTo u mess)) b events))
      (fun _ _ => True) a := by
  simp only [sendMessageToClient, wp_bind, wp_log, wp_get]
  have untouched : Handed p u (a.log (.sendTo u mess)) (a.log (.sendTo u mess)) [] :=
    .kept (.refl p _) rfl (List.forall_mem_nil _)
  cases bound : (a.log (.sendTo u mess)).userIdToFd[u]? with
  | none => exact .inr ⟨h.logged, _, untouched⟩
  | some fd =>
    simp only [wp_bind]
    refine wp_post (sendMessageByConnfd_answers fd mess _) fun ret b ends => ?_
    obtain ⟨rfl, rfl⟩ | ⟨sock, n, data, taken, status, rfl, conn, rfl⟩ := ends
    · rw [if_neg (by simp)]
      exact .inr ⟨h.logged, _, untouched⟩
    · have written : WaitingRoom p c { a.log (.sendTo u mess) with
          sock, sys := a.sys + n, trace := .write fd data taken status :: (a.log (.sendTo u mess)).trace } :=
        h.logged.congr (List.suffix_cons _ _) rfl rfl rfl rfl rfl
      by_cases error : status = .error
      · rw [if_pos (by rw [error])]
        simp only [wp_bind, wp_log]
        by_cases seated : Seated p c u fd
        · refine wp_post (hd.refreshes written.logged seated bound conn) fun _ b gone => ?_
          rcases gone with spoiled | ⟨waits, events, gone⟩
          · exact .inl spoiled
          · have ran : Ran p [] (a.log (.sendTo u mess)) b (events ++ [.writeError u fd, .write fd data taken status]) :=
              gone.toRan.failing rfl (by rw [gone.trace, List.append_assoc]; rfl) rfl rfl rfl rfl
            refine .inr ⟨waits, events ++ [.writeError u fd, .write fd data taken status], ?_⟩
            rcases gone.told with ⟨room, untold⟩ | ⟨told, fewer⟩
            · refine .kept ran room (untold.append fun e mem => ?_)
              simp only [List.mem_cons, List.not_mem_nil, or_false] at mem
              rcases mem with rfl | rfl <;> rfl
            · exact .lost ran told fewer gone.below
        · have spoiled : Spoiled p c (({ a.log (.sendTo u mess) with sock, sys := a.sys + n, trace := .write fd data taken status ::
              (a.log (.sendTo u mess)).trace } : Server).log (.writeError u fd)) :=
            ⟨[], u, fd, _, rfl, written.since, seated⟩
          exact wp_mono (hd.fading fd _) (fun _ _ later => .inl (spoiled.later later)) fun _ _ _ => trivial
      · rw [if_neg (by simpa using error)]
        refine .inr ⟨written, [.write fd data taken status], .kept (.quiet rfl rfl id rfl (fun _ _ => rfl) rfl) rfl ?_⟩
        exact List.forall_mem_singleton.mpr rfl

theorem deliver_hands (hd : DeletesRefreshing p c del) (mess : CMessage) {i : Nat} (first : 1 ≤ i)
    (last : i ≤ (a.room p).playerCnt) (h : WaitingRoom p c a) :
    wp (Room.deliver env del p mess i) (fun _ b => Spoiled p c b ∨
      (WaitingRoom p c b ∧ ∃ events, Handed p ((a.room p).players i) (a.delivered p i mess) b events)) (fun _ _ => True) a := by
  simp only [Room.deliver, wp_bind, wp_getRoom]
  rw [if_pos (h.online first last).1]
  simp only [wp_bind, wp_log, wp_discard]
  exact sendMessageToClient_hands hd _ mess h.logged

/-- What is handed on is not about the room. -/
theorem Handed.refreshes (h : Handed p u b d events) (ran : Ran p [] a b older) (room : b.room p = a.room p)
    (quiet : Untold older) (clean : Clean older) (some : older ≠ []) : Refreshes p [] a d (events ++ older) := by
  have last : ∀ newer : List Event, Clean (newer ++ older) := by
    intro newer e last
    rw [List.getLast?_append, List.getLast?_eq_some_getLast some, Option.some_or] at last
    exact clean e ((List.getLast?_eq_some_getLast some).trans last)
  cases h with
  | kept ran' room' untold => exact .quiet (ran.trans ran') (room'.trans room) (untold.append quiet) (last _)
  | @lost events fd data taken status ran' told fewer below =>
    have untold : Untold ([.writeError u fd, .write fd data taken status] ++ older) := by
      intro e mem
      simp only [List.cons_append, List.nil_append, List.mem_cons] at mem
      rcases mem with rfl | rfl | mem
      · rfl
      · rfl
      · exact quiet e mem
    refine ⟨ran.trans ran', .inr ⟨?_, room ▸ fewer⟩, ?_, last _⟩
    all_goals rw [List.append_assoc]
    · exact told.of_newer untold.finished (last _)
    · exact (room ▸ below).append untold.below

/-- The rule for the loop over the slots -/
theorem forSlots_ends {body : Nat → M Unit} {I : Nat → Server → Prop}
    (turn : ∀ i a, 1 ≤ i → i ≤ (a.room p).playerCnt → I i a →
      wp (body i) (fun _ b => I (i + 1) b) (fun _ _ => True) a) :
    ∀ fuel i a, 1 ≤ i → I i a →
      wp (Room.forSlots p body fuel i) (fun _ b => ∃ n, (b.room p).playerCnt < n ∧ I n b) (fun _ _ => True) a
  | 0, i, a, _, inv => by
    simp only [Room.forSlots, wp_bind, wp_getRoom]
    split
    · trivial
    · exact ⟨i, Nat.lt_of_not_le ‹_›, inv⟩
  | fuel + 1, i, a, first, inv => by
    simp only [Room.forSlots, wp_bind, wp_getRoom]
    split
    · simp only [wp_bind]
      exact wp_post (turn i a first ‹_› inv) fun _ b inv =>
        forSlots_ends turn fuel (i + 1) b (Nat.le_succ_of_le first) inv
    · exact ⟨i, Nat.lt_of_not_le ‹_›, inv⟩

/-- The broadcast of something else -/
theorem sendMessageToEveryone_refreshes (hd : DeletesRefreshing p c del) (other : mess.isDetail = false)
    (h : WaitingRoom p c a) :
    wp (Room.sendMessageToEveryone env del p mess) (fun _ b => Refreshed p c [] a b) (fun _ _ => True) a := by
  simp only [Room.sendMessageToEveryone, wp_bind, wp_log]
  have begun : Refreshes p [] a (a.log (.broadcast p mess)) [.broadcast p mess] :=
    .quiet (.quiet rfl rfl id rfl (fun _ _ => rfl) rfl) rfl (List.forall_mem_singleton.mpr other) (.single rfl)
  refine wp_post (forSlots_ends (I := fun _ b => Refreshed p c [] a b) (fun i b first last inv => ?_) _ 1 _
    (Nat.le_refl 1) (begun.refreshed h.logged)) fun _ b ends => ?_
  · refine inv.wp_of (deliver_fading hd.fading p mess i) fun waits => ?_
    refine wp_post (deliver_hands hd mess first last waits) fun _ d turned => ?_
    rcases turned with spoiled | ⟨waits', events, handed⟩
    · exact .inl spoiled
    · refine (handed.refreshes (.delivered p i mess b) rfl ?_ .delivered (List.cons_ne_nil _ _)).refreshed waits'
      intro e mem
      simp only [List.mem_cons, List.not_mem_nil, or_false] at mem
      rcases mem with rfl | rfl <;> exact other
  · obtain ⟨_, _, inv⟩ := ends
    exact inv

/-- The broadcast of the details -/
theorem sendMessageToEveryone_tells (hd : DeletesRefreshing p c del) (h : WaitingRoom p c a) :
    wp (Room.sendMessageToEveryone env del p (Room.detailMessage p a))
      (fun _ b => Spoiled p c b ∨ (WaitingRoom p c b ∧ ∃ events, Ran p [] a b events ∧ Told p b events ∧
        Below p ((a.room p).members.length + 1) events)) (fun _ _ => True) a := by
  simp only [Room.sendMessageToEveryone, wp_bind, wp_log]
  refine wp_post (forSlots_ends (I := fun i b => Spoiled p c b ∨ (WaitingRoom p c b ∧ ∃ events, Casting p a i b events))
    (fun i b first last inv => ?_) _ 1 _ (Nat.le_refl 1) (.inr ⟨h.logged, _, .start p a⟩)) fun _ b ends => ?_
  · rcases inv with spoiled | ⟨waits, events, casting⟩
    · exact wp_mono (deliver_fading hd.fading p _ i b) (fun _ _ later => .inl (spoiled.later later)) fun _ _ _ => trivial
    · refine wp_post (deliver_hands hd _ first last waits) fun _ d turned => ?_
      rcases turned with spoiled | ⟨waits', newer, handed⟩
      · exact .inl spoiled
      · refine .inr ⟨waits', ?_⟩
        cases handed with
        | kept ran room untold =>
          exact ⟨_, casting.kept (waits.length ▸ last) (waits.online first last).2 ran room untold⟩
        | lost ran told fewer below => exact ⟨_, casting.lost ran told fewer below⟩
  · obtain ⟨n, past, spoiled | ⟨waits, events, casting⟩⟩ := ends
    · exact .inl spoiled
    · exact .inr ⟨waits, events, casting.toRan, casting.finish (waits.length ▸ past) h.length.symm, casting.below⟩

theorem PersonManager.getPersonName_changed (u v : Int) (status : PersonStatus) (s : Server) :
    getPersonName (changePersonStatus u status s).2 v = getPersonName s v := by
  rw [changePersonStatus_eq]
  unfold getPersonName
  by_cases same : v = u
  · subst same
    rw [changed_self]
    cases s.persons[v]? <;> rfl
  · rw [changed_ne same]

theorem Ran.changePersonStatus (p : RoomPtr) (u : Int) (status : PersonStatus) (a : Server) :
    Ran p [] a (PersonManager.changePersonStatus u status a).2 [] := by
  have names := fun v => PersonManager.getPersonName_changed u v status a
  rw [PersonManager.changePersonStatus_eq] at names ⊢
  exact .quiet rfl rfl id rfl (fun v _ => names v) rfl

/-- Somebody that is not in the room is out of it. -/
theorem Ran.out (h : Ran p [] a b events) (absent : u ∉ (a.room p).members) : Ran p [u] a b events := by
  refine ⟨h.trace, h.table, h.bound, h.members.trans (List.Perm.of_eq (List.filter_congr fun v mem => ?_)), h.names⟩
  have other : v ≠ u := fun same => absent (same ▸ mem)
  simp [other]

/-- Nothing has happened, and the room and the names in it are the same. -/
theorem Refreshes.still (trace : b.trace = a.trace) (table : b.rooms = a.rooms)
    (bound : ∀ {u fd : Int}, b.userIdToFd[u]? = some fd → a.userIdToFd[u]? = some fd) (room : b.room p = a.room p)
    (names : ∀ u ∈ (a.room p).members, b.persons[u]? = a.persons[u]?) : Refreshes p [] a b [] := by
  refine .quiet (.quiet trace table bound room (fun u mem => ?_) rfl) room (List.forall_mem_nil _) .nil
  unfold PersonManager.getPersonName
  rw [names u mem]

theorem Refreshed.absent (waits : WaitingRoom p c a) (absent : u ∉ (a.room p).members) : Refreshed p c [u] a a :=
  (Refreshes.quiet ((Ran.refl p a).out absent) rfl (List.forall_mem_nil _) .nil).refreshed waits

/-- `DeletePlayerFromRoom` of a player in a waiting room -/
theorem deletePlayerFromRoom_departed {Q : Ret → Server → Prop} (belong : a.belongRoom[u]? = some p)
    (waits : (a.room p).status = .waiting) (pos : (a.room p).getPlayerId u ≠ 0)
    (h : wp (Room.sendMessageToEveryone env del p (Room.detailMessage p (RoomManager.departed u p a)))
      (fun _ b => Q .success (PersonManager.changePersonStatus u .inHall b).2) (fun _ _ => True)
      (RoomManager.departed u p a)) : wp (RoomManager.deletePlayerFromRoom env del u) Q (fun _ _ => True) a := by
  have begun : RoomManager.departed u p a = (({ a with belongRoom := a.belongRoom.erase u }.setRoom p
      ((a.room p).removeSlot ((a.room p).getPlayerId u))).log (.leave p ((a.room p).getPlayerId u) .waiting)) := by
    simp only [RoomManager.departed, Room.vacate, waits, if_true]
  simp only [RoomManager.deletePlayerFromRoom, wp_bind, wp_get, belong, wp_modify, Room.deletePlayer, wp_getRoom]
  rw [if_neg pos]
  simp only [waits, wp_bind, wp_modify, wp_get, wp_pure]
  rw [← begun]
  exact h

/-- A departure is told to those that stay. -/
theorem deletePlayerFromRoom_refreshes (hd : DeletesRefreshing p c del) (h : WaitingRoom p c a)
    (unbound : a.userIdToFd[u]? = none) (once : (a.room p).members.count u ≤ 1)
    (seat : a.belongRoom[u]? = if u ∈ (a.room p).members then some p else none) :
    wp (RoomManager.deletePlayerFromRoom env del u) (fun _ b => Refreshed p c [u] a b) (fun _ _ => True) a := by
  by_cases mem : u ∈ (a.room p).members
  · rw [if_pos mem] at seat
    have pos := Room.getPlayerId_ne_zero.mpr mem
    have left := h.members_departed pos
    have out : u ∉ ((RoomManager.departed u p a).room p).members := fun still => by
      have count := left.count_eq u
      rw [List.count_cons_self] at count
      have more := List.count_pos_iff.mpr still
      omega
    have departs : Ran p [u] a (RoomManager.departed u p a) [.leave p ((a.room p).getPlayerId u) (a.room p).status] := by
      refine ⟨rfl, rfl, id, ?_, fun _ _ => rfl⟩
      refine (List.Perm.of_eq ?_).trans (left.filter _)
      rw [List.filter_cons_of_neg (by simp), List.filter_eq_self.mpr fun v still => ?_]
      have other : v ≠ u := fun same => out (same ▸ still)
      simpa [failedWrites] using other
    refine deletePlayerFromRoom_departed seat h.status pos ?_
    refine wp_post (sendMessageToEveryone_tells hd (h.departed pos unbound)) fun _ b ends => ?_
    rcases ends with spoiled | ⟨waits, events, ran, told, below⟩
    · exact .inl (spoiled.later (.same (by rw [PersonManager.changePersonStatus_eq]) (by rw [PersonManager.changePersonStatus_eq])))
    · have status := Ran.changePersonStatus p u .inHall b
      have same : (PersonManager.changePersonStatus u .inHall b).2.room = b.room := by
        rw [PersonManager.changePersonStatus_eq]
      have stays := told.later status (congrFun same p) (List.forall_mem_nil _) .nil
      have total : Ran p [u] a (PersonManager.changePersonStatus u .inHall b).2
          ([] ++ (events ++ [.leave p ((a.room p).getPlayerId u) (a.room p).status])) := (departs.trans ran).trans status
      have quiet : Untold [.leave p ((a.room p).getPlayerId u) (a.room p).status] := List.forall_mem_singleton.mpr rfl
      have size := left.length_eq
      rw [List.length_cons] at size
      have fewer : ((PersonManager.changePersonStatus u .inHall b).2.room p).members.length < (a.room p).members.length := by
        have le := ran.length_le
        rw [same]
        omega
      have refreshes : Refreshes p [u] a (PersonManager.changePersonStatus u .inHall b).2
          ([] ++ (events ++ [.leave p ((a.room p).getPlayerId u) (a.room p).status])) :=
        ⟨total, .inr ⟨stays.of_newer quiet.finished (.single rfl), fewer⟩, ?_, ?_⟩
      · exact refreshes.refreshed (waits.changePersonStatus (fun _ _ still => out (ran.mem.mp still).1) .inHall)
      · exact (below.mono (by omega)).append quiet.below
      · exact told.clean.append (.single rfl)
  · rw [if_neg mem] at seat
    simp only [RoomManager.deletePlayerFromRoom, wp_bind, wp_get, seat]
    exact .absent h mem

theorem personLogout_refreshes (hd : DeletesRefreshing p c del) (h : WaitingRoom p c a) (unbound : a.userIdToFd[u]? = none)
    (seated : Seated p a u fd) :
    wp (PersonManager.personLogout env del u) (fun _ b => Refreshed p c [u] a b) (fun _ _ => True) a := by
  have forgets : ∀ {b}, Refreshed p c [u] a b → Refreshed p c [u] a { b with persons := b.persons.erase u } := by
    intro b gone
    rcases gone with spoiled | ⟨waits, _, gone⟩
    · exact .inl (spoiled.later (.same rfl rfl))
    · have out : u ∉ (b.room p).members := fun mem => (gone.mem.mp mem).2.1 (List.mem_singleton.mpr rfl)
      have unbound : b.userIdToFd[u]? = none := by
        cases bound : b.userIdToFd[u]? with
        | none => rfl
        | some fd => exact absurd (gone.bound bound) (by simp [unbound])
      have forgotten : Refreshes p [] b { b with persons := b.persons.erase u } [] := .still rfl rfl id rfl fun v mem => ?_
      · exact (gone.trans forgotten).refreshed (waits.forgetPerson unbound)
      have other : u ≠ v := fun same => out (same ▸ mem)
      exact (Map.getElem?_erase ..).trans (if_neg other)
  simp only [PersonManager.personLogout, wp_bind, wp_get]
  cases here : a.persons[u]? with
  | none =>
    refine .absent h fun mem => ?_
    obtain ⟨_, here', -⟩ := seated.person mem
    rw [here] at here'
    cases here'
  | some person =>
    simp only
    cases status : person.status with
    | inHall =>
      refine forgets (.absent h fun mem => ?_)
      obtain ⟨_, here', status'⟩ := seated.person mem
      obtain rfl := Option.some.inj (here.symm.trans here')
      rw [status] at status'
      cases status'
    | inRoom =>
      simp only [wp_bind, wp_discard]
      rw [h.userId here]
      exact wp_post (deletePlayerFromRoom_refreshes hd h unbound seated.once seated.seat) fun _ _ gone => forgets gone

theorem playerLogout_refreshes (hd : DeletesRefreshing p c del) (h : WaitingRoom p c a) (first : Seated p c u fd)
    (bound : a.userIdToFd[u]? = some fd) :
    wp (playerLogout env del u) (fun _ b => Refreshed p c [u] a b) (fun _ _ => True) a := by
  have seated := h.seated first bound
  have unbinds : ∀ {v fd : Int}, (a.userIdToFd.erase u)[v]? = some fd → a.userIdToFd[v]? = some fd := by
    intro v fd here
    rw [Map.getElem?_erase] at here
    split at here
    · cases here
    · exact here
  have unbound : (a.userIdToFd.erase u)[u]? = none := by simp
  simp only [playerLogout, wp_bind, wp_get, bound, wp_modify, wp_discard]
  have begun : Refreshes p [] a { a with userIdToFd := a.userIdToFd.erase u } [] :=
    .still rfl rfl unbinds rfl fun _ _ => rfl
  refine wp_post (personLogout_refreshes hd (h.forgetFd u) unbound (seated.congr rfl rfl rfl rfl)) fun _ b gone => ?_
  rcases gone with spoiled | ⟨waits, _, gone⟩
  · exact .inl (spoiled.later (.same rfl rfl))
  · have unbound : b.userIdToFd[u]? = none := by
      cases bound' : b.userIdToFd[u]? with
      | none => rfl
      | some fd => exact absurd (gone.bound bound') (by simp)
    have forgotten : Refreshes p [] b { b with fdToUserId := b.fdToUserId.erase fd } [] :=
      .still rfl rfl id rfl fun _ _ => rfl
    exact ((begun.trans gone).trans forgotten).refreshed (waits.forgetUser first unbound)

/-- A connection is deleted, and its user is then not in the room. -/
theorem deleteClientStep_refreshes (hd : DeletesRefreshing p c del) (h : WaitingRoom p c a) (first : Seated p c u fd)
    (bound : a.userIdToFd[u]? = some fd) (conn : fd ∈ a.connects) :
    wp (deleteClientStep env del fd) (fun _ b => Refreshed p c [u] a b) (fun _ _ => True) a := by
  obtain ⟨ptr, conn⟩ := Map.mem_iff.mp conn
  simp only [deleteClientStep, wp_bind, wp_get, conn, wp_modify]
  have user := (h.seated first bound).user
  obtain ⟨_, _, _, _, _, hs⟩ := dropConnection_eq fd ptr a
  rw [hs, user]
  have dropped : Refreshes p [] a (dropConnection fd ptr a) [.close fd] := by
    rw [hs]
    exact .quiet (.quiet rfl rfl id rfl (fun _ _ => rfl) rfl) rfl (List.forall_mem_singleton.mpr rfl) (.single rfl)
  have waits : WaitingRoom p c (dropConnection fd ptr a) := by
    rw [hs]
    exact h.congr (List.suffix_cons _ _) rfl rfl rfl rfl rfl
  rw [hs] at dropped waits
  refine wp_post (playerLogout_refreshes hd waits first bound) fun _ b gone => ?_
  rcases gone with spoiled | ⟨waits', _, gone⟩
  · exact .inl spoiled
  · exact (dropped.trans gone).refreshed waits'

theorem DeletesRefreshing.step (hd : DeletesRefreshing p c del) : DeletesRefreshing p c (deleteClientStep env del) where
  fading := deleteClientStep_fading hd.fading
  refreshes := deleteClientStep_refreshes hd

theorem deleteClientFuel_refreshes : ∀ fuel, DeletesRefreshing p c (deleteClientFuel env fuel)
  | 0 => .step ⟨fun _ => .throw, fun _ _ _ _ => trivial⟩
  | fuel + 1 => .step (deleteClientFuel_refreshes fuel)

theorem deleteClientByFd_refreshes : DeletesRefreshing p c (deleteClientByFd env) where
  fading := deleteClientByFd_fading
  refreshes {_ _ a} h first bound conn := (deleteClientFuel_refreshes a.connects.size).refreshes h first bound conn

end

end IslandSurvival
