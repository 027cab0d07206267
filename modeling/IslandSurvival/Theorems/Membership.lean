import IslandSurvival.Theorems.Tenants

/-! Room membership. `belong_room_`, the slots of the rooms and the status of the `Person` are updated by
    different objects. `GameEndFromRoom` erases the user from `belong_room_` before `Room::GameEnd` finds
    out whether there is a game to end; as long as every game that is ended is running, the three records
    agree. -/

namespace IslandSurvival

/-- The user of a pending departure, who is in no room any more -/
def Frame.away? : Frame → Option Int
  | .leaving userId _ _ => some userId
  | .exited _ userId _ => some userId
  | _ => none

/-- Every `CSGameEnd` that was processed to its end came from a room that was in game. -/
def gamesEndInGame : List Event → Bool
  | [] => true
  | .gameEnd _ _ status :: older => decide (status = .ingame) && gamesEndInGame older
  | _ :: older => gamesEndInGame older

/-- The members of the rooms in use are in `belong_room_`, once. -/
structure Seats (belong rooms : Map RoomPtr) (members : RoomPtr → List Int) : Prop where
  seat : ∀ {id : Int} {p : RoomPtr}, rooms[id]? = some p → ∀ {u : Int}, u ∈ members p → belong[u]? = some p
  nodup : ∀ {id : Int} {p : RoomPtr}, rooms[id]? = some p → (members p).Nodup

namespace Seats

variable {belong rooms : Map RoomPtr} {members : RoomPtr → List Int} {u id : Int} {p : RoomPtr}

theorem empty : Seats ∅ ∅ members where
  seat := by simp
  nodup := by simp

/-- A user takes a seat in a room. -/
theorem join (h : Seats belong rooms members) (free : u ∉ belong) :
    Seats (belong.insert u p) rooms (Function.update members p (members p ++ [u])) where
  seat {id q} room v hv := by
    have other : v ∈ members q → u ≠ v := by
      rintro mem rfl
      exact free (Map.mem_of_getElem? (h.seat room mem))
    rw [Map.getElem?_insert]
    by_cases hq : q = p
    · subst hq
      rw [Function.update_self, List.mem_append, List.mem_singleton] at hv
      rcases hv with hv | rfl
      · rw [if_neg (other hv)]
        exact h.seat room hv
      · rw [if_pos rfl]
    · rw [Function.update_of_ne hq] at hv
      rw [if_neg (other hv)]
      exact h.seat room hv
  nodup {id q} room := by
    by_cases hq : q = p
    · subst hq
      rw [Function.update_self]
      have notMember : u ∉ members q := fun hu => free (Map.mem_of_getElem? (h.seat room hu))
      exact List.nodup_append.mpr ⟨h.nodup room, List.nodup_singleton u, by
        rintro v hv w hw rfl
        exact notMember (List.mem_singleton.mp hw ▸ hv)⟩
    · rw [Function.update_of_ne hq]
      exact h.nodup room

/-- A room that is in no use is entered without members. -/
theorem openRoom (h : Seats belong rooms members) (unused : ∀ id' : Int, rooms[id']? ≠ some p) :
    Seats belong (rooms.insert id p) (Function.update members p []) where
  seat {id' q} room v hv := by
    by_cases hq : q = p
    · subst hq
      rw [Function.update_self] at hv
      exact absurd hv List.not_mem_nil
    · rw [Function.update_of_ne hq] at hv
      rw [Map.getElem?_insert] at room
      split at room
      · exact absurd (Option.some.inj room).symm hq
      · exact h.seat room hv
  nodup {id' q} room := by
    by_cases hq : q = p
    · subst hq
      rw [Function.update_self]
      exact List.nodup_nil
    · rw [Map.getElem?_insert] at room
      split at room
      · exact absurd (Option.some.inj room).symm hq
      · rw [Function.update_of_ne hq]
        exact h.nodup room

/-- A user leaves its room. -/
theorem leave (h : Seats belong rooms members) (hu : belong[u]? = some p) {rest : List Int}
    (perm : (u :: rest).Perm (members p)) : Seats (belong.erase u) rooms (Function.update members p rest) where
  seat {id q} room v hv := by
    rw [Map.getElem?_erase]
    by_cases hq : q = p
    · subst hq
      rw [Function.update_self] at hv
      have nodup := List.nodup_cons.mp (perm.nodup_iff.mpr (h.nodup room))
      rw [if_neg]
      · exact h.seat room (perm.mem_iff.mp (List.mem_cons_of_mem _ hv))
      · rintro rfl
        exact nodup.1 hv
    · rw [Function.update_of_ne hq] at hv
      have here := h.seat room hv
      rw [if_neg, here]
      rintro rfl
      exact hq (Option.some.inj (here.symm.trans hu))
  nodup {id q} room := by
    by_cases hq : q = p
    · subst hq
      rw [Function.update_self]
      exact (List.nodup_cons.mp (perm.nodup_iff.mpr (h.nodup room))).2
    · rw [Function.update_of_ne hq]
      exact h.nodup room

/-- A room is taken out. -/
theorem closeRoom (h : Seats belong rooms members) : Seats belong (rooms.erase id) members where
  seat room := h.seat (Rooms.getElem?_of_erase room)
  nodup room := h.nodup (Rooms.getElem?_of_erase room)

end Seats

/-- `belong_room_` against the status of the persons; `away` have left their room but not yet the status. -/
structure Present (away : List Int) (belong : Map RoomPtr) (persons : Map Person) : Prop where
  inRoom : ∀ {u : Int}, u ∈ belong → ∃ person, persons[u]? = some person ∧ person.status = .inRoom
  belongs : ∀ {u : Int} {person : Person}, persons[u]? = some person → person.status = .inRoom → u ∈ belong ∨ u ∈ away
  away : ∀ {u : Int}, u ∈ away → u ∉ belong

namespace Present

variable {away : List Int} {belong : Map RoomPtr} {persons : Map Person} {u : Int} {p : RoomPtr}

theorem empty : Present [] ∅ ∅ where
  inRoom := by simp
  belongs := by simp
  away := by simp

theorem enter (h : Present away belong persons) {person : Person} (free : persons[u]? = none)
    (hall : person.status = .inHall) : Present away belong (persons.insert u person) where
  inRoom {v} hv := by
    obtain ⟨old, hold, room⟩ := h.inRoom hv
    refine ⟨old, ?_, room⟩
    rw [Map.getElem?_insert, if_neg, hold]
    rintro rfl
    simp [free] at hold
  belongs {v old} hv room := by
    rw [Map.getElem?_insert] at hv
    split at hv
    · obtain rfl := Option.some.inj hv
      simp [hall] at room
    · exact h.belongs hv room
  away := h.away

theorem join (h : Present [] belong persons) (person : u ∈ persons) :
    Present [] (belong.insert u p) (PersonManager.changed u .inRoom persons) where
  inRoom {v} hv := by
    by_cases huv : v = u
    · subst huv
      obtain ⟨old, hold⟩ := Map.mem_iff.mp person
      exact ⟨{ old with status := .inRoom }, by rw [PersonManager.changed_self, hold, Option.map_some], rfl⟩
    · rw [PersonManager.changed_ne huv]
      exact h.inRoom ((Map.mem_insert.mp hv).resolve_left (Ne.symm huv))
  belongs {v old} hv room := by
    by_cases huv : v = u
    · exact .inl (Map.mem_insert.mpr (.inl huv.symm))
    · rw [PersonManager.changed_ne huv] at hv
      exact (h.belongs hv room).imp_left fun hb => Map.mem_insert.mpr (.inr hb)
  away hu := absurd hu List.not_mem_nil

theorem leave (h : Present away belong persons) : Present (u :: away) (belong.erase u) persons where
  inRoom hv := h.inRoom (Map.mem_erase.mp hv).2
  belongs {v old} hv room := by
    by_cases huv : u = v
    · exact .inr (huv ▸ List.mem_cons_self)
    · exact (h.belongs hv room).imp (fun hb => Map.mem_erase.mpr ⟨huv, hb⟩) (List.mem_cons_of_mem _)
  away {v} hv hb := by
    obtain ⟨huv, hb⟩ := Map.mem_erase.mp hb
    exact h.away ((List.mem_cons.mp hv).resolve_left (Ne.symm huv)) hb

theorem leaveAgain (h : Present away belong persons) (free : u ∉ belong) : Present (u :: away) belong persons where
  inRoom := h.inRoom
  belongs hv room := (h.belongs hv room).imp_right (List.mem_cons_of_mem _)
  away {v} hv hb := by
    rcases List.mem_cons.mp hv with rfl | hv
    · exact free hb
    · exact h.away hv hb

theorem hall (h : Present (u :: away) belong persons) :
    Present away belong (PersonManager.changed u .inHall persons) where
  inRoom {v} hv := by
    rw [PersonManager.changed_ne]
    · exact h.inRoom hv
    · rintro rfl
      exact h.away List.mem_cons_self hv
  belongs {v person} hv room := by
    by_cases huv : v = u
    · subst huv
      rw [PersonManager.changed_self, Option.map_eq_some_iff] at hv
      obtain ⟨old, -, rfl⟩ := hv
      simp at room
    · rw [PersonManager.changed_ne huv] at hv
      exact (h.belongs hv room).imp_right fun hm => (List.mem_cons.mp hm).resolve_left huv
  away hv := h.away (List.mem_cons_of_mem _ hv)

theorem forget (h : Present (u :: away) belong persons) : Present away belong (persons.erase u) where
  inRoom {v} hv := by
    rw [Map.getElem?_erase, if_neg]
    · exact h.inRoom hv
    · rintro rfl
      exact h.away List.mem_cons_self hv
  belongs {v person} hv room := by
    rw [Map.getElem?_erase] at hv
    split at hv
    · cases hv
    · rename_i huv
      exact (h.belongs hv room).imp_right fun hm => (List.mem_cons.mp hm).resolve_left (Ne.symm huv)
  away hv := h.away (List.mem_cons_of_mem _ hv)

end Present

/-! ### Over runs -/

/-- The records of a configuration -/
def Membership (k : List Frame) (s : Server) : Prop :=
  Seats s.belongRoom s.rooms (fun p => (s.room p).members) ∧ Present (k.filterMap Frame.away?) s.belongRoom s.persons

variable {env : Env} {k k' : List Frame} {s s' : Server}

theorem Membership.setRoom (h : Membership k s) {p : RoomPtr} {r : Room} (members : r.members = (s.room p).members) :
    Membership k (s.setRoom p r) := by
  refine ⟨?_, h.2⟩
  rw [Server.members_setRoom, members, Function.update_eq_self]
  exact h.1

/-- The departure of a user: the records change together. -/
theorem Membership.departed (h : Membership k s) (rooms : Rooms s) (housed : Housed s) {u : Int} {p : RoomPtr}
    (belong : s.belongRoom[u]? = some p) :
    Seats (RoomManager.departed u p s).belongRoom (RoomManager.departed u p s).rooms
      (fun q => ((RoomManager.departed u p s).room q).members) ∧
      Present (u :: k.filterMap Frame.away?) (RoomManager.departed u p s).belongRoom
        (RoomManager.departed u p s).persons := by
  have mem := housed.member belong
  obtain ⟨slot, online, player⟩ := Room.getPlayerId_spec (Room.getPlayerId_ne_zero.mpr mem)
  have perm := Room.members_vacate (rooms.counted (rooms.belong belong)) slot online
  rw [player] at perm
  refine ⟨?_, h.2.leave⟩
  have moved := h.1.leave belong perm
  rw [← Server.members_setRoom] at moved
  exact moved

/-- A game that is ended is running. -/
def EndsInGame (k : List Frame) (s s' : Server) : Prop :=
  ∀ {fd u : Int} {mess : CMessage} {p : RoomPtr}, k = [.handling fd (some u) mess] →
    s'.trace = .gameEnd u p (s.room p).status :: s.trace → (s.room p).status = .ingame

theorem membership_step (move : Step env k s k' s') (users : Users k s) (rooms : Rooms s) (housed : Housed s)
    (snapshot : Snapshot k s) (ended : EndsInGame k s s') (h : Membership k s) : Membership k' s' := by
  cases move with
  | drop _ _ =>
    obtain ⟨_, _, _, _, _, hs⟩ := dropConnection_eq _ _ s
    rw [hs]
    exact h
  | inHall some hall =>
    refine ⟨h.1, h.2.leaveAgain fun mem => ?_⟩
    obtain ⟨person, here, room⟩ := h.2.inRoom mem
    obtain rfl := Option.some.inj (some.symm.trans here)
    simp [hall] at room
  | notBound some _ none =>
    rw [users.userId some] at none
    exact ⟨h.1, h.2.leaveAgain (Map.notMem_of_getElem? none)⟩
  | notInRoom some _ belong pos =>
    exact absurd pos (Room.getPlayerId_ne_zero.mpr (housed.member belong))
  | @leave _ _ _ _ _ person p some _ belong _ =>
    obtain ⟨seats, present⟩ := h.departed rooms housed belong
    refine ⟨seats, ?_⟩
    have user := users.userId some
    rw [user] at present ⊢
    unfold Room.departing
    cases (s.room p).status with
    | waiting => exact present.leaveAgain (present.away List.mem_cons_self)
    | loading => exact present
    | ingame => exact present
  | forget => exact ⟨h.1, h.2.forget⟩
  | left =>
    rw [PersonManager.changePersonStatus_eq]
    exact ⟨h.1, h.2.hall⟩
  | enter _ _ _ person =>
    have free := (PersonManager.personLogin_eq person).1
    rw [enter_eq person (users.userIdToFd_none free)]
    exact ⟨h.1, h.2.enter free rfl⟩
  | heartbeat _ old =>
    obtain ⟨_, _, rfl⟩ := Heartbeat.erased old
    exact h
  | @create _ _ u _ gameMode teamMode _ bound free =>
    obtain ⟨p, roomId, freeRoom, roomCnt, nextRoomId, garbage, takes, hs⟩ :=
      RoomManager.created_eq u gameMode teamMode s
    rw [hs]
    obtain ⟨-, unused⟩ := rooms.takes takes
    refine ⟨?_, h.2.join (users.mem_persons bound)⟩
    have opened : Seats s.belongRoom (s.rooms.insert roomId p) (Function.update (fun q => (s.room q).members) p []) :=
      h.1.openRoom unused
    have joined := opened.join (p := p) free
    rw [Function.update_self, Function.update_idem, List.nil_append] at joined
    have members : ((Room.init gameMode teamMode roomId garbage).addSlot u).members = [u] := Room.members_addSlot
    rw [← members, ← Server.members_setRoom] at joined
    exact joined
  | @join _ _ u _ p id _ bound room free _ _ =>
    rw [RoomManager.joined_eq]
    refine ⟨?_, h.2.join (users.mem_persons bound)⟩
    have joined := h.1.join (p := p) free
    rw [← Room.members_addSlot, ← Server.members_setRoom] at joined
    exact joined
  | exitRoom belong _ _ => exact h.departed rooms housed belong
  | exitMissing belong _ pos => exact absurd pos (Room.getPlayerId_ne_zero.mpr (housed.member belong))
  | @change _ _ u _ p teamId gameOption _ _ =>
    obtain ⟨_, _, hr⟩ := MP.applyChange_eq u teamId gameOption (s.room p)
    rw [hr]
    exact h.setRoom (Room.members_congr rfl rfl rfl)
  | @gameEnd _ _ u _ p belong status _ =>
    rw [PersonManager.changePersonStatus_eq]
    obtain ⟨seats, present⟩ := h.departed rooms housed belong
    refine ⟨?_, present.hall⟩
    have offline : (s.room p).vacate ((s.room p).getPlayerId u) = (s.room p).setOffline ((s.room p).getPlayerId u) := by
      simp [Room.vacate, status]
    simp only [RoomManager.departed, offline] at seats
    exact seats
  | @gameEndFail _ _ _ _ p belong fails =>
    have missing := fails.resolve_left (not_not_intro (ended rfl rfl))
    exact absurd missing (Room.getPlayerId_ne_zero.mpr (housed.member belong))
  | recycle _ =>
    obtain ⟨rfl, -⟩ := snapshot _ List.mem_cons_self
    exact ⟨h.1.closeRoom, h.2⟩
  | acceptFail sock acc _ =>
    obtain ⟨_, _, _, _, _, rfl⟩ := acceptSocket_eq sock acc
    exact h
  | acceptLost sock acc _ =>
    obtain ⟨_, _, _, _, _, rfl⟩ := acceptSocket_eq sock acc
    exact h
  | accept _ sock acc _ =>
    obtain ⟨_, _, _, hs⟩ := accepted_eq _ _ _
    rw [hs]
    obtain ⟨_, _, _, _, _, rfl⟩ := acceptSocket_eq sock acc
    exact h
  | everyone may => cases may <;> exact h
  | _ =>
    first
    | exact h
    | exact h.setRoom (Room.members_congr rfl rfl rfl)

theorem gamesEndInGame_of_suffix {older newer : List Event} (h : older <:+ newer) (inGame : gamesEndInGame newer) :
    gamesEndInGame older := by
  obtain ⟨events, rfl⟩ := h
  induction events with
  | nil => exact inGame
  | cons e events ih =>
    refine ih ?_
    cases e with
    | gameEnd _ _ _ =>
      simp only [List.cons_append, gamesEndInGame, Bool.and_eq_true] at inGame
      exact inGame.2
    | _ => exact inGame

theorem Config.membership (h : Config env k s) (inGame : gamesEndInGame s.trace) : Membership k s := by
  induction h with
  | boot booted =>
    unfold Membership
    rw [booted.belongRoom, booted.rooms, booted.persons]
    exact ⟨.empty, .empty⟩
  | step reached move ih =>
    have before := ih (gamesEndInGame_of_suffix (trace_step move) inGame)
    refine membership_step move reached.users reached.rooms reached.tenancy.1 reached.snapshot ?_ before
    rintro fd u mess p - trace
    simp only [trace, gamesEndInGame, Bool.and_eq_true, decide_eq_true_eq] at inGame
    exact inGame.1

/-- The three records of room membership agree. -/
structure MembershipAgrees (s : Server) : Prop where
  slot : ∀ {id : Int} {p : RoomPtr}, s.rooms[id]? = some p → ∀ u : Int, s.belongRoom[u]? = some p ↔
    ∃ i, 1 ≤ i ∧ i ≤ (s.room p).playerCnt ∧ (s.room p).isOnline i = true ∧ (s.room p).players i = u
  unique : ∀ {id id' : Int} {p q : RoomPtr}, s.rooms[id]? = some p → s.rooms[id']? = some q → ∀ {i j : Nat},
    1 ≤ i → i ≤ (s.room p).playerCnt → (s.room p).isOnline i = true →
    1 ≤ j → j ≤ (s.room q).playerCnt → (s.room q).isOnline j = true →
    (s.room p).players i = (s.room q).players j → p = q ∧ i = j
  person : ∀ u : Int, u ∈ s.belongRoom ↔ ∃ person, s.persons[u]? = some person ∧ person.status = .inRoom

/-- With nothing pending, the records of room membership agree. -/
theorem MembershipAgrees.of_seats (tenants : Housed s) (seats : Seats s.belongRoom s.rooms fun p => (s.room p).members)
    (present : Present [] s.belongRoom s.persons) : MembershipAgrees s := by
  refine ⟨fun room u => ?_, fun {id id' p q} room room' i j hi hn online hj hm online' same => ?_, fun u => ⟨present.inRoom, ?_⟩⟩
  · rw [← Room.mem_members]
    exact ⟨tenants.member, seats.seat room⟩
  · have here := seats.seat room (Room.mem_members.mpr ⟨i, hi, hn, online, rfl⟩)
    have there := seats.seat room' (Room.mem_members.mpr ⟨j, hj, hm, online', rfl⟩)
    rw [same, there] at here
    obtain rfl := Option.some.inj here
    refine ⟨rfl, ?_⟩
    rw [← Room.getPlayerId_of_nodup (seats.nodup room) (Room.mem_slots.mpr ⟨hi, hn⟩) online, same,
      Room.getPlayerId_of_nodup (seats.nodup room) (Room.mem_slots.mpr ⟨hj, hm⟩) online']
  · rintro ⟨person, here, room⟩
    exact (present.belongs here room).resolve_right List.not_mem_nil

/-- In a run in which only running games are ended, the records of room membership agree. -/
theorem membership_agrees (h : Reachable env s) (inGame : gamesEndInGame s.trace) : MembershipAgrees s :=
  .of_seats h.config.tenancy.1 (h.config.membership inGame).1 (h.config.membership inGame).2

/-- A user that asks for the end of a game while waiting leaves `belong_room_` but not its slot. -/
theorem game_end_while_waiting_breaks_membership : ∃ s,
    Reachable (Script.oneClient (Script.request 0 ++ Script.request 9 ++ Script.request 0x21)) s ∧
      ¬MembershipAgrees s := by
  obtain ⟨s, reachable, test⟩ := exists_of_ends 2
    (fun s => s.rooms[(1000 : Int)]? == some 0 && (s.room 0).getPlayerId 1 != 0 && s.belongRoom[(1 : Int)]? == none)
    (Script.reachable (Script.oneClient (Script.request 0 ++ Script.request 9 ++ Script.request 0x21)))
    (by decide +kernel)
  simp only [Bool.and_eq_true, beq_iff_eq, bne_iff_ne] at test
  obtain ⟨⟨room, pos⟩, free⟩ := test
  refine ⟨s, reachable, fun agree => ?_⟩
  have here := (agree.slot room 1).mpr (Room.mem_members.mp (Room.getPlayerId_ne_zero.mp pos))
  rw [free] at here
  cases here

/-- With a user in a room that waits, the records agree. -/
theorem membership_agrees_in_room : ∃ s, Reachable (Script.oneClient (Script.request 0 ++ Script.request 9)) s ∧
    s.belongRoom[(1 : Int)]? = some 0 ∧ MembershipAgrees s := by
  obtain ⟨s, reachable, test⟩ := exists_of_ends 2
    (fun s => s.belongRoom[(1 : Int)]? == some 0 && gamesEndInGame s.trace)
    (Script.reachable (Script.oneClient (Script.request 0 ++ Script.request 9))) (by decide +kernel)
  simp only [Bool.and_eq_true, beq_iff_eq] at test
  exact ⟨s, reachable, test.1, membership_agrees reachable test.2⟩

end IslandSurvival
