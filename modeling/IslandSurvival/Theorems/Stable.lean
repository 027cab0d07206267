import IslandSurvival.Theorems.Step

/-! What the moves keep, the functions keep: from the moves to the functions that call each other in a
    circle. Each function gets one theorem, in which the invariant is arbitrary. -/

namespace IslandSurvival

open Prog

/-- `I` is kept by the moves above the activations `base`. -/
structure Stable (env : Env) (base : List Frame) (I : List Frame → Server → Prop) : Prop where
  step : ∀ {k s l t}, Step env (k ++ base) s (l ++ base) t → I k s → I l t

/-- Also where a call ends the run, the invariant holds. -/
def Fails (I : List Frame → Server → Prop) (_ : Fault) (t : Server) : Prop := ∃ k, I k t

/-- With `k` pending, `c` keeps the invariant and returns with `k'` pending. -/
def Spec {α : Type} (I : List Frame → Server → Prop) (k : List Frame) (c : M α) (k' : List Frame) : Prop :=
  ∀ s, I k s → wp c (fun _ t => I k' t) (Fails I) s

section
variable {env : Env} {base : List Frame} {I : List Frame → Server → Prop} {k k' : List Frame} {s : Server}

/-! ### Rules -/

theorem Fails.intro {e : Fault} (h : I k s) : Fails I e s := ⟨k, h⟩

theorem wp_throw_of {α : Type} {e : Fault} {Q : α → Server → Prop} (h : I k s) : wp (throw e) Q (Fails I) s :=
  ⟨k, h⟩

theorem wp_guarded {α : Type} {x : Except Fault α} {Q : α → Server → Prop} {E : Fault → Server → Prop}
    (ok : ∀ a, x = .ok a → Q a s) (error : ∀ e, x = .error e → E e s) : wp (guarded x) Q E s := by
  cases x with
  | ok a => exact ok a rfl
  | error e => exact error e rfl

/-- A difference, which is undefined when it does not fit. -/
theorem wp_sub32 {a b : Int} {Q : Int → Server → Prop} {E : Fault → Server → Prop} (ok : Q (a - b) s)
    (error : ¬(int32Min ≤ a - b ∧ a - b ≤ int32Max) → E .signedOverflow s) : wp (guarded (sub32 a b)) Q E s := by
  unfold sub32 checked
  split
  · exact ok
  · rename_i outside
    exact error outside

@[simp] theorem wp_log {Q : Unit → Server → Prop} {E : Fault → Server → Prop} {e : Event} :
    wp (log e) Q E s = Q () (s.log e) := (rfl)

@[simp] theorem wp_getRoom {Q : Room → Server → Prop} {E : Fault → Server → Prop} {p : RoomPtr} :
    wp (getRoom p) Q E s = Q (s.room p) s := (rfl)

@[simp] theorem wp_modifyRoom {Q : Unit → Server → Prop} {E : Fault → Server → Prop} {p : RoomPtr}
    {f : Room → Room} : wp (modifyRoom p f) Q E s = Q () (s.setRoom p (f (s.room p))) := (rfl)

@[simp] theorem wp_getNowTimeUs {Q : Int → Server → Prop} {E : Fault → Server → Prop} :
    wp (getNowTimeUs env) Q E s = Q (env.clock s.sys) (s.tickSys 1) := (rfl)

@[simp] theorem wp_getNowTimeSecond {Q : Int → Server → Prop} {E : Fault → Server → Prop} :
    wp (getNowTimeSecond env) Q E s = Q (toInt32 (env.clock s.sys / 1000000)) (s.tickSys 1) := (rfl)

/-- The invariant of a call, together with a second one that the call keeps. -/
theorem Stable.and {J : List Frame → Server → Prop} (hI : Stable env base I) (hJ : Stable env base J) :
    Stable env base fun k s => I k s ∧ J k s where
  step move h := ⟨hI.step move h.1, hJ.step move h.2⟩

/-! ### Sending -/

/-- `SendMessageByConnfd` changes nothing but a socket. -/
theorem sendMessageByConnfd_spec (st : Stable env base I) (fd : Int) {mess : CMessage}
    (may : MaySend s mess (k ++ base)) (h : I k s) :
    wp (sendMessageByConnfd env fd mess) (fun _ t => I k t ∧ t.userIdToFd = s.userIdToFd) (Fails I) s := by
  simp only [sendMessageByConnfd, wp_bind, wp_get]
  cases hc : s.connects[fd]? with
  | none => exact ⟨h, rfl⟩
  | some c =>
    simp only
    split
    · rename_i long
      simp only [wp_bind, wp_log]
      exact wp_throw_of (st.step (.overrun hc may long) h)
    · rename_i hlen
      simp only [wp_bind]
      refine wp_guarded (fun out hout => ?_) fun e _ => .intro h
      exact ⟨st.step (.write hc (Nat.le_of_not_lt hlen) hout) h, rfl⟩

variable {del : Int → M Unit}

/-- What the functions of the circle rely on for `DeleteClientByFD`. -/
def Deletes (base : List Frame) (I : List Frame → Server → Prop) (del : Int → M Unit) : Prop :=
  ∀ k fd s, MayDrop s fd (k ++ base) → I k s → wp (del fd) (fun _ t => I k t) (Fails I) s

/-- `SendMessageToClient`, from the moment when the call is noted. -/
theorem sendMessageToClient_spec (st : Stable env base I) (hd : Deletes base I del) {userId : Int} {mess : CMessage}
    (may : MaySend (s.log (.sendTo userId mess)) mess (k ++ base)) (h : I k (s.log (.sendTo userId mess))) :
    wp (sendMessageToClient env del userId mess) (fun _ t => I k t) (Fails I) s := by
  simp only [sendMessageToClient, wp_bind, wp_log, wp_get]
  cases hfd : (s.log (.sendTo userId mess)).userIdToFd[userId]? with
  | none => exact h
  | some fd =>
    refine wp_bind ▸ wp_post (sendMessageByConnfd_spec st fd may h) fun ret t ⟨ht, hmap⟩ => ?_
    split
    · have h₂ : I (.kick userId fd :: k) (t.log (.writeError userId fd)) :=
        st.step (l := .kick userId fd :: k) (.kick may.sending (hmap ▸ hfd)) ht
      simp only [wp_bind, wp_log]
      exact wp_post (hd _ fd _ .kick h₂) fun _ u hu => st.step (k := .kick userId fd :: k) .kicked hu
    · exact ht

namespace Room

theorem deliver_spec (st : Stable env base I) (hd : Deletes base I del) {p : RoomPtr} {mess : CMessage}
    {i : Nat} (h : I (.everyone p mess i :: k) s) (hi : i ≤ (s.room p).playerCnt) :
    wp (deliver env del p mess i) (fun _ t => I (.everyone p mess (i + 1) :: k) t) (Fails I) s := by
  simp only [deliver, wp_bind, wp_getRoom]
  split
  · rename_i online
    have h₁ := st.step (k := .everyone p mess i :: k) (l := .delivering p mess i :: k) (.deliver hi online) h
    simp only [wp_bind, wp_log, wp_discard]
    exact wp_post (sendMessageToClient_spec st hd (.deliver rfl) h₁) fun _ t ht =>
      st.step (k := .delivering p mess i :: k) (l := .everyone p mess (i + 1) :: k) .delivered ht
  · rename_i offline
    exact st.step (k := .everyone p mess i :: k) (l := .everyone p mess (i + 1) :: k)
      (.skipSlot hi (by simpa using offline)) h

/-- The loop over the slots, for a body that works with `K i` pending at turn `i`. -/
theorem forSlots_spec {p : RoomPtr} {body : Nat → M Unit} {K : Nat → List Frame}
    (hbody : ∀ i s, I (K i) s → i ≤ (s.room p).playerCnt → wp (body i) (fun _ t => I (K (i + 1)) t) (Fails I) s) :
    ∀ fuel i s, I (K i) s →
      wp (forSlots p body fuel i) (fun _ t => ∃ j, I (K j) t ∧ (t.room p).playerCnt < j) (Fails I) s
  | 0, i, s, h => by
    simp only [forSlots, wp_bind, wp_getRoom]
    split
    · exact wp_throw_of h
    · rename_i hi
      exact ⟨i, h, Nat.lt_of_not_le hi⟩
  | fuel + 1, i, s, h => by
    simp only [forSlots, wp_bind, wp_getRoom]
    split
    · rename_i hi
      simp only [wp_bind]
      exact wp_post (hbody i s h hi) fun _ t ht => forSlots_spec hbody fuel (i + 1) t ht
    · rename_i hi
      exact ⟨i, h, Nat.lt_of_not_le hi⟩

/-- `SendMessageToEveryone`, from the moment when the call is noted. -/
theorem sendMessageToEveryone_spec (st : Stable env base I) (hd : Deletes base I del) {p : RoomPtr}
    {mess : CMessage} (h : I (.everyone p mess 1 :: k) (s.log (.broadcast p mess))) :
    wp (sendMessageToEveryone env del p mess) (fun _ t => I k t) (Fails I) s := by
  simp only [sendMessageToEveryone, wp_bind, wp_log]
  refine wp_post (forSlots_spec (K := fun i => .everyone p mess i :: k)
    (fun i s hs hi => deliver_spec st hd hs hi) maxPlayerCnt 1 _ h) fun _ t ht => ?_
  obtain ⟨j, ht, hj⟩ := ht
  exact st.step (k := .everyone p mess j :: k) (.everyoneEnd hj) ht

/-- The same, when an activation above `base` makes the call. -/
theorem everyone_spec (st : Stable env base I) (hd : Deletes base I del) {p : RoomPtr} {mess : CMessage}
    {f f' : Frame} (may : MayBroadcast s p mess f f') (h : I (f :: k) s) :
    wp (sendMessageToEveryone env del p mess) (fun _ t => I (f' :: k) t) (Fails I) s :=
  sendMessageToEveryone_spec st hd (st.step (k := f :: k) (l := .everyone p mess 1 :: f' :: k) (.everyone may) h)

/-- `SendGameStart`, in a state in which a start is due. -/
theorem sendGameStart_spec (st : Stable env base I) (hd : Deletes base I del) {p : RoomPtr}
    (due : (s.room p).status = .loading → I (.starting p false :: k) s)
    (idle : (s.room p).status ≠ .loading → I k s) :
    wp (sendGameStart env del p) (fun _ t => I k t) (Fails I) s := by
  simp only [sendGameStart, wp_bind, wp_getRoom]
  split
  · rename_i status
    exact idle status
  · rename_i status
    simp only [wp_bind, wp_getNowTimeUs, wp_modify]
    refine wp_post (everyone_spec st hd .starting (due (of_not_not status))) fun _ t ht => ?_
    have h₁ : I (.starting p true :: k) (t.tickSys 1) := st.step (.sys 1) ht
    have h₂ : I (.starting p true :: k) ((t.tickSys 1).tickSys 1) := st.step (.sys 1) h₁
    exact st.step (k := .starting p true :: k) (.start _ _) h₂

end Room

/-! ### The ring -/

namespace Syn

theorem getNowFrame_spec (st : Stable env base I) {p : RoomPtr} (may : MayUse s p (k ++ base)) (h : I k s) :
    wp (getNowFrame env p)
      (fun frame t => I k t ∧ frame = (t.room p).syn.nowFrame ∧
        ∃ syn, t = ((s.log (.synUse p (s.room p).status)).tickSys 1).setRoom p { s.room p with syn }) (Fails I) s := by
  have h₁ : I k ((s.log (.synUse p (s.room p).status)).tickSys 1) := st.step (.sys 1) (st.step (.synUse may) h)
  simp only [getNowFrame, wp_bind, wp_getNowTimeUs, wp_modifyRoom, wp_getRoom, wp_log, wp_pure]
  exact ⟨st.step (.updateTime p _) h₁, trivial, _, rfl⟩

/-- `SYN::Add`, where `store` is the move that the caller makes with it. -/
theorem addTo_spec (st : Stable env base I) {p : RoomPtr} {mess : CMessage} (may : MayUse s p (k ++ base)) (h : I k s)
    (store : ∀ t syn slot, t = (s.log (.synUse p (s.room p).status)).tickSys 1 → I k t →
      (t.room p).syn.add (env.clock s.sys) mess = .ok (syn, slot) →
      I k' ((t.setRoom p { t.room p with syn }).log (.synAdd p mess slot))) :
    wp (addTo env p mess) (fun _ t => I k' t) (Fails I) s := by
  have h₁ : I k ((s.log (.synUse p (s.room p).status)).tickSys 1) := st.step (.sys 1) (st.step (.synUse may) h)
  simp only [addTo, wp_bind, wp_getNowTimeUs, wp_getRoom, wp_log]
  exact wp_guarded (fun out hout => store _ out.1 out.2 rfl h₁ hout) fun _ _ => .intro h₁

theorem broadcast_spec (st : Stable env base I) (hd : Deletes base I del) {p : RoomPtr} {mess : CMessage}
    (h : I (.casting p mess false :: k) (s.log (.synSend p mess))) :
    wp (broadcast env del p mess) (fun _ t => I k t) (Fails I) s := by
  simp only [broadcast, wp_bind, wp_log]
  exact wp_post (Room.everyone_spec st hd .casting h) fun _ _ ht =>
    st.step (k := .casting p mess true :: k) .castDone ht

/-- The head slot does not move while its messages are sent. -/
theorem sendFrameMess_spec (st : Stable env base I) (hd : Deletes base I del) {p : RoomPtr} {f : Int}
    (h : I (.frame p f none :: k) s) :
    wp (sendFrameMess env del p) (fun _ t => I (.frame p f (some 0) :: k) t) (Fails I) s := by
  simp only [sendFrameMess, wp_bind, wp_getRoom]
  refine wp_guarded (fun slot hslot => ?_) fun _ _ => .intro h
  split
  · rename_i empty
    rw [empty]
    exact broadcast_spec st hd (st.step (k := .frame p f none :: k)
      (l := .casting p _ false :: .frame p f (some 0) :: k) (.castEmpty hslot empty) h)
  · rename_i filled
    exact st.step (k := .frame p f none :: k) (l := .frame p f (some 0) :: k) (.castNone hslot filled) h

theorem sendSlot_spec (st : Stable env base I) (hd : Deletes base I del) {p : RoomPtr} {f : Int} :
    ∀ fuel i s, I (.frame p f (some i) :: k) s →
      wp (sendSlot env del p fuel i)
        (fun _ t => ∃ j h, I (.frame p f (some j) :: k) t ∧ slot (t.room p).syn.head = .ok h ∧
          ((t.room p).syn.oneframe h).mess[j]? = none) (Fails I) s
  | 0, i, s, h => by
    simp only [sendSlot, wp_bind, wp_getRoom]
    refine wp_guarded (fun slot hslot => ?_) fun _ _ => .intro h
    split
    · exact wp_throw_of h
    · rename_i hi
      exact ⟨i, slot, h, hslot, List.getElem?_eq_none (Nat.le_of_not_lt hi)⟩
  | fuel + 1, i, s, h => by
    simp only [sendSlot, wp_bind, wp_getRoom]
    refine wp_guarded (fun slot hslot => ?_) fun _ _ => .intro h
    split
    · rename_i none
      exact ⟨i, slot, h, hslot, none⟩
    · rename_i mess some
      simp only [wp_bind, wp_modifyRoom]
      refine wp_post (broadcast_spec st hd (st.step (k := .frame p f (Option.some i) :: k)
        (l := .casting p _ false :: .frame p f (Option.some (i + 1)) :: k) (.cast hslot some) h)) fun _ t ht => ?_
      exact sendSlot_spec st hd fuel (i + 1) t ht

theorem sendHeadFrameToAll_spec (st : Stable env base I) (hd : Deletes base I del) {p : RoomPtr}
    (h : I (.running p :: k) s) (due : (s.room p).syn.due = .ok true) :
    wp (sendHeadFrameToAll env del p) (fun _ t => I (.framed p :: .running p :: k) t) (Fails I) s := by
  simp only [sendHeadFrameToAll, wp_bind, wp_getRoom, wp_log]
  have h₁ := st.step (k := .running p :: k) (l := .frame p _ none :: .running p :: k) (.frameBegin due) h
  refine wp_post (sendFrameMess_spec st hd h₁) fun _ t ht => ?_
  refine wp_post (sendSlot_spec st hd _ _ t ht) fun _ u ⟨j, slot, hu, hslot, last⟩ => ?_
  refine wp_guarded (fun slot' hslot' => ?_) fun _ _ => .intro hu
  obtain rfl : slot' = slot := Except.ok.inj (hslot'.symm.trans hslot)
  exact st.step (k := .frame p _ (some j) :: .running p :: k) (l := .framed p :: .running p :: k)
    (.frameEnd hslot last) hu

theorem runLoop_spec (st : Stable env base I) (hd : Deletes base I del) {p : RoomPtr} :
    ∀ fuel s, I (.running p :: k) s → wp (runLoop env del p fuel) (fun _ t => I k t) (Fails I) s
  | 0, s, h => wp_throw_of h
  | fuel + 1, s, h => by
    simp only [runLoop, wp_bind, wp_getRoom]
    refine wp_guarded (fun due hdue => ?_) fun _ _ => .intro h
    split
    · rename_i htrue
      simp only [wp_bind, wp_getRoom, wp_modifyRoom]
      refine wp_post (sendHeadFrameToAll_spec st hd h (htrue ▸ hdue)) fun _ t ht => ?_
      refine wp_guarded (fun syn hsyn => ?_) fun _ _ => .intro ht
      exact runLoop_spec st hd fuel _
        (st.step (k := .framed p :: .running p :: k) (l := .running p :: k) (.advance hsyn) ht)
    · exact st.step (k := .running p :: k) .runEnd h

end Syn

/-! ### Departures -/

/-- `DeletePlayer`, in a state in which the user may leave the room. -/
theorem Room.deletePlayer_spec (st : Stable env base I) (hd : Deletes base I del) {p : RoomPtr} {userId : Int}
    (missing : (s.room p).getPlayerId userId = 0 → I k s)
    (leave : (s.room p).getPlayerId userId ≠ 0 → I ((s.room p).departing userId p :: k)
      ((s.setRoom p ((s.room p).vacate ((s.room p).getPlayerId userId))).log
        (.leave p ((s.room p).getPlayerId userId) (s.room p).status))) :
    wp (Room.deletePlayer env del p userId) (fun _ t => I k t) (Fails I) s := by
  simp only [Room.deletePlayer, wp_bind, wp_getRoom]
  split
  · rename_i pos
    exact missing pos
  · rename_i pos
    have h := leave pos
    cases status : (s.room p).status with
    | waiting =>
      simp only [wp_bind, wp_modify, wp_get, wp_pure]
      simp only [Room.departing, Room.vacate, status] at h
      refine wp_post (Room.everyone_spec st hd .leaving h) fun _ t ht => ?_
      exact st.step (k := .leaving userId p true :: k) .left ht
    | loading =>
      simp only [wp_bind, wp_modify, wp_getRoom]
      simp only [Room.departing, Room.vacate, status] at h
      generalize (s.room p).getPlayerId userId = i at h
      refine wp_post (Room.everyone_spec st hd .exiting h) fun _ t ht => ?_
      split
      · rename_i loaded
        exact st.step (k := .exiting p i true :: k) (.uncount loaded) ht
      · rename_i unloaded
        have unloaded : (t.room p).isLoadingSucceed i = false := by simpa using unloaded
        simp only [wp_bind, wp_log]
        split
        · rename_i all
          simp only [wp_bind, wp_pure]
          refine Room.sendGameStart_spec st hd (fun loading => ?_) fun idle => ?_
          · exact st.step (k := .exiting p i true :: k) (l := .starting p false :: k) (.exitStart unloaded all loading) ht
          · exact st.step (k := .exiting p i true :: k) (.exited unloaded (.inr idle)) ht
        · rename_i waits
          exact st.step (k := .exiting p i true :: k) (.exited unloaded (.inl (Int.lt_of_not_ge waits))) ht
    | ingame =>
      simp only [wp_bind, wp_modify, wp_pure]
      simp only [Room.departing, Room.vacate, status] at h
      refine wp_post (Syn.getNowFrame_spec st .quitting h) fun frame t ⟨ht, hframe, _⟩ => ?_
      subst hframe
      refine Syn.addTo_spec st .quitting ht fun u syn slot hu h₁ hadd => ?_
      subst hu
      exact st.step (k := .quitting p _ :: k) (.quit hadd) h₁

/-- `DeletePlayerFromRoom`, where `leave` is the move in which the user leaves the room. -/
theorem RoomManager.deletePlayerFromRoom_spec (st : Stable env base I) (hd : Deletes base I del) {userId : Int}
    (notBound : s.belongRoom[userId]? = none → I k s)
    (missing : ∀ p, s.belongRoom[userId]? = some p → (s.room p).getPlayerId userId = 0 →
      I k { s with belongRoom := s.belongRoom.erase userId })
    (leave : ∀ p, s.belongRoom[userId]? = some p → (s.room p).getPlayerId userId ≠ 0 →
      I ((s.room p).departing userId p :: k) (RoomManager.departed userId p s)) :
    wp (RoomManager.deletePlayerFromRoom env del userId) (fun _ t => I k t) (Fails I) s := by
  simp only [RoomManager.deletePlayerFromRoom, wp_bind, wp_get]
  cases belong : s.belongRoom[userId]? with
  | none => exact notBound belong
  | some p =>
    simp only [wp_bind, wp_modify]
    exact Room.deletePlayer_spec st hd (missing p belong) (leave p belong)

/-- `PersonLogout` of a user that was just unbound from its connection. -/
theorem PersonManager.personLogout_spec (st : Stable env base I) (hd : Deletes base I del) {fd userId fd' : Int}
    (h : I (.logout fd userId fd' :: k) s) :
    wp (PersonManager.personLogout env del userId) (fun _ t => I (.forgotten fd userId fd' :: k) t) (Fails I) s := by
  have forget : ∀ t, I (.exited fd userId fd' :: k) t →
      I (.forgotten fd userId fd' :: k) { t with persons := t.persons.erase userId } :=
    fun t ht => st.step (k := .exited fd userId fd' :: k) (l := .forgotten fd userId fd' :: k) .forget ht
  have move : ∀ {l t}, Step env (.logout fd userId fd' :: (k ++ base)) s (l ++ base) t → I l t :=
    fun step => st.step (k := .logout fd userId fd' :: k) step h
  simp only [PersonManager.personLogout, wp_bind, wp_get]
  cases hp : s.persons[userId]? with
  | none => exact move (l := .forgotten fd userId fd' :: k) (.noPerson hp)
  | some person =>
    simp only
    cases status : person.status with
    | inHall =>
      simp only [wp_bind, wp_pure, wp_modify]
      exact forget s (move (l := .exited fd userId fd' :: k) (.inHall hp status))
    | inRoom =>
      simp only [wp_bind, wp_discard, wp_modify, wp_pure]
      refine wp_post (RoomManager.deletePlayerFromRoom_spec (k := .exited fd userId fd' :: k) st hd
        (fun belong => ?_) (fun p belong pos => ?_) fun p belong pos => ?_) fun _ t ht => forget t ht
      · exact move (l := .exited fd userId fd' :: k) (.notBound hp status belong)
      · exact move (l := .exited fd userId fd' :: k) (.notInRoom hp status belong pos)
      · exact move (l := _ :: .exited fd userId fd' :: k) (.leave hp status belong pos)

/-- `PlayerLogout` of the user of a connection that was just erased. -/
theorem playerLogout_spec (st : Stable env base I) (hd : Deletes base I del) {fd userId : Int}
    (user : s.fdToUserId[fd]? = some userId) (h : I (.drop fd :: k) s) :
    wp (playerLogout env del userId) (fun _ t => I k t) (Fails I) s := by
  simp only [playerLogout, wp_bind, wp_get]
  cases bound : s.userIdToFd[userId]? with
  | none => exact st.step (k := .drop fd :: k) (.dropStale user bound) h
  | some fd' =>
    have h₁ := st.step (k := .drop fd :: k) (l := .logout fd userId fd' :: k) (.logout user bound) h
    simp only [wp_bind, wp_modify, wp_discard]
    exact wp_post (PersonManager.personLogout_spec st hd h₁) fun _ t ht =>
      st.step (k := .forgotten fd userId fd' :: k) .logoutDone ht

theorem deleteClientStep_spec (st : Stable env base I) (hd : Deletes base I del) :
    Deletes base I (deleteClientStep env del) := by
  intro k fd s may h
  simp only [deleteClientStep, wp_bind, wp_get]
  cases conn : s.connects[fd]? with
  | none => exact h
  | some c =>
    have h₁ := st.step (l := .drop fd :: k) (.drop may conn) h
    simp only [wp_bind, wp_modify, wp_get]
    cases user : (dropConnection fd c s).fdToUserId[fd]? with
    | none => exact st.step (k := .drop fd :: k) (.dropAnon user) h₁
    | some userId => exact playerLogout_spec st hd user h₁

/-- The circle closes, whatever the depth of nested deletions. -/
theorem deleteClientFuel_spec (st : Stable env base I) : ∀ fuel, Deletes base I (deleteClientFuel env fuel)
  | 0 => deleteClientStep_spec st fun _ _ _ _ h => wp_throw_of h
  | fuel + 1 => deleteClientStep_spec st (deleteClientFuel_spec st fuel)

theorem deleteClientByFd_spec (st : Stable env base I) : Deletes base I (deleteClientByFd env) := by
  intro k fd s may h
  simp only [deleteClientByFd, wp_bind, wp_get]
  exact deleteClientFuel_spec st _ k fd s may h

end

end IslandSurvival
