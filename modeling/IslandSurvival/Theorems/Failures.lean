import IslandSurvival.Theorems.Nesting
import IslandSurvival.Theorems.Stack

/-! Which connections are deleted with others. Apart from those that the main loop deletes itself, they are the
    connections on which a write failed. -/

namespace IslandSurvival

def Event.isExpire : Event → Bool
  | .expire _ _ => true
  | _ => false

theorem failures_append (events older : List Event) : failures (events ++ older) = failures events ++ failures older := by
  induction events with
  | nil => rfl
  | cons e events ih =>
    cases e with
    | writeError _ _ => exact congrArg _ ih
    | _ => exact ih

/-- The connection that a pending deletion after a failed write is for -/
def Frame.kick? : Frame → Option Int
  | .kick _ fd => some fd
  | _ => none

theorem Room.departing_kick (u : Int) (p : RoomPtr) (r : Room) : (r.departing u p).kick? = none := by
  unfold Room.departing
  split <;> rfl

/-- From `s` to `t`, the connections that are deleted are those on which a write failed, and `roots`. -/
structure DeletesBy (events : List Event) (s : Server) (roots : Int → Prop) (k : List Frame) (t : Server) : Prop where
  trace : t.trace = events ++ s.trace
  quiet : ∀ e ∈ events, e.isExpire = false
  kicks : ∀ fd' ∈ k.filterMap Frame.kick?, fd' ∈ failures events
  closed : ∀ fd' ∈ s.connects, fd' ∈ t.connects ∨ roots fd' ∨ fd' ∈ failures events

namespace DeletesBy

variable {events : List Event} {s t u : Server} {roots : Int → Prop} {k l : List Frame}

theorem refl (s : Server) (kicks : k.filterMap Frame.kick? = []) : DeletesBy [] s roots k s :=
  ⟨rfl, nofun, by rw [kicks]; nofun, fun _ mem => .inl mem⟩

theorem same (h : DeletesBy events s roots k t) (trace : u.trace = t.trace) (connects : u.connects = t.connects)
    (kicks : l.filterMap Frame.kick? ⊆ k.filterMap Frame.kick?) : ∃ events, DeletesBy events s roots l u :=
  ⟨events, trace.trans h.trace, h.quiet, fun fd' mem => h.kicks fd' (kicks mem), connects ▸ h.closed⟩

theorem log (h : DeletesBy events s roots k t) {e : Event} (trace : u.trace = e :: t.trace) (quiet : e.isExpire = false)
    (connects : u.connects = t.connects) (kicks : l.filterMap Frame.kick? ⊆ k.filterMap Frame.kick?) :
    ∃ events, DeletesBy events s roots l u := by
  have grows : failures events ⊆ failures (e :: events) := by
    cases e with
    | writeError _ _ => exact List.subset_cons_self _ _
    | _ => exact List.Subset.refl _
  refine ⟨e :: events, by rw [trace, h.trace, List.cons_append], ?_, fun fd' mem => grows (h.kicks fd' (kicks mem)), ?_⟩
  · intro e' mem
    rcases List.mem_cons.mp mem with rfl | mem
    · exact quiet
    · exact h.quiet e' mem
  · rw [connects]
    intro fd' mem
    exact (h.closed fd' mem).imp_right fun why => why.imp_right fun failed => grows failed

end DeletesBy

variable {env : Env} {k l : List Frame} {s t u : Server} {roots : Int → Prop}

/-- The activation of the main loop at the bottom is one that may delete the connections `roots`; a tick is not, since
    it also deletes players that are slow. -/
def Bottom (roots : Int → Prop) : Frame → Prop
  | .handling _ _ _ => True
  | .expiring fd _ => roots fd
  | _ => False

theorem deletesBy_step {events : List Event} {f : Frame} (move : Step env k t l u) (bottom : k.getLast? = some f)
    (may : Bottom roots f) (stack : Stack k) (h : DeletesBy events s roots k t) :
    ∃ events, DeletesBy events s roots l u := by
  cases move with
  | @kick _ _ userId fd' _ _ =>
    refine ⟨.writeError userId fd' :: events, by rw [Server.log, h.trace, List.cons_append], ?_, ?_, ?_⟩
    · intro e mem
      rcases List.mem_cons.mp mem with rfl | mem
      · rfl
      · exact h.quiet e mem
    · intro fd'' mem
      rcases List.mem_cons.mp mem with rfl | mem
      · exact List.mem_cons_self
      · exact List.mem_cons_of_mem _ (h.kicks fd'' mem)
    · intro fd'' mem
      exact (h.closed fd'' mem).imp_right fun why => why.imp_right (List.mem_cons_of_mem _)
  | @drop _ _ fd' c why conn =>
    obtain ⟨_, _, _, _, _, hs⟩ := dropConnection_eq fd' c t
    have why : roots fd' ∨ fd' ∈ failures events := by
      cases why with
      | kick => exact .inr (h.kicks fd' List.mem_cons_self)
      | slot _ =>
        -- a slow player is deleted by a tick only
        cases stack with
        | outer outer => cases outer
        | push stack waits =>
          cases waits with
          | kickSlot =>
            obtain ⟨_, _, rfl⟩ := stack.timeout
            obtain rfl : Frame.ticking _ _ _ = f := by simpa using bottom
            exact may.elim
      | event => simp at bottom
      | expire =>
        obtain rfl : Frame.expiring fd' _ = f := by simpa using bottom
        exact .inl may
    refine ⟨.close fd' :: events, by rw [hs, h.trace, List.cons_append], ?_, h.kicks, ?_⟩
    · intro e mem
      rcases List.mem_cons.mp mem with rfl | mem
      · rfl
      · exact h.quiet e mem
    · intro fd'' mem
      by_cases here : fd' = fd''
      · exact .inr (here ▸ why)
      · rw [hs]
        exact (h.closed fd'' mem).imp_left fun conn => Map.mem_erase.mpr ⟨here, conn⟩
  | kicked => exact h.same rfl rfl (List.subset_cons_self _ _)
  | leave _ _ _ _ =>
    refine h.log rfl rfl rfl ?_
    rw [List.filterMap_cons_none (Room.departing_kick _ _ _)]
    exact List.Subset.refl _
  | left =>
    rw [PersonManager.changePersonStatus_eq]
    exact h.same rfl rfl (List.Subset.refl _)
  | everyone may => cases may <;> exact h.log rfl rfl rfl (List.Subset.refl _)
  | deliver _ _ =>
    obtain ⟨events', h'⟩ := h.log (u := t.log (.deliver _ _ _)) rfl rfl rfl (List.Subset.refl _)
    exact h'.log rfl rfl rfl (List.Subset.refl _)
  | @enter _ _ fd user _ _ _ _ _ _ _ person =>
    obtain ⟨_, _, _, trace, hs⟩ := @entered _ _ (loginArg fd user) _ _ person
    have same := @entered_trace _ _ (loginArg fd user) _ _ person
    rw [hs] at same ⊢
    rcases same with rfl | rfl
    · exact h.same rfl rfl (List.Subset.refl _)
    · exact h.log rfl rfl rfl (List.Subset.refl _)
  | heartbeat _ old =>
    obtain ⟨_, _, rfl⟩ := Heartbeat.erased old
    exact h.same rfl rfl (List.Subset.refl _)
  | create _ _ _ _ _ =>
    obtain ⟨_, _, _, _, _, _, _, hs⟩ := RoomManager.created_eq _ _ _ t
    rw [hs]
    obtain ⟨events', h'⟩ := h.log (u := t.log (.roomInit _)) rfl rfl rfl (List.Subset.refl _)
    exact h'.log rfl rfl rfl (List.Subset.refl _)
  | join _ _ _ _ _ _ =>
    rw [RoomManager.joined_eq]
    exact h.log rfl rfl rfl (List.Subset.refl _)
  | gameEnd _ _ _ =>
    rw [PersonManager.changePersonStatus_eq]
    exact h.log rfl rfl rfl (List.Subset.refl _)
  | expire _ _ => simp at bottom
  | acceptFail _ _ _ => simp at bottom
  | acceptLost _ _ _ => simp at bottom
  | accept _ _ _ _ => simp at bottom
  | _ =>
    first
    | exact h.same rfl rfl (List.Subset.refl _)
    | exact h.log rfl rfl rfl (List.Subset.refl _)

theorem stable_deletesBy (env : Env) (s : Server) {f : Frame} (may : Bottom roots f) : Stable env [f] fun k t =>
    Stack (k ++ [f]) ∧ ∃ events, DeletesBy events s roots (k ++ [f]) t where
  step move h := by
    obtain ⟨stack, events, deletes⟩ := h
    exact ⟨stack_step move stack, deletesBy_step move List.getLast?_concat may stack deletes⟩

end IslandSurvival
