import IslandSurvival.Theorems.Refine

/-! Which activations can wait for which. A call is made by one activation only, and an activation that
    has not begun its call yet has nothing above it. -/

namespace IslandSurvival

/-- What an activation is to the one that waits for it -/
inductive Role
  | request
  | exitRequest (p : RoomPtr)
  | tick
  | expiry
  | cast (p : RoomPtr) (mess : CMessage)
  | kick
  | deletion
  | departure (p : RoomPtr)
  | start (p : RoomPtr)
  | loadingUp (p : RoomPtr)
  | timeout (p : RoomPtr)
  | kickSlot (p : RoomPtr)
  | running (p : RoomPtr)
  | frame (p : RoomPtr)
  | casting (p : RoomPtr)

def Frame.role : Frame → Role
  | .handling _ _ _ => .request
  | .ticking _ _ _ => .tick
  | .expiring _ _ => .expiry
  | .everyone p mess _ => .cast p mess
  | .delivering p mess _ => .cast p mess
  | .kick _ _ => .kick
  | .drop _ => .deletion
  | .logout _ _ _ => .deletion
  | .exited _ _ _ => .deletion
  | .forgotten _ _ _ => .deletion
  | .leaving _ p _ => .departure p
  | .exiting p _ _ => .departure p
  | .quitting p _ => .departure p
  | .exitRequest _ p => .exitRequest p
  | .loadingUp p _ => .loadingUp p
  | .starting p _ => .start p
  | .timeout p => .timeout p
  | .kickSlot p _ => .kickSlot p
  | .running p => .running p
  | .frame p _ _ => .frame p
  | .framed p => .frame p
  | .casting p _ _ => .casting p

/-- An activation that can wait for another one -/
inductive Waits : Role → Frame → Prop
  | castRequest {p : RoomPtr} {mess : CMessage} {fd : Int} {user : Option Int} {req : CMessage}
      (id : mess.head.messageId = Msg.scPullOneRoomDetail) : Waits (.cast p mess) (.handling fd user req)
  | castResult {p : RoomPtr} {userId result : Int} : Waits (.cast p (MP.exitMessage result)) (.exitRequest userId p)
  | castLoading {p : RoomPtr} {rand : Int} :
      Waits (.cast p (.build Msg.scGameLoading (-1) (.scGameLoading rand))) (.loadingUp p true)
  | castStart {p : RoomPtr} : Waits (.cast p (.build Msg.scGameStart (-1) .scGameStart)) (.starting p true)
  | castDetail {p : RoomPtr} {mess : CMessage} {userId : Int} (id : mess.head.messageId = Msg.scPullOneRoomDetail) :
      Waits (.cast p mess) (.leaving userId p true)
  | castExit {p : RoomPtr} {pos : Nat} : Waits (.cast p (Room.exitGameMessage pos (-1))) (.exiting p pos true)
  | castFrame {p : RoomPtr} {mess : CMessage} : Waits (.cast p mess) (.casting p mess true)
  | kickReply {fd : Int} {user : Option Int} {req : CMessage} : Waits .kick (.handling fd user req)
  | kickDelivery {p : RoomPtr} {mess : CMessage} {i : Nat} : Waits .kick (.delivering p mess i)
  | deleteKick {userId fd : Int} : Waits .deletion (.kick userId fd)
  | deleteSlot {p : RoomPtr} {i : Nat} : Waits .deletion (.kickSlot p i)
  | deleteExpired {fd : Int} {next : Option (Int × Int)} : Waits .deletion (.expiring fd next)
  | departExit {p : RoomPtr} {fd userId fd' : Int} : Waits (.departure p) (.exited fd userId fd')
  | departRequest {p : RoomPtr} {userId : Int} : Waits (.departure p) (.exitRequest userId p)
  | startExit {p : RoomPtr} {fd userId fd' : Int} : Waits (.start p) (.exited fd userId fd')
  | startDeparted {p : RoomPtr} {userId : Int} : Waits (.start p) (.exitRequest userId p)
  | startRequest {p : RoomPtr} {fd : Int} {user : Option Int} {req : CMessage} : Waits (.start p) (.handling fd user req)
  | startTick {p : RoomPtr} {id : Int} {rooms : Map RoomPtr} : Waits (.start p) (.ticking id p rooms)
  | exitRequest {p : RoomPtr} {fd : Int} {user : Option Int} {req : CMessage} : Waits (.exitRequest p) (.handling fd user req)
  | loadingUp {p : RoomPtr} {fd : Int} {user : Option Int} {req : CMessage} : Waits (.loadingUp p) (.handling fd user req)
  | timeout {p : RoomPtr} {id : Int} {rooms : Map RoomPtr} : Waits (.timeout p) (.ticking id p rooms)
  | kickSlot {p : RoomPtr} : Waits (.kickSlot p) (.timeout p)
  | running {p : RoomPtr} {id : Int} {rooms : Map RoomPtr} : Waits (.running p) (.ticking id p rooms)
  | frame {p : RoomPtr} : Waits (.frame p) (.running p)
  | casting {p : RoomPtr} {f : Int} {i : Nat} : Waits (.casting p) (.frame p f (some i))

/-- The activations that the main loop makes itself -/
inductive Outer : Role → Prop
  | request : Outer .request
  | tick : Outer .tick
  | expiry : Outer .expiry
  | deletion : Outer .deletion

/-- Every activation waits for the one above it. -/
inductive Stack : List Frame → Prop
  | nil : Stack []
  | outer {f : Frame} (outer : Outer f.role) : Stack [f]
  | push {f g : Frame} {k : List Frame} (h : Stack (g :: k)) (waits : Waits f.role g) : Stack (f :: g :: k)

namespace Stack

variable {f f' : Frame} {k : List Frame}

/-- The innermost activation goes on. -/
theorem next (h : Stack (f :: k)) (same : f'.role = f.role) : Stack (f' :: k) := by
  cases h with
  | outer outer => exact .outer (same ▸ outer)
  | push h waits => exact h.push (same ▸ waits)

/-- The innermost activation goes on to a call. -/
theorem call {f'' : Frame} (h : Stack (f :: k)) (same : f'.role = f.role) (waits : Waits f''.role f') :
    Stack (f'' :: f' :: k) :=
  (h.next same).push waits

theorem pop (h : Stack (f :: k)) : Stack k := by
  cases h with
  | outer _ => exact .nil
  | push h _ => exact h

/-- An activation below another one waits. -/
theorem waits (h : Stack (f :: k)) {g : Frame} (mem : g ∈ k) : ∃ role, Waits role g := by
  induction k generalizing f with
  | nil => exact absurd mem List.not_mem_nil
  | cons g' k ih =>
    cases h with
    | push rest here =>
      rcases List.mem_cons.mp mem with rfl | mem
      · exact ⟨_, here⟩
      · exact ih rest mem

/-- Nothing waits for a request. -/
theorem request {fd : Int} {user : Option Int} {mess : CMessage} (h : Stack (.handling fd user mess :: k)) : k = [] := by
  cases h with
  | outer _ => rfl
  | push _ waits => cases waits

theorem ticking {id : Int} {p : RoomPtr} {rooms : Map RoomPtr} (h : Stack (.ticking id p rooms :: k)) : k = [] := by
  cases h with
  | outer _ => rfl
  | push _ waits => cases waits

/-- The loop over the late players is a call of a tick. -/
theorem timeout {p : RoomPtr} (h : Stack (.timeout p :: k)) : ∃ id rooms, k = [.ticking id p rooms] := by
  cases h with
  | outer outer => cases outer
  | push rest waits =>
    cases waits with
    | timeout => exact ⟨_, _, by rw [rest.ticking]⟩

/-- `Run` is a call of a tick. -/
theorem running {p : RoomPtr} (h : Stack (.running p :: k)) : ∃ id rooms, k = [.ticking id p rooms] := by
  cases h with
  | outer outer => cases outer
  | push rest waits =>
    cases waits with
    | running => exact ⟨_, _, by rw [rest.ticking]⟩

/-- `SendHeadFrameToAll` is a call of `Run`. -/
theorem frame {p : RoomPtr} (h : Stack (f :: k)) (role : f.role = .frame p) :
    ∃ id rooms, k = [.running p, .ticking id p rooms] := by
  cases h with
  | outer outer =>
    rw [role] at outer
    cases outer
  | push rest waits =>
    rw [role] at waits
    cases waits with
    | frame =>
      obtain ⟨id, rooms, rfl⟩ := rest.running
      exact ⟨id, rooms, rfl⟩

/-- The ring broadcasts the messages of its head frame. -/
theorem casting {p : RoomPtr} {mess : CMessage} {sent : Bool} (h : Stack (.casting p mess sent :: k)) :
    ∃ f i id rooms, k = [.frame p f (some i), .running p, .ticking id p rooms] := by
  cases h with
  | outer outer => cases outer
  | push rest waits =>
    cases waits with
    | casting =>
      obtain ⟨id, rooms, rfl⟩ := rest.frame rfl
      exact ⟨_, _, id, rooms, rfl⟩

theorem departing (h : Stack (f :: k)) {u : Int} {p : RoomPtr} {r : Room} (waits : Waits (.departure p) f) :
    Stack (r.departing u p :: f :: k) := by
  refine h.push ?_
  unfold Room.departing
  split <;> exact waits

end Stack

section
variable {env : Env} {k k' : List Frame} {s s' : Server}

theorem stack_step (move : Step env k s k' s') (h : Stack k) : Stack k' := by
  cases move with
  | kick sending _ =>
    cases sending with
    | reply => exact h.push .kickReply
    | deliver => exact h.push .kickDelivery
  | kicked => exact h.pop
  | drop may _ =>
    cases may with
    | kick => exact h.push .deleteKick
    | slot _ => exact h.push .deleteSlot
    | event => exact .outer .deletion
    | expire => exact h.push .deleteExpired
  | dropAnon _ => exact h.pop
  | dropStale _ _ => exact h.pop
  | logout _ _ => exact h.next rfl
  | noPerson _ => exact h.next rfl
  | inHall _ _ => exact h.next rfl
  | notBound _ _ _ => exact h.next rfl
  | notInRoom _ _ _ _ => exact h.next rfl
  | leave _ _ _ _ => exact Stack.departing (f := .exited _ _ _) (h.next rfl) .departExit
  | forget => exact h.next rfl
  | logoutDone => exact h.pop
  | left => exact h.pop
  | uncount _ => exact h.pop
  | exited _ _ => exact h.pop
  | exitStart _ _ _ =>
    cases h with
    | outer outer => cases outer
    | push h waits =>
      cases waits with
      | departExit => exact h.push .startExit
      | departRequest => exact h.push .startDeparted
  | quit _ => exact h.pop
  | everyone may =>
    cases may with
    | changed _ => exact h.push (.castRequest rfl)
    | joined _ => exact h.push (.castRequest rfl)
    | exit => exact h.push .castResult
    | loadingUp => exact h.call rfl .castLoading
    | starting => exact h.call rfl .castStart
    | leaving => exact h.call rfl (.castDetail rfl)
    | exiting => exact h.call rfl .castExit
    | casting => exact h.call rfl .castFrame
  | skipSlot _ _ => exact h.next rfl
  | deliver _ _ => exact h.next rfl
  | delivered => exact h.next rfl
  | everyoneEnd _ => exact h.pop
  | loadBegin _ _ _ => exact h.push .loadingUp
  | load _ => exact h.pop
  | reportStart _ _ _ _ _ => exact h.push .startRequest
  | timeout _ _ => exact h.push .timeout
  | kickSlot _ _ _ => exact h.push .kickSlot
  | kickedSlot => exact h.pop
  | timeoutStart _ =>
    cases h with
    | outer outer => cases outer
    | push h waits =>
      cases waits with
      | timeout => exact h.push .startTick
  | timeoutEnd _ => exact h.pop
  | start _ _ => exact h.pop
  | runBegin _ _ => exact h.push .running
  | frameBegin _ => exact h.push .frame
  | castEmpty _ _ => exact h.call rfl .casting
  | castNone _ _ => exact h.next rfl
  | cast _ _ => exact h.call rfl .casting
  | castDone => exact h.pop
  | frameEnd _ _ => exact h.next rfl
  | advance _ => exact h.pop
  | runEnd => exact h.pop
  | request _ _ => exact .outer .request
  | handled => exact .nil
  | exitBegin _ => exact h.push .exitRequest
  | exitRoom _ _ _ => exact h.push .departRequest
  | exitEnd => exact h.pop
  | tickBegin _ => exact .outer .tick
  | recycle _ => exact .nil
  | tickEnd _ => exact .nil
  | expire _ _ => exact .outer .expiry
  | expired => exact .nil
  | _ => exact h

theorem Config.stack (h : Config env k s) : Stack k := by
  induction h with
  | boot _ => exact .nil
  | step _ move ih => exact stack_step move ih

end

end IslandSurvival
