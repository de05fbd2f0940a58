import Rpcmple.Data.Bytes
import Rpcmple.Data.System

namespace Rpcmple.Data

open Data.System

/-- `arrived` are the numbers of the datagrams that came to the receiver's machine, in this
order, and `queue` are those of them it has not read. -/
structure Relay (σ ρ : Type) where
  sender : σ
  arrived : List Nat
  queue : List Bytes
  receiver : ρ

namespace Relay

inductive Action (α β : Type) where
  | sender (action : α)
  | arrive (number : Nat)
  | receiver (action : β)

variable {σ ρ α β ε : Type} (sends : σ → α → Option σ) (sent : σ → List Bytes)
  (receives : ρ → List Bytes → β → Option (ρ × List Bytes))

def start (sender : σ) (receiver : ρ) : Relay σ ρ := ⟨sender, [], [], receiver⟩

/-- A datagram comes at any time, in any order, any number of times or not at all. -/
def arrive (state : Relay σ ρ) (number : Nat) : Option (Relay σ ρ) :=
  (sent state.sender)[number]?.map fun datagram =>
    { state with
      arrived := state.arrived ++ [number]
      queue := state.queue ++ [datagram] }

def step (state : Relay σ ρ) : Action α β → Option (Relay σ ρ)
  | .sender action => (sends state.sender action).map fun sender => { state with sender }
  | .arrive number => state.arrive sent number
  | .receiver action =>
      (receives state.receiver state.queue action).map fun after =>
        { state with receiver := after.1, queue := after.2 }

def Allowed (allowed : σ → α → Prop) (state : Relay σ ρ) : Action α β → Prop
  | .sender action => allowed state.sender action
  | .arrive _ | .receiver _ => True

/-- As long as `I` holds, each datagram the sender sent is a group of entries, to which
its steps add. -/
structure Groups (allowed : σ → α → Prop) (frames : List ε → Bytes) (fits : List ε → Prop)
    (I : σ → List (List ε) → Prop) : Prop where
  sent : ∀ sender groups, I sender groups → sent sender = groups.map frames
  fits : ∀ sender groups, I sender groups → ∀ group ∈ groups, fits group
  keeps : ∀ sender groups action next, I sender groups → allowed sender action →
    sends sender action = some next → ∃ more, I next (groups ++ more)

/-- A step of the receiver takes the first group in its queue, or none. -/
structure Takes (frames : List ε → Bytes) (fits : List ε → Prop) (J : ρ → List ε → Prop) :
    Prop where
  keeps : ∀ receiver content groups action next queue, J receiver content →
    (∀ group ∈ groups, fits group) →
    receives receiver (groups.map frames) action = some (next, queue) →
    (queue = groups.map frames ∧ J next content) ∨
      ∃ group rest, groups = group :: rest ∧ queue = rest.map frames ∧
        J next (content ++ group)

def content (groups : List (List ε)) (numbers : List Nat) : List ε :=
  numbers.flatMap fun number => groups.getD number []

variable {sends sent receives} {allowed : σ → α → Prop} {frames : List ε → Bytes}
  {fits : List ε → Prop} {I : σ → List (List ε) → Prop} {J : ρ → List ε → Prop}
  {groups : List (List ε)} {state next : Relay σ ρ}

theorem content_append {front back : List Nat} :
    content groups (front ++ back) = content groups front ++ content groups back :=
  List.flatMap_append

theorem content_singleton (number : Nat) : content groups [number] = groups.getD number [] :=
  List.flatMap_singleton _ _

theorem getD_more {number : Nat} (hnumber : number < groups.length) (more : List (List ε)) :
    (groups ++ more).getD number [] = groups.getD number [] :=
  List.getD_append _ _ _ _ hnumber

theorem content_more {numbers : List Nat}
    (hnumbers : ∀ number ∈ numbers, number < groups.length) (more : List (List ε)) :
    content (groups ++ more) numbers = content groups numbers := by
  apply List.flatMap_congr
  intro number hmem
  exact getD_more (hnumbers number hmem) more

theorem getD_mem {number : Nat} (hnumber : number < groups.length) :
    groups.getD number [] ∈ groups := by
  rw [List.getD_eq_getElem _ _ hnumber]
  exact List.getElem_mem hnumber

structure Carried (frames : List ε → Bytes) (I : σ → List (List ε) → Prop)
    (J : ρ → List ε → Prop) (state : Relay σ ρ) (groups : List (List ε))
    (front back : List Nat) : Prop where
  sender : I state.sender groups
  arrived : state.arrived = front ++ back
  numbers : ∀ number ∈ state.arrived, number < groups.length
  queue : state.queue = (back.map fun number => groups.getD number []).map frames
  receiver : J state.receiver (content groups front)

theorem carried_step {action : Action α β} {front back : List Nat}
    (hgroups : Groups sends sent allowed frames fits I) (htakes : Takes receives frames fits J)
    (hcarried : Carried frames I J state groups front back)
    (hallowed : Allowed allowed state action)
    (hstep : step sends sent receives state action = some next) :
    ∃ more front back, Carried frames I J next (groups ++ more) front back := by
  obtain ⟨hsender, harrived, hnumbers, hqueue, hreceiver⟩ := hcarried
  cases action with
  | sender action =>
      obtain ⟨sender, hnext, rfl⟩ := Option.map_eq_some_iff.mp hstep
      obtain ⟨more, hmore⟩ := hgroups.keeps _ _ _ _ hsender hallowed hnext
      have hfront : ∀ number ∈ front, number < groups.length := fun number hmem =>
        hnumbers number (harrived ▸ List.mem_append_left _ hmem)
      have hback : ∀ number ∈ back, number < groups.length := fun number hmem =>
        hnumbers number (harrived ▸ List.mem_append_right _ hmem)
      refine ⟨more, front, back, hmore, harrived, ?_, ?_, ?_⟩
      · intro number hmem
        rw [List.length_append]
        exact (hnumbers number hmem).trans_le (Nat.le_add_right _ _)
      · rw [List.map_congr_left fun number hmem => getD_more (hback number hmem) more]
        exact hqueue
      · rw [content_more hfront]
        exact hreceiver
  | arrive number =>
      obtain ⟨datagram, hdatagram, rfl⟩ := Option.map_eq_some_iff.mp hstep
      rw [hgroups.sent _ _ hsender, List.getElem?_map] at hdatagram
      obtain ⟨group, hgroup, rfl⟩ := Option.map_eq_some_iff.mp hdatagram
      refine ⟨[], front, back ++ [number], ?_⟩
      rw [List.append_nil]
      refine ⟨hsender, ?_, ?_, ?_, hreceiver⟩
      · rw [← List.append_assoc, ← harrived]
      · refine List.forall_mem_append.mpr ⟨hnumbers, List.forall_mem_singleton.mpr ?_⟩
        exact (List.getElem?_eq_some_iff.mp hgroup).1
      · rw [List.map_append, List.map_append, ← hqueue, List.map_singleton,
          List.getD_eq_getElem?_getD, hgroup]
        rfl
  | receiver action =>
      obtain ⟨⟨receiver, queue⟩, hnext, rfl⟩ := Option.map_eq_some_iff.mp hstep
      have hback : ∀ group ∈ back.map fun number => groups.getD number [], fits group := by
        intro group hmem
        obtain ⟨number, hnumber, rfl⟩ := List.mem_map.mp hmem
        exact hgroups.fits _ _ hsender _
          (getD_mem (hnumbers number (harrived ▸ List.mem_append_right _ hnumber)))
      rw [hqueue] at hnext
      refine ⟨[], ?_⟩
      rw [List.append_nil]
      rcases htakes.keeps _ _ _ _ _ _ hreceiver hback hnext with
        ⟨hsame, hstays⟩ | ⟨group, rest, hsplit, hrest, hgoes⟩
      · exact ⟨front, back, hsender, harrived, hnumbers, hsame, hstays⟩
      · obtain ⟨number, others, rfl, rfl, rfl⟩ := List.map_eq_cons_iff.mp hsplit
        refine ⟨front ++ [number], others, hsender, ?_, hnumbers, hrest, ?_⟩
        · rw [List.append_assoc]
          exact harrived
        · rw [content_append, content_singleton]
          exact hgoes

/-- Whatever is lost, doubled or overtaken, the receiver takes whole groups, in the order in
which they arrive. -/
theorem relayed {sender : σ} {receiver : ρ}
    (hgroups : Groups sends sent allowed frames fits I) (htakes : Takes receives frames fits J)
    (hsender : I sender []) (hreceiver : J receiver [])
    (hreaches : Reaches (step sends sent receives) (Allowed allowed) (start sender receiver)
      state) :
    ∃ groups front back, Carried frames I J state groups front back := by
  apply hreaches.invariant (I := fun state =>
    ∃ groups front back, Carried frames I J state groups front back)
  · exact ⟨[], [], [], hsender, rfl, by simp [start], rfl, hreceiver⟩
  · intro state action next hbefore hallowed hstep
    obtain ⟨groups, front, back, hcarried⟩ := hbefore
    obtain ⟨more, hmore⟩ := carried_step hgroups htakes hcarried hallowed hstep
    exact ⟨_, hmore⟩

theorem Carried.received {front back : List Nat}
    (hcarried : Carried frames I J state groups front back) :
    content groups front <+: content groups state.arrived ∧
      (state.queue = [] → content groups front = content groups state.arrived) := by
  rw [hcarried.arrived, content_append]
  refine ⟨List.prefix_append _ _, fun hqueue => ?_⟩
  have hnone : back = [] :=
    List.map_eq_nil_iff.mp (List.map_eq_nil_iff.mp (hcarried.queue.symm.trans hqueue))
  rw [hnone, content, content, List.flatMap_nil, List.append_nil]

/-- The receiver does with the entries that arrive what `value` says, in this order and with
nothing else, and in the end with all of them. -/
structure Delivers {γ : Type} (sent : σ → List Bytes) (frames : List ε → Bytes)
    (called : ρ → List γ) (value : ε → γ) (Idle : ρ → Prop) (state : Relay σ ρ)
    (groups : List (List ε)) : Prop where
  datagrams : sent state.sender = groups.map frames
  front : called state.receiver <+: (content groups state.arrived).map value
  all : state.queue = [] → Idle state.receiver →
    called state.receiver = (content groups state.arrived).map value

theorem delivered {γ : Type} {sender : σ} {receiver : ρ} {called : ρ → List γ} {value : ε → γ}
    {Idle : ρ → Prop} (hgroups : Groups sends sent allowed frames fits I)
    (htakes : Takes receives frames fits J) (hsender : I sender []) (hreceiver : J receiver [])
    (hcalled : ∀ receiver content, J receiver content →
      called receiver <+: content.map value ∧ (Idle receiver → called receiver = content.map value))
    (hreaches : Reaches (step sends sent receives) (Allowed allowed) (start sender receiver)
      state) :
    ∃ groups, I state.sender groups ∧ Delivers sent frames called value Idle state groups := by
  obtain ⟨groups, front, back, hcarried⟩ := relayed hgroups htakes hsender hreceiver hreaches
  obtain ⟨hfront, hall⟩ := hcarried.received
  obtain ⟨hbegins, hidle⟩ := hcalled _ _ hcarried.receiver
  refine ⟨groups, hcarried.sender, hgroups.sent _ _ hcarried.sender,
    hbegins.trans (hfront.map value), ?_⟩
  intro hqueue hrests
  rw [hidle hrests, hall hqueue]

theorem reaches_sender {sender final : σ} {receiver : ρ} {actions : List α}
    (hallowed : ∀ action ∈ actions, ∀ sender, allowed sender action)
    (hrun : run sends sender actions = some final) :
    Reaches (step sends sent receives) (Allowed allowed) (start sender receiver)
      ⟨final, [], [], receiver⟩ := by
  have hsender := reaches_of_run hallowed hrun
  clear hrun
  induction hsender with
  | start => exact .start
  | @step state next action _ hstep hnext ih =>
      exact ih.next (.sender action) hstep (by rw [step, hnext]; rfl)

def receive (receives : ρ → List Bytes → β → Option (ρ × List Bytes)) (receiver : ρ)
    (queue : List Bytes) (actions : List β) : Option (ρ × List Bytes) :=
  actions.foldlM (fun state action => receives state.1 state.2 action) (receiver, queue)

theorem reaches_receiver {sender : σ} {receiver final : ρ} {arrived : List Nat}
    {queue left : List Bytes} {actions : List β}
    (hreceive : receive receives receiver queue actions = some (final, left)) :
    Reaches (step sends sent receives) (Allowed allowed) ⟨sender, arrived, queue, receiver⟩
      ⟨sender, arrived, left, final⟩ := by
  induction actions generalizing receiver queue with
  | nil =>
      cases hreceive
      exact .start
  | cons action actions ih =>
      rw [receive, List.foldlM_cons] at hreceive
      obtain ⟨⟨next, behind⟩, hnext, hrest⟩ := Option.bind_eq_some_iff.mp hreceive
      have hfirst := (Reaches.start : Reaches (step sends sent receives) (Allowed allowed)
        ⟨sender, arrived, queue, receiver⟩ _).next (.receiver action) trivial
        (by rw [step, hnext]; rfl)
      exact hfirst.trans (ih hrest)

end Relay

end Rpcmple.Data
