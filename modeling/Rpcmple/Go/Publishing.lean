import Rpcmple.Go.Pool

namespace Rpcmple.Go

open Data DataSignature System

namespace DataPublisher

variable {signature : DataSignature} {writeOk : List Bytes → Bytes → Bool}
  {dp next : DataPublisher} {index buffer : Nat} {data : List Any} {place old : Place}

theorem parked_goto (hparked : dp.Parked) (hresets : place.resets = none) :
    (dp.goto index data place).Parked := by
  intro buffer hresetting
  rcases resetting_of_goto hresetting with hbefore | hplace
  · exact hparked buffer hbefore
  · rw [hresets] at hplace
    cases hplace

theorem parked_get {choice : Option Nat} (hparked : dp.Parked)
    (hreset : ∀ buffer, choice = some buffer → ¬ dp.Resetting buffer)
    (hget : Gets dp choice buffer next) : next.Parked := by
  cases hget with
  | fresh => exact hparked
  | pooled =>
      intro other hresetting
      have hother : other ≠ buffer := by
        rintro rfl
        exact hreset other rfl hresetting
      exact (List.mem_erase_of_ne hother).mpr (hparked other hresetting)

theorem parked_publish {choice : Option Nat} {count : Nat} (hparked : dp.Parked)
    (hreset : ∀ buffer, choice = some buffer → ¬ dp.Resetting buffer)
    (hpublish : dp.Publish signature index choice count = some next) : next.Parked := by
  obtain ⟨data, place, hplace, hmoves⟩ := Publish_moves hpublish
  cases hmoves with
  | getBody hget | getMessage hget => exact parked_goto (parked_get hparked hreset hget) rfl
  | encodes | refuses | written | refused | tooLong | fits | bytes =>
      exact parked_goto hparked rfl
  | panics | sendPanics => exact hparked
  | @writes body front _ _ => exact @parked_goto (dp.append body front) _ _ _ hparked rfl
  | @writeHeader _ message bodyArr =>
      exact @parked_goto (dp.append message (headerBytes bodyArr)) _ _ _ hparked rfl
  | @writeBody _ message bodyArr =>
      exact @parked_goto (dp.append message bodyArr) _ _ _ hparked rfl
  | add => exact @parked_goto (dp.add 1) _ _ _ hparked rfl
  | @sends _ message => exact @parked_goto (dp.push index message) _ _ _ hparked rfl
  | @put body result =>
      intro buffer hresetting
      rcases @resetting_of_goto (dp.put body) _ _ _ _ hresetting with hbefore | hbody
      · exact List.mem_cons_of_mem _ (hparked buffer hbefore)
      · obtain rfl := Option.some.inj hbody
        exact List.mem_cons_self
  | @reset body _ => exact @parked_goto (dp.store body []) _ _ _ hparked rfl

theorem parked_flow (hparked : dp.Parked) (hsend : dp.SendMessage writeOk = some next) :
    next.Parked := by
  have hflows := SendMessage_flows hsend
  have hstays : next.publishes = dp.publishes → next.flow.resets = none →
      next.messagePool = dp.messagePool → next.Parked := by
    intro hpublishes hnone hpool buffer hresetting
    rw [hpool]
    rcases hresetting with hgoroutine | hflow
    · rw [hpublishes] at hgoroutine
      exact hparked buffer (Or.inl hgoroutine)
    · rw [hnone] at hflow
      cases hflow
  generalize dp.flow = flow at hflows
  cases hflows with
  | loop => exact hstays rfl (by cases hstop : dp.stopRequest <;> rfl) rfl
  | receive | empty | filled | copy | reset | done | goesOn | stops =>
      exact hstays rfl rfl rfl
  | panics => exact hparked
  | @put first lastMessage result message =>
      intro buffer hresetting
      rcases hresetting with hgoroutine | hflow
      · exact List.mem_cons_of_mem _ (hparked buffer (Or.inl hgoroutine))
      · obtain rfl := Option.some.inj hflow
        exact List.mem_cons_self

theorem parked_step {action : Action} (hparked : dp.Parked)
    (hreset : dp.GetsReset action) (hstep : dp.step signature writeOk action = some next) :
    next.Parked := by
  unfold step at hstep
  split at hstep
  · cases hstep
  · cases action with
    | publish data =>
        cases hstep
        intro buffer hresetting
        rcases hresetting with ⟨goroutine, hmem, hresets⟩ | hflow
        · rcases List.mem_append.mp hmem with hbefore | hnew
          · exact hparked buffer (Or.inl ⟨goroutine, hbefore, hresets⟩)
          · rw [List.mem_singleton.mp hnew] at hresets
            cases hresets
        · exact hparked buffer (Or.inr hflow)
    | run index choice count =>
        refine parked_publish hparked ?_ hstep
        intro buffer hchoice
        exact hreset index buffer count (by rw [hchoice])
    | flow => exact parked_flow hparked hstep
    | stop =>
        change dp.stop = some next at hstep
        unfold stop at hstep
        split at hstep
        · cases hstep
          exact hparked
        · cases hstep
          exact hparked
        · cases hstep

theorem noneBetween_iff (hparked : dp.Parked) :
    (∀ buffer ∈ dp.messagePool, ¬ dp.Resetting buffer) ↔ dp.NoneBetween := by
  constructor
  · intro hnone
    have hfree : ∀ buffer, ¬ dp.Resetting buffer := fun buffer hresetting =>
      hnone buffer (hparked buffer hresetting) hresetting
    constructor
    · intro goroutine hmem
      by_contra hresets
      obtain ⟨buffer, hbuffer⟩ := Option.ne_none_iff_exists'.mp hresets
      exact hfree buffer (Or.inl ⟨goroutine, hmem, hbuffer⟩)
    · by_contra hresets
      obtain ⟨buffer, hbuffer⟩ := Option.ne_none_iff_exists'.mp hresets
      exact hfree buffer (Or.inr hbuffer)
  · rintro ⟨hgoroutines, hflow⟩ buffer - (⟨goroutine, hmem, hresets⟩ | hresets)
    · rw [hgoroutines goroutine hmem] at hresets
      cases hresets
    · rw [hflow] at hresets
      cases hresets

def frame (signature : DataSignature) (data : List Any) : Option Bytes :=
  match ToBinary signature [] data with
  | .next body =>
      if body.length > 16777216 then none else some (headerBytes body ++ body)
  | .fail _ | .crash => none

def Body (signature : DataSignature) (data : List Any) (body : Bytes) : Prop :=
  ToBinary signature [] data = .next body ∧ body.length ≤ 16777216

theorem Body.frame {body : Bytes} (hbody : Body signature data body) :
    frame signature data = some (headerBytes body ++ body) := by
  rw [DataPublisher.frame, hbody.1]
  exact if_neg (not_lt.mpr hbody.2)

/-- At each place of `Publish` its buffers hold what it has written so far. -/
def Good (signature : DataSignature) (buffers : Nat → Bytes) (goroutine : Goroutine) :
    Prop :=
  match goroutine.place with
  | .toBinary body => buffers body = []
  | .write body pending true =>
      ToBinary signature [] goroutine.data = .next (buffers body ++ pending)
  | .checkLen body => ToBinary signature [] goroutine.data = .next (buffers body)
  | .bytes body => Body signature goroutine.data (buffers body)
  | .getMessage _ bodyArr => Body signature goroutine.data bodyArr
  | .writeHeader _ message bodyArr =>
      Body signature goroutine.data bodyArr ∧ buffers message = []
  | .writeBody _ message bodyArr =>
      Body signature goroutine.data bodyArr ∧ buffers message = headerBytes bodyArr
  | .add _ message | .send _ message =>
      frame signature goroutine.data = some (buffers message)
  | .getBody | .write _ _ false | .put _ _ | .reset _ _ | .returned _ => True

def Goods (signature : DataSignature) (dp : DataPublisher) : Prop :=
  ∀ (index : Nat) (goroutine : Goroutine), dp.publishes[index]? = some goroutine →
    Good signature dp.buffers goroutine

theorem Good.congr {buffers others : Nat → Bytes} {goroutine : Goroutine}
    (hsame : ∀ buffer ∈ goroutine.place.owns, others buffer = buffers buffer)
    (hgood : Good signature buffers goroutine) : Good signature others goroutine := by
  obtain ⟨data, place⟩ := goroutine
  cases place with
  | write body pending success =>
      cases success with
      | false => trivial
      | true =>
          have hbody := hsame body (by simp [Place.owns])
          simpa only [Good, hbody] using hgood
  | toBinary body | checkLen body | bytes body =>
      have hbody := hsame body (by simp [Place.owns])
      simpa only [Good, hbody] using hgood
  | writeHeader body message bodyArr | writeBody body message bodyArr =>
      have hmessage := hsame message (by simp [Place.owns])
      simpa only [Good, hmessage] using hgood
  | add body message | send body message =>
      have hmessage := hsame message (by simp [Place.owns])
      simpa only [Good, hmessage] using hgood
  | getBody | getMessage | put | reset | returned => exact hgood

theorem goods_goto
    (hothers : ∀ other goroutine, other ≠ index → dp.publishes[other]? = some goroutine →
      Good signature dp.buffers goroutine)
    (hgood : Good signature dp.buffers ⟨data, place⟩) :
    Goods signature (dp.goto index data place) := by
  intro other goroutine hget
  rw [goto, List.getElem?_set] at hget
  split at hget
  · split at hget
    · cases hget
      exact hgood
    · cases hget
  · rename_i hother
    exact hothers other goroutine (Ne.symm hother) hget

theorem others_store {bytes : Bytes} (hgoods : Goods signature dp)
    (hprivate : dp.Private index buffer) (other : Nat) (goroutine : Goroutine)
    (hother : other ≠ index) (hget : dp.publishes[other]? = some goroutine) :
    Good signature (dp.store buffer bytes).buffers goroutine := by
  apply (hgoods other goroutine hget).congr
  intro owned howns
  apply store_of_ne dp bytes
  rintro rfl
  exact hprivate.others other goroutine hother hget howns

theorem goods_store {bytes : Bytes} (hgoods : Goods signature dp)
    (hprivate : dp.Private dp.publishes.length buffer) :
    Goods signature (dp.store buffer bytes) := by
  intro other goroutine hget
  have hindex := (List.getElem?_eq_some_iff.mp hget).1
  exact others_store hgoods hprivate other goroutine (Nat.ne_of_lt hindex) hget

theorem goods_get {choice : Option Nat} (howned : dp.Owned) (hgoods : Goods signature dp)
    (hget : Gets dp choice buffer next) : Goods signature next := by
  cases hget with
  | fresh => exact @goods_store _ dp dp.created [] hgoods (howned.fresh_private _).2
  | pooled => exact hgoods

theorem Gets.empty {choice : Option Nat} (hpooled : dp.Pooled)
    (hreset : ∀ buffer, choice = some buffer → ¬ dp.Resetting buffer)
    (hget : Gets dp choice buffer next) : next.buffers buffer = [] := by
  cases hget with
  | fresh => exact store_self dp dp.created []
  | pooled hmem => exact (hpooled buffer hmem).resolve_right (hreset buffer rfl)

theorem goods_publish {choice : Option Nat} {count : Nat} (howned : dp.Owned)
    (hpooled : dp.Pooled) (hparked : dp.Parked) (hgoods : Goods signature dp)
    (hreset : ∀ buffer, choice = some buffer → ¬ dp.Resetting buffer)
    (hpublish : dp.Publish signature index choice count = some next) :
    Goods signature next := by
  obtain ⟨data, place, hplace, hmoves⟩ := Publish_moves hpublish
  have hgood := hgoods index _ hplace
  have hsame : ∀ other goroutine, other ≠ index → dp.publishes[other]? = some goroutine →
      Good signature dp.buffers goroutine := fun other goroutine _ hget =>
    hgoods other goroutine hget
  cases hmoves with
  | getBody hget =>
      have hgot := goods_get howned hgoods hget
      exact goods_goto (fun other goroutine _ hother => hgot other goroutine hother)
        (hget.empty hpooled hreset)
  | @encodes body bytes hencoded =>
      refine goods_goto hsame ?_
      change ToBinary signature [] data = .next (dp.buffers body ++ bytes)
      change dp.buffers body = [] at hgood
      rw [hgood]
      exact hencoded
  | refuses | refused | tooLong => exact goods_goto hsame trivial
  | panics | sendPanics => exact hgoods
  | @writes body front back success =>
      have hprivate := (@Owned.owns_private _ _ body _ _ howned hplace (by simp [Place.owns])).2
      refine @goods_goto _ (dp.append body front) _ _ _ (others_store hgoods hprivate) ?_
      cases success with
      | false => trivial
      | true =>
          change ToBinary signature [] data =
            .next ((dp.store body (dp.buffers body ++ front)).buffers body ++ back)
          rw [store_self, List.append_assoc]
          exact hgood
  | @written body =>
      refine goods_goto hsame ?_
      change ToBinary signature [] data = .next (dp.buffers body)
      change ToBinary signature [] data = .next (dp.buffers body ++ []) at hgood
      rwa [List.append_nil] at hgood
  | fits hle => exact goods_goto hsame ⟨hgood, hle⟩
  | bytes => exact goods_goto hsame hgood
  | getMessage hget =>
      have hgot := goods_get howned hgoods hget
      exact goods_goto (fun other goroutine _ hother => hgot other goroutine hother)
        ⟨hgood, hget.empty hpooled hreset⟩
  | @writeHeader body message bodyArr =>
      have hprivate := (@Owned.owns_private _ _ message _ _ howned hplace
        (by simp [Place.owns])).2
      refine @goods_goto _ (dp.append message (headerBytes bodyArr)) _ _ _
        (others_store hgoods hprivate) ⟨hgood.1, ?_⟩
      exact (store_self dp message _).trans (by rw [hgood.2, List.nil_append])
  | @writeBody body message bodyArr =>
      have hprivate := (@Owned.owns_private _ _ message _ _ howned hplace
        (by simp [Place.owns])).2
      refine @goods_goto _ (dp.append message bodyArr) _ _ _ (others_store hgoods hprivate) ?_
      change frame signature data = some ((dp.store message _).buffers message)
      rw [store_self, hgood.2]
      exact hgood.1.frame
  | add => exact @goods_goto _ (dp.add 1) _ _ _ hsame hgood
  | @sends _ message => exact @goods_goto _ (dp.push index message) _ _ _ hsame trivial
  | @put body => exact @goods_goto _ (dp.put body) _ _ _ hsame trivial
  | @reset body result =>
      have hmem := hparked body (Or.inl ⟨_, List.mem_of_getElem? hplace, rfl⟩)
      exact @goods_goto _ (dp.store body []) _ _ _
        (others_store hgoods (howned.pool_private hmem index)) trivial

theorem goods_flow (howned : dp.Owned) (hparked : dp.Parked) (hgoods : Goods signature dp)
    (hsend : dp.SendMessage writeOk = some next) : Goods signature next := by
  have hflows := SendMessage_flows hsend
  generalize hflow : dp.flow = flow at hflows
  cases hflows with
  | loop | receive | panics | empty | filled | copy | put | done | goesOn | stops =>
      exact hgoods
  | @reset first lastMessage result message =>
      have hmem := hparked lastMessage (Or.inr (by rw [hflow]; rfl))
      exact @goods_store _ dp lastMessage [] hgoods (howned.pool_private hmem _)

def FrameOf (signature : DataSignature) (publishes : List Goroutine) (index : Nat)
    (bytes : Bytes) : Prop :=
  ∃ goroutine, publishes[index]? = some goroutine ∧
    frame signature goroutine.data = some bytes

/-- The buffer `SendMessage` received, before it copies it. -/
def Flow.untaken : Flow → List Nat
  | .checkLen _ lastMessage | .copy _ lastMessage => [lastMessage]
  | _ => []

/-- What was sent is, in this order, taken, received or still in the channel. -/
def Framed (signature : DataSignature) (dp : DataPublisher) : Prop :=
  List.Forall₂ (FrameOf signature dp.publishes) dp.sent
    (dp.taken ++ (dp.flow.untaken ++ dp.messageStack).map dp.buffers)

theorem length_headerBytes (bodyArr : Bytes) : (headerBytes bodyArr).length = 4 :=
  length_leBytes _ _

theorem frame_length {bytes : Bytes} (hframe : frame signature data = some bytes) :
    4 ≤ bytes.length ∧ bytes.length ≤ 16777220 := by
  unfold frame at hframe
  cases hencoded : ToBinary signature [] data with
  | next body =>
      simp only [hencoded] at hframe
      split at hframe
      · cases hframe
      · obtain rfl := Option.some.inj hframe
        rw [List.length_append, length_headerBytes]
        omega
  | fail body | crash =>
      rw [hencoded] at hframe
      cases hframe

theorem FrameOf.goto {other : Nat} {bytes : Bytes}
    (hplace : dp.publishes[index]? = some ⟨data, old⟩)
    (hframe : FrameOf signature dp.publishes other bytes) :
    FrameOf signature (dp.goto index data place).publishes other bytes := by
  obtain ⟨goroutine, hget, hframe⟩ := hframe
  by_cases hother : other = index
  · subst hother
    rw [hplace] at hget
    obtain rfl := Option.some.inj hget
    refine ⟨⟨data, place⟩, ?_, hframe⟩
    exact List.getElem?_set_self (List.getElem?_eq_some_iff.mp hplace).1
  · refine ⟨goroutine, ?_, hframe⟩
    rw [DataPublisher.goto, List.getElem?_set_ne (Ne.symm hother)]
    exact hget

theorem framed_goto (hplace : dp.publishes[index]? = some ⟨data, old⟩)
    (hframed : Framed signature dp) : Framed signature (dp.goto index data place) :=
  List.Forall₂.imp (fun _ _ hframe => hframe.goto hplace) hframed

theorem Private.same {bytes : Bytes} (hprivate : dp.Private index buffer) :
    (dp.flow.untaken ++ dp.messageStack).map (dp.store buffer bytes).buffers =
      (dp.flow.untaken ++ dp.messageStack).map dp.buffers := by
  apply List.map_congr_left
  intro other hmem
  apply store_of_ne dp bytes
  rintro rfl
  rcases List.mem_append.mp hmem with huntaken | hstack
  · apply hprivate.flow
    cases hflow : dp.flow <;> simp_all [Flow.untaken, Flow.owns]
  · exact hprivate.stack hstack

theorem framed_store {bytes : Bytes} (hprivate : dp.Private index buffer)
    (hframed : Framed signature dp) : Framed signature (dp.store buffer bytes) := by
  unfold Framed at hframed ⊢
  rw [← @Private.same dp index buffer bytes hprivate] at hframed
  exact hframed

theorem framed_get {choice : Option Nat} (howned : dp.Owned)
    (hget : Gets dp choice buffer next) (hframed : Framed signature dp) :
    Framed signature next := by
  cases hget with
  | fresh => exact @framed_store _ dp 0 dp.created [] (howned.fresh_private 0).2 hframed
  | pooled => exact hframed

theorem framed_publish {choice : Option Nat} {count : Nat} (howned : dp.Owned)
    (hparked : dp.Parked) (hgoods : Goods signature dp) (hframed : Framed signature dp)
    (hpublish : dp.Publish signature index choice count = some next) :
    Framed signature next := by
  obtain ⟨data, place, hplace, hmoves⟩ := Publish_moves hpublish
  cases hmoves with
  | getBody hget | getMessage hget =>
      rw [← hget.publishes] at hplace
      exact framed_goto hplace (framed_get howned hget hframed)
  | encodes | refuses | written | refused | tooLong | fits | bytes =>
      exact framed_goto hplace hframed
  | panics | sendPanics => exact hframed
  | @writes body front _ _ =>
      have hprivate := (@Owned.owns_private _ _ body _ _ howned hplace (by simp [Place.owns])).2
      exact @framed_goto _ (dp.append body front) _ _ _ _ hplace (framed_store hprivate hframed)
  | @writeHeader _ message bodyArr =>
      have hprivate := (@Owned.owns_private _ _ message _ _ howned hplace
        (by simp [Place.owns])).2
      exact @framed_goto _ (dp.append message (headerBytes bodyArr)) _ _ _ _ hplace
        (framed_store hprivate hframed)
  | @writeBody _ message bodyArr =>
      have hprivate := (@Owned.owns_private _ _ message _ _ howned hplace
        (by simp [Place.owns])).2
      exact @framed_goto _ (dp.append message bodyArr) _ _ _ _ hplace
        (framed_store hprivate hframed)
  | add => exact @framed_goto _ (dp.add 1) _ _ _ _ hplace hframed
  | @sends body message hopen =>
      refine @framed_goto _ (dp.push index message) _ _ _ _ hplace ?_
      have hgood := hgoods index _ hplace
      have hpushed : List.Forall₂ (FrameOf signature dp.publishes) (dp.sent ++ [index])
          (dp.taken ++ (dp.flow.untaken ++ dp.messageStack).map dp.buffers ++
            [dp.buffers message]) :=
        List.rel_append hframed (.cons ⟨_, hplace, hgood⟩ .nil)
      unfold Framed push
      simpa only [List.map_append, List.append_assoc, List.map_cons, List.map_nil]
        using hpushed
  | @put body => exact @framed_goto _ (dp.put body) _ _ _ _ hplace hframed
  | @reset body result =>
      have hmem := hparked body (Or.inl ⟨_, List.mem_of_getElem? hplace, rfl⟩)
      exact @framed_goto _ (dp.store body []) _ _ _ _ hplace
        (framed_store (howned.pool_private hmem index) hframed)

theorem exists_of_mem_right {α β : Type} {R : α → β → Prop} {lefts : List α}
    {rights : List β} {right : β} (hrelated : List.Forall₂ R lefts rights)
    (hmem : right ∈ rights) : ∃ left ∈ lefts, R left right := by
  induction hrelated with
  | nil => cases hmem
  | cons hhead _ ih =>
      rcases List.mem_cons.mp hmem with rfl | htail
      · exact ⟨_, List.mem_cons_self, hhead⟩
      · obtain ⟨left, hleft, hright⟩ := ih htail
        exact ⟨left, List.mem_cons_of_mem _ hleft, hright⟩

theorem Framed.received {first : Bool} {lastMessage : Nat} (hframed : Framed signature dp)
    (huntaken : dp.flow = .checkLen first lastMessage ∨ dp.flow = .copy first lastMessage) :
    ∃ index, FrameOf signature dp.publishes index (dp.buffers lastMessage) := by
  have hmem : dp.buffers lastMessage ∈
      dp.taken ++ (dp.flow.untaken ++ dp.messageStack).map dp.buffers := by
    rcases huntaken with hflow | hflow <;> simp [hflow, Flow.untaken]
  obtain ⟨index, -, hframe⟩ := exists_of_mem_right hframed hmem
  exact ⟨index, hframe⟩

theorem framed_flow (howned : dp.Owned) (hparked : dp.Parked)
    (hframed : Framed signature dp) (hsend : dp.SendMessage writeOk = some next) :
    Framed signature next := by
  have hflows := SendMessage_flows hsend
  have hbefore := hframed
  unfold Framed at hbefore
  generalize hflow : dp.flow = flow at hflows
  rw [hflow] at hbefore
  cases hflows with
  | loop =>
      unfold Framed
      cases hstop : dp.stopRequest <;> exact hbefore
  | receive hstack =>
      rw [hstack] at hbefore
      exact hbefore
  | panics => exact hframed
  | filled | put | done | goesOn | stops => exact hbefore
  | empty hempty =>
      obtain ⟨index, goroutine, -, hframe⟩ := hframed.received (Or.inl hflow)
      have hlength := (frame_length hframe).1
      rw [hempty, List.length_nil] at hlength
      omega
  | @copy first lastMessage =>
      simp only [Flow.untaken, List.singleton_append, List.map_cons] at hbefore
      unfold Framed
      simpa only [Flow.untaken, List.nil_append, List.append_assoc, List.singleton_append]
        using hbefore
  | @reset first lastMessage result message =>
      have hmem := hparked lastMessage (Or.inr (by rw [hflow]; rfl))
      have hstored := @framed_store _ dp 0 lastMessage [] (howned.pool_private hmem 0) hframed
      unfold Framed at hstored
      change List.Forall₂ _ _ (dp.taken ++ (dp.flow.untaken ++ _).map _) at hstored
      rw [hflow] at hstored
      exact hstored

def Place.succeeds : Place → Bool
  | .put _ result | .reset _ result | .returned result => result
  | _ => false

/-- The call returns true, as soon as its deferred calls are done. -/
def Succeeded (publishes : List Goroutine) (index : Nat) : Prop :=
  ∃ goroutine, publishes[index]? = some goroutine ∧ goroutine.place.succeeds = true

def Once (dp : DataPublisher) : Prop :=
  dp.sent.Nodup ∧ ∀ index, index ∈ dp.sent ↔ Succeeded dp.publishes index

theorem succeeded_goto (hplace : dp.publishes[index]? = some ⟨data, old⟩) (other : Nat) :
    Succeeded (dp.goto index data place).publishes other ↔
      (other = index ∧ place.succeeds = true) ∨
        (other ≠ index ∧ Succeeded dp.publishes other) := by
  have hlength := (List.getElem?_eq_some_iff.mp hplace).1
  unfold Succeeded goto
  by_cases hother : other = index
  · subst hother
    simp [List.getElem?_set_self hlength]
  · simp [hother, List.getElem?_set_ne (Ne.symm hother)]

theorem succeeded_iff (hplace : dp.publishes[index]? = some ⟨data, old⟩) :
    Succeeded dp.publishes index ↔ old.succeeds = true := by
  simp [Succeeded, hplace]

theorem once_goto (hplace : dp.publishes[index]? = some ⟨data, old⟩)
    (hsame : place.succeeds = old.succeeds) (honce : dp.Once) :
    (dp.goto index data place).Once := by
  refine ⟨honce.1, fun other => ?_⟩
  rw [succeeded_goto hplace]
  refine (honce.2 other).trans ?_
  by_cases hother : other = index
  · subst hother
    simp [succeeded_iff hplace, hsame]
  · simp [hother]

theorem once_publish {choice : Option Nat} {count : Nat} (honce : dp.Once)
    (hpublish : dp.Publish signature index choice count = some next) : next.Once := by
  obtain ⟨data, place, hplace, hmoves⟩ := Publish_moves hpublish
  cases hmoves with
  | getBody hget | getMessage hget =>
      cases hget <;> exact once_goto hplace rfl honce
  | encodes | refuses | written | refused | tooLong | fits | bytes =>
      exact once_goto hplace rfl honce
  | panics | sendPanics => exact honce
  | @writes body front _ _ => exact @once_goto (dp.append body front) _ _ _ _ hplace rfl honce
  | @writeHeader _ message bodyArr =>
      exact @once_goto (dp.append message (headerBytes bodyArr)) _ _ _ _ hplace rfl honce
  | @writeBody _ message bodyArr =>
      exact @once_goto (dp.append message bodyArr) _ _ _ _ hplace rfl honce
  | add => exact @once_goto (dp.add 1) _ _ _ _ hplace rfl honce
  | @sends body message hopen =>
      have hnew : index ∉ dp.sent := by
        rw [honce.2 index, succeeded_iff hplace]
        simp [Place.succeeds]
      refine ⟨honce.1.append (List.nodup_singleton index) ?_, fun other => ?_⟩
      · simpa using hnew
      · rw [@succeeded_goto (dp.push index message) index data _ _ hplace other]
        change other ∈ dp.sent ++ [index] ↔ _ ∨ _ ∧ Succeeded dp.publishes other
        rw [← honce.2 other]
        by_cases hother : other = index
        · simp [hother, Place.succeeds]
        · simp [hother]
  | @put body _ => exact @once_goto (dp.put body) _ _ _ _ hplace rfl honce
  | @reset body _ => exact @once_goto (dp.store body []) _ _ _ _ hplace rfl honce

theorem once_flow (honce : dp.Once) (hsend : dp.SendMessage writeOk = some next) :
    next.Once := by
  have hflows := SendMessage_flows hsend
  generalize dp.flow = flow at hflows
  cases hflows <;> exact honce

structure Sound (signature : DataSignature) (dp : DataPublisher) : Prop where
  owned : dp.Owned
  pooled : dp.Pooled
  parked : dp.Parked
  goods : Goods signature dp
  framed : Framed signature dp
  once : dp.Once

theorem sound_new : Sound signature NewDataPublisher where
  owned := owned_new
  pooled := by
    intro buffer hmem
    cases hmem
  parked := by
    rintro buffer (⟨goroutine, hmem, -⟩ | hflow)
    · cases hmem
    · cases hflow
  goods := by
    intro index goroutine hget
    cases hget
  framed := .nil
  once := by
    refine ⟨List.nodup_nil, fun index => ⟨?_, ?_⟩⟩
    · intro hmem
      cases hmem
    · rintro ⟨goroutine, hget, -⟩
      cases hget

theorem getElem?_publish {other : Nat} {goroutine : Goroutine} (added : Goroutine)
    (hget : dp.publishes[other]? = some goroutine) :
    (dp.publishes ++ [added])[other]? = some goroutine := by
  rw [List.getElem?_append_left (List.getElem?_eq_some_iff.mp hget).1]
  exact hget

theorem goods_called (hgoods : Goods signature dp) (data : List Any) :
    Goods signature { dp with publishes := dp.publishes ++ [⟨data, .getBody⟩] } := by
  intro other goroutine hget
  rcases List.mem_append.mp (List.mem_of_getElem? hget) with hmem | hmem
  · obtain ⟨before, hbefore⟩ := List.getElem?_of_mem hmem
    exact hgoods before goroutine hbefore
  · rw [List.mem_singleton.mp hmem]
    trivial

theorem framed_called (hframed : Framed signature dp) (data : List Any) :
    Framed signature { dp with publishes := dp.publishes ++ [⟨data, .getBody⟩] } := by
  refine List.Forall₂.imp ?_ hframed
  rintro index bytes ⟨goroutine, hget, hframe⟩
  exact ⟨goroutine, getElem?_publish _ hget, hframe⟩

theorem once_called (honce : dp.Once) (data : List Any) :
    ({ dp with publishes := dp.publishes ++ [⟨data, .getBody⟩] } : DataPublisher).Once := by
  refine ⟨honce.1, fun index => (honce.2 index).trans ⟨?_, ?_⟩⟩
  · rintro ⟨goroutine, hget, hsucceeds⟩
    exact ⟨goroutine, getElem?_publish _ hget, hsucceeds⟩
  · rintro ⟨goroutine, hget, hsucceeds⟩
    rw [List.getElem?_append] at hget
    split at hget
    · exact ⟨goroutine, hget, hsucceeds⟩
    · rw [List.mem_singleton.mp (List.mem_of_getElem? hget)] at hsucceeds
      cases hsucceeds

theorem sound_step {action : Action} (hsound : Sound signature dp)
    (hreset : dp.GetsReset action) (hstep : dp.step signature writeOk action = some next) :
    Sound signature next := by
  have howned := owned_step hsound.owned hstep
  have hpooled := pooled_step hsound.owned hsound.pooled hstep
  have hparked := parked_step hsound.parked hreset hstep
  unfold step at hstep
  split at hstep
  · cases hstep
  · cases action with
    | publish data =>
        cases hstep
        exact ⟨howned, hpooled, hparked, goods_called hsound.goods data,
          framed_called hsound.framed data, once_called hsound.once data⟩
    | run index choice count =>
        have hchoice : ∀ buffer, choice = some buffer → ¬ dp.Resetting buffer :=
          fun buffer hchoice => hreset index buffer count (by rw [hchoice])
        exact ⟨howned, hpooled, hparked,
          goods_publish hsound.owned hsound.pooled hsound.parked hsound.goods hchoice hstep,
          framed_publish hsound.owned hsound.parked hsound.goods hsound.framed hstep,
          once_publish hsound.once hstep⟩
    | flow =>
        exact ⟨howned, hpooled, hparked,
          goods_flow hsound.owned hsound.parked hsound.goods hstep,
          framed_flow hsound.owned hsound.parked hsound.framed hstep,
          once_flow hsound.once hstep⟩
    | stop =>
        change dp.stop = some next at hstep
        unfold stop at hstep
        split at hstep
        · cases hstep
          exact ⟨howned, hpooled, hparked, hsound.goods, hsound.framed, hsound.once⟩
        · cases hstep
          exact ⟨howned, hpooled, hparked, hsound.goods, hsound.framed, hsound.once⟩
        · cases hstep

theorem sound_reaches
    (hreaches : Reaches (step signature writeOk) GetsReset NewDataPublisher dp) :
    Sound signature dp :=
  hreaches.invariant sound_new fun _ _ _ hsound hreset hstep =>
    sound_step hsound hreset hstep

/-- Each frame taken is that of one call that succeeds, in the order of the channel, and
what is not taken yet is still to come. -/
structure Delivered (signature : DataSignature) (dp : DataPublisher) : Prop where
  frames : List.Forall₂ (FrameOf signature dp.publishes) (dp.sent.take dp.taken.length)
    dp.taken
  once : dp.sent.Nodup
  successful : ∀ index, index ∈ dp.sent ↔ Succeeded dp.publishes index
  whole : dp.taken.length + (dp.flow.untaken ++ dp.messageStack).length = dp.sent.length

theorem Sound.delivered (hsound : Sound signature dp) : Delivered signature dp where
  frames := by
    have hfront := List.forall₂_take dp.taken.length hsound.framed
    rwa [List.take_left] at hfront
  once := hsound.once.1
  successful := hsound.once.2
  whole := by
    have hlength := hsound.framed.length_eq
    rw [List.length_append, List.length_map] at hlength
    exact hlength.symm

/-- In a run whose `Get`s take no buffer that is still going to be reset, what is published
is sent; and the pool is as it should be while no operation is between its `Put` and its
`Reset`. -/
theorem publishes_delivered (signature : DataSignature)
    (writeOk : List Bytes → Bytes → Bool) {dp : DataPublisher}
    (hreaches : Reaches (step signature writeOk) GetsReset NewDataPublisher dp) :
    (dp.PoolLaw ↔ dp.NoneBetween) ∧ Delivered signature dp := by
  have hsound := sound_reaches hreaches
  refine ⟨?_, hsound.delivered⟩
  rw [poolLaw_iff hsound.owned hsound.pooled]
  exact noneBetween_iff hsound.parked

def Action.fresh : Action → Bool
  | .run _ (some _) _ => false
  | _ => true

theorem getsReset_of_fresh {action : Action} (hfresh : action.fresh = true)
    (dp : DataPublisher) : dp.GetsReset action := by
  rintro index buffer count rfl
  cases hfresh

def publishNumber (index : Nat) (body message : Option Nat) (number : UInt64) :
    List Action :=
  [.publish [.value (.uint number)], .run index body 0, .run index none 0,
    .run index none 7, .run index none 0, .run index none 0, .run index none 0,
    .run index message 0, .run index none 0, .run index none 0, .run index none 0,
    .run index none 0, .run index none 0]

def allWrites (_ : List Bytes) (_ : Bytes) : Bool := true

theorem publishes_delivered_reused :
    ∃ dp, ((dp.PoolLaw ↔ dp.NoneBetween) ∧ Delivered [DataType.u.char] dp) ∧
      dp.created = 3 ∧
      dp.written =
        [[8, 0, 0, 1, 5, 0, 0, 0, 0, 0, 0, 0], [8, 0, 0, 1, 6, 0, 0, 0, 0, 0, 0, 0]] := by
  have hfresh : ∀ actions : List Action, actions.all Action.fresh = true →
      ∀ action ∈ actions, ∀ dp : DataPublisher, dp.GetsReset action :=
    fun actions hall action hmem => getsReset_of_fresh (List.all_eq_true.mp hall action hmem)
  obtain ⟨called, reused, final, hcalled, hplaces, hflow, hreused, hfinal, hcreated,
      hwritten⟩ : ∃ called reused final,
      run (step [DataType.u.char] allWrites) NewDataPublisher
        (publishNumber 0 none none 5 ++ [.run 0 none 0, .publish [.value (.uint 6)]]) =
          some called ∧
      called.publishes.all (fun goroutine => goroutine.place.resets == none) = true ∧
      called.flow.resets = none ∧
      step [DataType.u.char] allWrites called (.run 1 (some 0) 0) = some reused ∧
      run (step [DataType.u.char] allWrites) reused ((publishNumber 1 (some 0) none 6).drop 2 ++
        [.run 1 none 0] ++ List.replicate 15 .flow) = some final ∧
      final.created = 3 ∧ final.written =
        [[8, 0, 0, 1, 5, 0, 0, 0, 0, 0, 0, 0], [8, 0, 0, 1, 6, 0, 0, 0, 0, 0, 0, 0]] :=
    ⟨_, _, _, rfl, rfl, rfl, rfl, rfl, rfl, rfl⟩
  have hnone : called.GetsReset (.run 1 (some 0) 0) := by
    rintro index buffer count - (⟨goroutine, hmem, hresets⟩ | hresets)
    · simpa [hresets] using List.all_eq_true.mp hplaces goroutine hmem
    · rw [hflow] at hresets
      cases hresets
  have hreaches := ((reaches_of_run (hfresh _ rfl) hcalled).next _ hnone hreused).trans
    (reaches_of_run (hfresh _ rfl) hfinal)
  exact ⟨final, publishes_delivered _ _ hreaches, hcreated, hwritten⟩

/-- The body of the first call is in the pool before it is reset; the second call takes it,
and its frame has both numbers. -/
theorem pool_hands_out_used :
    (∃ dp, Reachable (step [DataType.u.char] allWrites) NewDataPublisher dp ∧
      ¬ dp.PoolLaw) ∧
    ∃ dp, Reachable (step [DataType.u.char] allWrites) NewDataPublisher dp ∧
      ¬ Delivered [DataType.u.char] dp := by
  constructor
  · have hrun : ∃ dp, run (step [DataType.u.char] allWrites) NewDataPublisher
        (publishNumber 0 none none 5) = some dp ∧ dp.messagePool = [0] ∧
          dp.buffers 0 = [5, 0, 0, 0, 0, 0, 0, 0] := ⟨_, rfl, rfl, rfl⟩
    obtain ⟨dp, hrun, hpool, hbuffer⟩ := hrun
    refine ⟨dp, reaches_of_run (fun _ _ _ => trivial) hrun, fun hlaw => ?_⟩
    have hempty := (hlaw 0 (by simp [hpool])).1
    rw [hbuffer] at hempty
    cases hempty
  · have hrun : ∃ dp, run (step [DataType.u.char] allWrites) NewDataPublisher
        (publishNumber 0 none none 5 ++ publishNumber 1 (some 0) none 6 ++
          List.replicate 11 .flow) = some dp ∧ dp.sent = [0, 1] ∧
        dp.publishes.map (fun goroutine => frame [DataType.u.char] goroutine.data) =
          [some [8, 0, 0, 1, 5, 0, 0, 0, 0, 0, 0, 0], some [8, 0, 0, 1, 6, 0, 0, 0, 0, 0, 0, 0]] ∧
        dp.taken = [[8, 0, 0, 1, 5, 0, 0, 0, 0, 0, 0, 0],
          [16, 0, 0, 1, 5, 0, 0, 0, 0, 0, 0, 0, 6, 0, 0, 0, 0, 0, 0, 0]] :=
      ⟨_, rfl, rfl, rfl, rfl⟩
    obtain ⟨dp, hrun, hsent, hframes, htaken⟩ := hrun
    refine ⟨dp, reaches_of_run (fun _ _ _ => trivial) hrun, fun hdelivered => ?_⟩
    have hall := hdelivered.frames
    rw [hsent, htaken] at hall
    obtain ⟨-, htail⟩ := List.forall₂_cons.mp hall
    obtain ⟨⟨goroutine, hget, hframe⟩, -⟩ := List.forall₂_cons.mp htail
    have hsecond := congrArg (fun frames => frames[1]?) hframes
    simp only [List.getElem?_map, hget, Option.map_some, hframe] at hsecond
    cases hsecond

end DataPublisher

end Rpcmple.Go
