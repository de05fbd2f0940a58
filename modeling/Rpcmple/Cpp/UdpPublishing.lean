import Rpcmple.Cpp.Arguments
import Rpcmple.Cpp.Datagrams
import Rpcmple.Cpp.FlowSteps
import Rpcmple.Cpp.PublishSubscribe
import Rpcmple.Data.Relay
import Rpcmple.Wire.Datagram

namespace Rpcmple.Cpp

open Data MessageManager

abbrev Entry : Type := VariantVector × Bytes

def UdpSocket.writeOk (network : DatagramNetwork) (mSocket known : Bool) (sent : List Bytes)
    (message : Bytes) : Bool :=
  match UdpSocket.write network mSocket known sent message with
  | .returns (success, _) => success
  | .rejects | .throws | .undefined => false

def Entry.frames (host : Platform) (entries : List Entry) : Bytes :=
  (entries.map Prod.snd).flatMap (DataPublisher.frame host)

namespace Publishing

variable {host : Platform} {mSignature : DataSignature} {writeOk : List Bytes → Bytes → Bool}
  {state next : Publishing} {sent : List Entry}

/-- What was published first is sent; the flow waits, holds a group or an error, or has
stopped. -/
inductive Stage (host : Platform) (state : Publishing) (sent : List Entry) : Prop
  | waits {rest : List Entry} :
      state.Running → state.hand = none → state.published = sent ++ rest →
      state.stack = rest.map Prod.snd → Stage host state sent
  | holds {held rest : List Entry} :
      state.Running → state.hand = some (true, Entry.frames host held) →
      (Entry.frames host held).length < 2 ^ 31 → state.published = sent ++ held ++ rest →
      state.stack = rest.map Prod.snd → Stage host state sent
  | refuses {message : Bytes} :
      state.Running → state.hand = some (false, message) → sent <+: state.published →
      Stage host state sent
  | stopped :
      state.hand = none → state.mm.loop = .closed → sent <+: state.published →
      Stage host state sent

theorem Stage.front (hstage : Stage host state sent) : sent <+: state.published := by
  cases hstage with
  | waits _ _ hpublished => exact ⟨_, hpublished.symm⟩
  | @holds held rest _ _ _ hpublished =>
      exact ⟨held ++ rest, by rw [hpublished, List.append_assoc]⟩
  | refuses _ _ hfront => exact hfront
  | stopped _ _ hfront => exact hfront

theorem stage_start (host : Platform) (groupMessages : Bool) :
    Stage host (start host groupMessages) [] :=
  @Stage.waits _ _ _ [] ⟨Or.inl rfl, rfl, rfl, rfl⟩ rfl rfl rfl

theorem Stage.pushed (hstage : Stage host state sent) (data : VariantVector) (message : Bytes) :
    Stage host (state.pushed data message) sent := by
  cases hstage with
  | @waits rest hrunning hhand hpublished hstack =>
      refine @Stage.waits _ _ _ (rest ++ [(data, message)]) (running_pushed hrunning) hhand ?_ ?_
      · rw [← List.append_assoc, ← hpublished]
        rfl
      · rw [List.map_append, ← hstack]
        rfl
  | @holds held rest hrunning hhand hsize hpublished hstack =>
      refine @Stage.holds _ _ _ held (rest ++ [(data, message)]) (running_pushed hrunning) hhand
        hsize ?_ ?_
      · rw [← List.append_assoc, ← hpublished]
        rfl
      · rw [List.map_append, ← hstack]
        rfl
  | refuses hrunning hhand hfront =>
      exact .refuses (running_pushed hrunning) hhand
        (hfront.trans (List.prefix_append _ _))
  | stopped hhand hclosed hfront =>
      exact .stopped hhand hclosed (hfront.trans (List.prefix_append _ _))

theorem accepted_of_send {σ : Type} {result : Bool × Bytes × σ} {checked : Nat}
    {written : List Bytes} {after : σ × List Bytes}
    (hsend : send writeOk result checked written = some after) (hfull : result.2.1 ≠ []) :
    writeOk written result.2.1 = true := by
  obtain ⟨success, message, parser⟩ := result
  simp only [send] at hsend
  split at hsend
  · cases hsend
  · split at hsend
    · rename_i hempty
      exact absurd (List.isEmpty_iff.mp hempty) hfull
    · split at hsend
      · cases hsend
      · split at hsend
        · cases hsend
        · rename_i hok
          simpa using hok

theorem write_cases {success : Bool} {message : Bytes} (hrunning : state.Running)
    (hhand : state.hand = some (success, message))
    (hwrite : state.write host writeOk = some next) :
    next.hand = none ∧ next.published = state.published ∧ next.stack = state.stack ∧
      ((next.mm.loop = .closed ∧ next.mm.written = state.mm.written) ∨
        (next.Running ∧ success = true ∧
          next.mm.written =
            state.mm.written ++ (if message.isEmpty then [] else [message]) ∧
          (message ≠ [] → writeOk state.mm.written message = true))) := by
  unfold write at hwrite
  rw [hhand, Option.map_some] at hwrite
  cases hwrite
  obtain ⟨hplace, hgoes, hwaits, hidle⟩ := hrunning
  refine ⟨rfl, rfl, ?_⟩
  rcases hplace with hloop | hloop
  · have hopens := @dataFlow_opens _
      ((DataPublisher.methods host).holding (success, message)) writeOk state.mm hloop rfl
      (success, message, state.mm.parser) rfl
    simp only [stack, hopens]
    cases hsend : send writeOk (success, message, state.mm.parser) message.length
        state.mm.written with
    | none => exact ⟨rfl, .inl ⟨rfl, rfl⟩⟩
    | some after =>
        obtain ⟨parser, written⟩ := after
        obtain ⟨hsuccess, rfl, hwritten⟩ := send_cases hsend
        exact ⟨rfl, .inr ⟨⟨.inr rfl, hgoes, hwaits, hidle⟩, hsuccess, hwritten,
          accepted_of_send hsend⟩⟩
  · have hidles := @idle_writes _
      ((DataPublisher.methods host).holding (success, message)) writeOk state.mm
      (success, message, state.mm.parser) rfl
    simp only [stack, dataFlow_idles hloop hgoes hidle, hidles]
    cases hsend : send writeOk (success, message, state.mm.parser) 0 state.mm.written with
    | none => exact ⟨rfl, .inl ⟨rfl, rfl⟩⟩
    | some after =>
        obtain ⟨parser, written⟩ := after
        obtain ⟨hsuccess, rfl, hwritten⟩ := send_cases hsend
        exact ⟨rfl, .inr ⟨⟨.inr hloop, hgoes, hwaits, rfl⟩, hsuccess, hwritten,
          accepted_of_send hsend⟩⟩

theorem Stage.writes (hstage : Stage host state sent)
    (hwrite : state.write host writeOk = some next) :
    next.published = state.published ∧
      ((next.mm.written = state.mm.written ∧ Stage host next sent) ∨
        ∃ held, Entry.frames host held ≠ [] ∧ (Entry.frames host held).length < 2 ^ 31 ∧
          writeOk state.mm.written (Entry.frames host held) = true ∧
          next.mm.written = state.mm.written ++ [Entry.frames host held] ∧
          Stage host next (sent ++ held)) := by
  have hfront := hstage.front
  cases hstage with
  | waits _ hhand | stopped hhand =>
      unfold write at hwrite
      rw [hhand] at hwrite
      cases hwrite
  | refuses hrunning hhand =>
      obtain ⟨hfree, hpublished, -, hcases⟩ := write_cases hrunning hhand hwrite
      refine ⟨hpublished, .inl ?_⟩
      rcases hcases with ⟨hclosed, hwritten⟩ | ⟨-, hfalse, -⟩
      · exact ⟨hwritten, .stopped hfree hclosed (hpublished ▸ hfront)⟩
      · cases hfalse
  | @holds held rest hrunning hhand hsize hall hstack =>
      obtain ⟨hfree, hpublished, hsame, hcases⟩ := write_cases hrunning hhand hwrite
      refine ⟨hpublished, ?_⟩
      rcases hcases with ⟨hclosed, hwritten⟩ | ⟨hgoes, -, hwritten, hok⟩
      · exact .inl ⟨hwritten, .stopped hfree hclosed (hpublished ▸ hfront)⟩
      · have hwaits : Stage host next (sent ++ held) :=
          .waits hgoes hfree (hpublished.trans hall) (hsame.trans hstack)
        by_cases hempty : Entry.frames host held = []
        · have hnone : held = [] := by
            cases held with
            | nil => rfl
            | cons entry entries =>
                have hlength := congrArg List.length hempty
                simp [Entry.frames, DataPublisher.length_frame] at hlength
          rw [hempty] at hwritten
          rw [hnone, List.append_nil] at hwaits
          exact .inl ⟨by simpa using hwritten, hwaits⟩
        · rw [List.isEmpty_eq_false_iff.mpr hempty] at hwritten
          exact .inr ⟨held, hempty, hsize, hok hempty, hwritten, hwaits⟩

theorem taken_short (host : Platform) (state : Publishing) :
    (state.taken.flatMap (DataPublisher.frame host)).length < 2 ^ 31 := by
  rw [DataPublisher.length_frames]
  have hle := @taken_le state
  rcases DataPublisher.group_split state.mm.parser.groupMessages 0 state.stack with
    hempty | ⟨front, last, rest, htaken, -, hroom, -⟩
  · rw [taken, hempty]
    exact Nat.two_pow_pos 31
  · rw [taken, htaken] at hle ⊢
    have hlast : last.length ≤ 16777216 := hle last (by simp)
    rw [DataPublisher.size, List.map_append, List.sum_append, ← DataPublisher.size]
    simp only [List.map_cons, List.map_nil, List.sum_cons, List.sum_nil]
    omega

theorem Stage.takes (hstage : Stage host state sent) (htake : state.take host = some next) :
    Stage host next sent ∧ next.published = state.published ∧
      next.mm.written = state.mm.written := by
  cases hstage with
  | @waits rest hrunning hhand hpublished hstack =>
      obtain ⟨-, -, -, success, message, left, hloop, rfl⟩ := take_cases hrunning.waits htake
      refine ⟨?_, rfl, rfl⟩
      have hrunning : Running { state with
          mm := { state.mm with parser := { state.mm.parser with messageStack := left } }
          hand := some (success, message) } :=
        ⟨hrunning.place, hrunning.goes, hrunning.waits, hrunning.idle⟩
      rcases @DataPublisher.sendLoop_spec host state.mm.parser.groupMessages state.stack [] with
        ⟨behind, hsplit, hsent⟩ | ⟨bad, behind, -, -, -, -, hsent⟩
      · obtain ⟨hsuccess, hmessage, hleft⟩ : true = success ∧
            [] ++ state.taken.flatMap (DataPublisher.frame host) = message ∧ behind = left := by
          simpa [taken] using hsent.symm.trans hloop
        subst hsuccess hmessage hleft
        rw [hstack] at hsplit
        obtain ⟨held, back, rfl, hheld, hback⟩ := List.map_eq_append_iff.mp hsplit
        have htaken : held.map Prod.snd = state.taken := by
          rw [hheld, taken, hstack]
          rfl
        have hframes : state.taken.flatMap (DataPublisher.frame host) =
            Entry.frames host held := by
          rw [Entry.frames, htaken]
        refine @Stage.holds _ _ _ held back hrunning ?_ ?_ ?_ hback.symm
        · rw [List.nil_append, hframes]
        · rw [← hframes]
          exact taken_short host state
        · exact hpublished.trans (List.append_assoc _ _ _).symm
      · have hsuccess : false = success := congrArg Prod.fst (hsent.symm.trans hloop)
        subst hsuccess
        exact .refuses hrunning rfl ⟨rest, hpublished.symm⟩
  | holds hrunning hhand | refuses hrunning hhand =>
      have hfree := (take_cases hrunning.waits htake).1
      rw [hhand] at hfree
      cases hfree
  | stopped hhand hclosed =>
      unfold take at htake
      rw [if_neg (by simp [hclosed])] at htake
      cases htake

end Publishing

namespace Publishing

variable {host : Platform} {mSignature : DataSignature} {network : DatagramNetwork}
  {mSocket known : Bool} {state next : Publishing} {groups : List (List (List Value))}

def Publishes (mSignature : DataSignature) (_ : Publishing) : Action → Prop
  | .publish data => PublishSubscribe.Plain mSignature data
  | .take | .write => True

def contents (entries : List Entry) : List (List Value) :=
  entries.map fun entry => DataSignature.plain entry.1

/-- Each datagram is a group of what was published. -/
structure Datagrams (host : Platform) (mSignature : DataSignature) (state : Publishing)
    (entries : List (List Entry)) : Prop where
  carries : ∀ entry ∈ state.published, PublishSubscribe.Carries mSignature entry
  stage : Stage host state entries.flatten
  written : state.mm.written = entries.map (Entry.frames host)
  full : ∀ group ∈ entries, Entry.frames host group ≠ [] ∧
    (Entry.frames host group).length ≤ largestDatagram

theorem Entry_frames_append (front back : List Entry) :
    Entry.frames host (front ++ back) = Entry.frames host front ++ Entry.frames host back := by
  rw [Entry.frames, List.map_append, List.flatMap_append]
  rfl

theorem frames_contents {entries : List Entry}
    (hcarries : ∀ entry ∈ entries, PublishSubscribe.Carries mSignature entry) :
    Entry.frames host entries = datagram mSignature (contents entries) ∧
      (∀ values ∈ contents entries, (bodyFormat mSignature).Valid values) ∧
      (contents entries).map (fun values => values.map Variant.value) = entries.map Prod.fst := by
  induction entries with
  | nil => exact ⟨rfl, by simp [contents], rfl⟩
  | cons entry entries ih =>
      rw [List.forall_mem_cons] at hcarries
      obtain ⟨hframes, hvalid, hvalues⟩ := ih hcarries.2
      obtain ⟨values, hfits, hentry, -⟩ := hcarries.1
      have hplain : DataSignature.plain entry.1 = values := by
        rw [hentry]
        exact DataSignature.plain_map values
      have hcons : contents (entry :: entries) = values :: contents entries := by
        rw [contents, List.map_cons, hplain]
        rfl
      rw [hcons]
      refine ⟨?_, List.forall_mem_cons.mpr ⟨hfits, hvalid⟩, ?_⟩
      · have hfirst : Entry.frames host [entry] = datagram mSignature [values] := by
          rw [Entry.frames, List.map_singleton, List.flatMap_singleton, DataPublisher.frame_eq,
            hentry, datagram, List.flatMap_singleton]
          rfl
        have hentries : entry :: entries = [entry] ++ entries := rfl
        have hgroup : values :: contents entries = [values] ++ contents entries := rfl
        rw [hentries, hgroup, Entry_frames_append, datagram_append, hfirst, hframes]
      · rw [List.map_cons, List.map_cons, hvalues, hentry]

theorem Datagrams.member {entries : List (List Entry)}
    (hdatagrams : Datagrams host mSignature state entries) {group : List Entry}
    (hgroup : group ∈ entries) : ∀ entry ∈ group, PublishSubscribe.Carries mSignature entry := by
  intro entry hentry
  apply hdatagrams.carries
  exact hdatagrams.stage.front.subset (List.mem_flatten.mpr ⟨group, hgroup, hentry⟩)

theorem datagrams_start (groupMessages : Bool) :
    Datagrams host mSignature (start host groupMessages) [] where
  carries _ hmem := by cases hmem
  stage := stage_start host groupMessages
  written := rfl
  full _ hmem := by cases hmem

theorem datagrams_step {entries : List (List Entry)} {action : Action}
    (hnarrow : Narrow mSignature) (hdatagrams : Datagrams host mSignature state entries)
    (hallowed : Publishes mSignature state action)
    (hstep : state.step host mSignature (UdpSocket.writeOk network mSocket known) action =
      some next) :
    ∃ more, Datagrams host mSignature next (entries ++ more) := by
  obtain ⟨hcarries, hstage, hwritten, hfull⟩ := hdatagrams
  cases action with
  | publish data =>
      refine ⟨[], ?_⟩
      rw [List.append_nil]
      rcases publish_cases hstep with rfl | ⟨message, hencoded, rfl⟩
      · exact ⟨hcarries, hstage, hwritten, hfull⟩
      · refine ⟨?_, hstage.pushed data message, hwritten, hfull⟩
        refine List.forall_mem_append.mpr ⟨hcarries, List.forall_mem_singleton.mpr ?_⟩
        exact PublishSubscribe.carries_of_encoded hnarrow hallowed hencoded
  | take =>
      obtain ⟨htaken, hpublished, hsame⟩ := hstage.takes hstep
      refine ⟨[], ?_⟩
      rw [List.append_nil]
      exact ⟨hpublished ▸ hcarries, htaken, hsame.trans hwritten, hfull⟩
  | write =>
      obtain ⟨hpublished, ⟨hsame, hstays⟩ | ⟨held, hempty, hsize, hok, hmore, hgoes⟩⟩ :=
        hstage.writes hstep
      · refine ⟨[], ?_⟩
        rw [List.append_nil]
        exact ⟨hpublished ▸ hcarries, hstays, hsame.trans hwritten, hfull⟩
      · have hfits : (Entry.frames host held).length ≤ largestDatagram := by
          rcases UdpSocket.write_whole network mSocket known state.mm.written hempty hsize with
            ⟨-, hfits⟩ | hfailed
          · exact hfits
          · rw [UdpSocket.writeOk, hfailed] at hok
            cases hok
        refine ⟨[held], hpublished ▸ hcarries, ?_, ?_, ?_⟩
        · rw [List.flatten_append, List.flatten_singleton]
          exact hgoes
        · rw [List.map_append, ← hwritten]
          exact hmore
        · exact List.forall_mem_append.mpr ⟨hfull, List.forall_mem_singleton.mpr ⟨hempty, hfits⟩⟩

def SendsGroups (host : Platform) (mSignature : DataSignature) (state : Publishing)
    (groups : List (List (List Value))) : Prop :=
  ∃ entries, Datagrams host mSignature state entries ∧ groups = entries.map contents

theorem SendsGroups.published (hsends : SendsGroups host mSignature state groups) :
    groups.flatten.map (fun values => values.map Variant.value) <+:
      state.published.map Prod.fst := by
  obtain ⟨entries, hdatagrams, rfl⟩ := hsends
  have hfront := hdatagrams.stage.front
  have hcontents : (entries.map contents).flatten = contents entries.flatten := by
    rw [contents, List.map_flatten]
    rfl
  have hvalues := (@frames_contents host _ entries.flatten fun entry hmem =>
    hdatagrams.carries entry (hfront.subset hmem)).2.2
  rw [hcontents, hvalues]
  exact hfront.map _

theorem sendsGroups_start (groupMessages : Bool) :
    SendsGroups host mSignature (start host groupMessages) [] :=
  ⟨[], datagrams_start groupMessages, rfl⟩

theorem relay_groups (hnarrow : Narrow mSignature) :
    Relay.Groups (Publishing.step host mSignature (UdpSocket.writeOk network mSocket known))
      (fun state => state.mm.written) (Publishes mSignature) (datagram mSignature)
      (Sendable mSignature) (SendsGroups host mSignature) where
  sent := by
    rintro state _ ⟨entries, hdatagrams, rfl⟩
    rw [hdatagrams.written, List.map_map]
    exact List.map_congr_left fun group hgroup =>
      (frames_contents (hdatagrams.member hgroup)).1
  fits := by
    rintro state _ ⟨entries, hdatagrams, rfl⟩ group hmem
    obtain ⟨group, hgroup, rfl⟩ := List.mem_map.mp hmem
    obtain ⟨hframes, hvalid, -⟩ := @frames_contents host _ _ (hdatagrams.member hgroup)
    obtain ⟨hempty, hfits⟩ := hdatagrams.full group hgroup
    rw [hframes] at hempty hfits
    exact ⟨hvalid, hempty, hfits⟩
  keeps := by
    rintro state _ action next ⟨entries, hdatagrams, rfl⟩ hallowed hstep
    obtain ⟨more, hmore⟩ := datagrams_step hnarrow hdatagrams hallowed hstep
    exact ⟨more.map contents, _, hmore, List.map_append.symm⟩

end Publishing

end Rpcmple.Cpp
