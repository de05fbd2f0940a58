import Rpcmple.Data.Parties
import Rpcmple.Data.System
import Rpcmple.Go.DataPublisher

namespace Rpcmple.Go

open Data DataSignature

namespace DataPublisher

variable {signature : DataSignature} {writeOk : List Bytes → Bytes → Bool}
  {dp next : DataPublisher} {index buffer : Nat} {data : List Any} {place : Place}

inductive Gets (dp : DataPublisher) : Option Nat → Nat → DataPublisher → Prop where
  | fresh : Gets dp none dp.created
      { dp with
        created := dp.created + 1
        buffers := Function.update dp.buffers dp.created [] }
  | pooled {buffer : Nat} : buffer ∈ dp.messagePool →
      Gets dp (some buffer) buffer { dp with messagePool := dp.messagePool.erase buffer }

theorem get_gets {choice : Option Nat} (hget : dp.get choice = some (buffer, next)) :
    Gets dp choice buffer next := by
  cases choice with
  | none =>
      cases hget
      exact .fresh
  | some pooled =>
      simp only [get] at hget
      split at hget
      · rename_i hmem
        cases hget
        exact .pooled hmem
      · cases hget

inductive Moves (signature : DataSignature) (dp : DataPublisher) (index : Nat)
    (choice : Option Nat) (data : List Any) : Place → DataPublisher → Prop where
  | getBody {body : Nat} {got : DataPublisher} : Gets dp choice body got →
      Moves signature dp index choice data .getBody (got.goto index data (.toBinary body))
  | encodes {body : Nat} {bytes : Bytes} : ToBinary signature [] data = .next bytes →
      Moves signature dp index choice data (.toBinary body)
        (dp.goto index data (.write body bytes true))
  | refuses {body : Nat} {bytes : Bytes} : ToBinary signature [] data = .fail bytes →
      Moves signature dp index choice data (.toBinary body)
        (dp.goto index data (.write body bytes false))
  | panics {body : Nat} : ToBinary signature [] data = .crash →
      Moves signature dp index choice data (.toBinary body) dp.panic
  | writes {body : Nat} {front back : Bytes} {success : Bool} :
      Moves signature dp index choice data (.write body (front ++ back) success)
        ((dp.append body front).goto index data (.write body back success))
  | written {body : Nat} : Moves signature dp index choice data (.write body [] true)
      (dp.goto index data (.checkLen body))
  | refused {body : Nat} : Moves signature dp index choice data (.write body [] false)
      (dp.goto index data (.put body false))
  | tooLong {body : Nat} : 16777216 < (dp.buffers body).length →
      Moves signature dp index choice data (.checkLen body)
        (dp.goto index data (.put body false))
  | fits {body : Nat} : (dp.buffers body).length ≤ 16777216 →
      Moves signature dp index choice data (.checkLen body)
        (dp.goto index data (.bytes body))
  | bytes {body : Nat} : Moves signature dp index choice data (.bytes body)
      (dp.goto index data (.getMessage body (dp.buffers body)))
  | getMessage {body message : Nat} {bodyArr : Bytes} {got : DataPublisher} :
      Gets dp choice message got →
      Moves signature dp index choice data (.getMessage body bodyArr)
        (got.goto index data (.writeHeader body message bodyArr))
  | writeHeader {body message : Nat} {bodyArr : Bytes} :
      Moves signature dp index choice data (.writeHeader body message bodyArr)
        ((dp.append message (headerBytes bodyArr)).goto index data
          (.writeBody body message bodyArr))
  | writeBody {body message : Nat} {bodyArr : Bytes} :
      Moves signature dp index choice data (.writeBody body message bodyArr)
        ((dp.append message bodyArr).goto index data (.add body message))
  | add {body message : Nat} : Moves signature dp index choice data (.add body message)
      ((dp.add 1).goto index data (.send body message))
  | sends {body message : Nat} : dp.stopping ≠ .closed →
      Moves signature dp index choice data (.send body message)
        ((dp.push index message).goto index data (.put body true))
  | sendPanics {body message : Nat} : dp.stopping = .closed →
      Moves signature dp index choice data (.send body message) dp.panic
  | put {body : Nat} {result : Bool} :
      Moves signature dp index choice data (.put body result)
        ((dp.put body).goto index data (.reset body result))
  | reset {body : Nat} {result : Bool} :
      Moves signature dp index choice data (.reset body result)
        ((dp.store body []).goto index data (.returned result))

theorem Publish_moves {choice : Option Nat} {count : Nat}
    (hpublish : dp.Publish signature index choice count = some next) :
    ∃ data place, dp.publishes[index]? = some ⟨data, place⟩ ∧
      Moves signature dp index choice data place next := by
  unfold Publish at hpublish
  cases hplace : dp.publishes[index]? with
  | none => simp [hplace] at hpublish
  | some goroutine =>
      obtain ⟨data, place⟩ := goroutine
      refine ⟨data, place, rfl, ?_⟩
      simp only [hplace] at hpublish
      cases place with
      | getBody =>
          obtain ⟨⟨body, got⟩, hget, rfl⟩ := Option.map_eq_some_iff.mp hpublish
          exact .getBody (get_gets hget)
      | toBinary body =>
          cases hencoded : ToBinary signature [] data with
          | next bytes | fail bytes | crash =>
              simp only [hencoded, Option.some.injEq] at hpublish
              subst hpublish
              constructor
              exact hencoded
      | write body pending success =>
          simp only at hpublish
          split at hpublish
          · rename_i hempty
            obtain rfl := List.isEmpty_iff.mp hempty
            cases success with
            | false =>
                cases hpublish
                exact .refused
            | true =>
                cases hpublish
                exact .written
          · cases hpublish
            have hwrites := @Moves.writes signature dp index choice data body
              (pending.take (count + 1)) (pending.drop (count + 1)) success
            rwa [List.take_append_drop] at hwrites
      | checkLen body =>
          cases hpublish
          split
          · rename_i hlong
            exact .tooLong hlong
          · rename_i hfits
            exact .fits (not_lt.mp hfits)
      | bytes body =>
          cases hpublish
          exact .bytes
      | getMessage body bodyArr =>
          obtain ⟨⟨message, got⟩, hget, rfl⟩ := Option.map_eq_some_iff.mp hpublish
          exact .getMessage (get_gets hget)
      | writeHeader body message bodyArr =>
          cases hpublish
          exact .writeHeader
      | writeBody body message bodyArr =>
          cases hpublish
          exact .writeBody
      | add body message =>
          cases hpublish
          exact .add
      | send body message =>
          simp only at hpublish
          split at hpublish
          · rename_i hclosed
            cases hpublish
            exact .sendPanics hclosed
          · rename_i hopen
            split at hpublish
            · cases hpublish
              exact .sends hopen
            · cases hpublish
      | put body result =>
          cases hpublish
          exact .put
      | reset body result =>
          cases hpublish
          exact .reset
      | returned result => cases hpublish

inductive Flows (writeOk : List Bytes → Bytes → Bool) (dp : DataPublisher) :
    Flow → DataPublisher → Prop where
  | loop : Flows writeOk dp .loop
      { dp with flow := if dp.stopRequest then .closed else .receive false }
  | receive {first : Bool} {lastMessage : Nat} {messageStack : List Nat} :
      dp.messageStack = lastMessage :: messageStack →
      Flows writeOk dp (.receive first)
        { dp with messageStack, flow := .checkLen first lastMessage }
  | panics {first : Bool} : dp.messageStack = [] → dp.stopping = .closed →
      Flows writeOk dp (.receive first) dp.panic
  | empty {first : Bool} {lastMessage : Nat} : dp.buffers lastMessage = [] →
      Flows writeOk dp (.checkLen first lastMessage)
        { dp with flow := .put first lastMessage false [] }
  | filled {first : Bool} {lastMessage : Nat} : dp.buffers lastMessage ≠ [] →
      Flows writeOk dp (.checkLen first lastMessage) { dp with flow := .copy first lastMessage }
  | copy {first : Bool} {lastMessage : Nat} : Flows writeOk dp (.copy first lastMessage)
      { dp with
        taken := dp.taken ++ [dp.buffers lastMessage]
        flow := .put first lastMessage true (dp.buffers lastMessage) }
  | put {first : Bool} {lastMessage : Nat} {result : Bool} {message : Bytes} :
      Flows writeOk dp (.put first lastMessage result message)
        { dp.put lastMessage with flow := .reset first lastMessage result message }
  | reset {first : Bool} {lastMessage : Nat} {result : Bool} {message : Bytes} :
      Flows writeOk dp (.reset first lastMessage result message)
        { dp.store lastMessage [] with flow := .done first result message }
  | done {first : Bool} {result : Bool} {message : Bytes} :
      Flows writeOk dp (.done first result message)
        { dp.add (-1) with
          panicked := decide ((dp.add (-1)).wg < 0)
          flow := .write first result message }
  | goesOn {first : Bool} {result : Bool} {message : Bytes} {written : List Bytes} :
      MessageManager.transmit first writeOk result message dp.written = some written →
      Flows writeOk dp (.write first result message) { dp with written, flow := .loop }
  | stops {first : Bool} {result : Bool} {message : Bytes} :
      MessageManager.transmit first writeOk result message dp.written = none →
      Flows writeOk dp (.write first result message)
        { dp with stopRequest := true, flow := .closed }

theorem SendMessage_flows (hsend : dp.SendMessage writeOk = some next) :
    Flows writeOk dp dp.flow next := by
  unfold SendMessage at hsend
  cases hflow : dp.flow with
  | loop =>
      simp only [hflow, Option.some.injEq] at hsend
      subst hsend
      exact .loop
  | receive first =>
      simp only [hflow] at hsend
      cases hstack : dp.messageStack with
      | nil =>
          simp only [hstack] at hsend
          split at hsend
          · rename_i hclosed
            cases hsend
            exact .panics hstack hclosed
          · cases hsend
      | cons lastMessage messageStack =>
          simp only [hstack, Option.some.injEq] at hsend
          subst hsend
          exact .receive hstack
  | checkLen first lastMessage =>
      simp only [hflow, Option.some.injEq] at hsend
      subst hsend
      split
      · rename_i hempty
        exact .empty (List.length_eq_zero_iff.mp hempty)
      · rename_i hfilled
        exact .filled fun hempty => hfilled (List.length_eq_zero_iff.mpr hempty)
  | copy first lastMessage =>
      simp only [hflow, Option.some.injEq] at hsend
      subst hsend
      exact .copy
  | put first lastMessage result message =>
      simp only [hflow, Option.some.injEq] at hsend
      subst hsend
      exact .put
  | reset first lastMessage result message =>
      simp only [hflow, Option.some.injEq] at hsend
      subst hsend
      exact .reset
  | done first result message =>
      simp only [hflow, Option.some.injEq] at hsend
      subst hsend
      exact .done
  | write first result message =>
      simp only [hflow] at hsend
      split at hsend
      · rename_i htransmit
        cases hsend
        exact .stops htransmit
      · rename_i htransmit
        cases hsend
        exact .goesOn htransmit
  | closed => simp [hflow] at hsend

/-- The buffers a call of `Publish` is still going to use, `reset` apart. -/
def Place.owns : Place → List Nat
  | .getBody | .reset _ _ | .returned _ => []
  | .toBinary body | .write body _ _ | .checkLen body | .bytes body
  | .getMessage body _ | .put body _ => [body]
  | .writeHeader body message _ | .writeBody body message _ | .add body message
  | .send body message => [body, message]

def Flow.owns : Flow → List Nat
  | .checkLen _ lastMessage | .copy _ lastMessage | .put _ lastMessage _ _ => [lastMessage]
  | _ => []

/-- The buffer a deferred `Reset` is still going to empty, after the `Put`. -/
def Place.resets : Place → Option Nat
  | .reset body _ => some body
  | _ => none

def Flow.resets : Flow → Option Nat
  | .reset _ lastMessage _ _ => some lastMessage
  | _ => none

def held (dp : DataPublisher) (buffer : Nat) : Nat :=
  dp.messagePool.count buffer + dp.messageStack.count buffer +
    dp.flow.owns.count buffer +
    (dp.publishes.map fun goroutine => goroutine.place.owns.count buffer).sum

/-- Every buffer is in one place at most. -/
def Owned (dp : DataPublisher) : Prop :=
  ∀ buffer, dp.held buffer ≤ 1 ∧ (dp.created ≤ buffer → dp.held buffer = 0)

theorem owned_new : NewDataPublisher.Owned := fun _ => ⟨Nat.zero_le _, fun _ => rfl⟩

theorem held_goto {old : Place} (hplace : dp.publishes[index]? = some ⟨data, old⟩)
    (buffer : Nat) :
    (dp.goto index data place).held buffer + old.owns.count buffer =
      dp.held buffer + place.owns.count buffer := by
  have hsum := Parties.sum_set
    (fun goroutine : Goroutine => goroutine.place.owns.count buffer) hplace ⟨data, place⟩
  simp only [held, goto] at hsum ⊢
  omega

theorem Gets.publishes {choice : Option Nat} (hget : Gets dp choice buffer next) :
    next.publishes = dp.publishes := by
  cases hget <;> rfl

theorem Gets.held {choice : Option Nat} (hget : Gets dp choice buffer next)
    (howned : dp.Owned) (other : Nat) :
    next.held other + [buffer].count other ≤ 1 ∧
      (next.created ≤ other → next.held other + [buffer].count other = 0) := by
  obtain ⟨honce, hnever⟩ := howned other
  cases hget with
  | fresh =>
      have hsame : ({ dp with
          created := dp.created + 1
          buffers := Function.update dp.buffers dp.created [] } : DataPublisher).held other =
          dp.held other := rfl
      rw [hsame, List.count_singleton]
      by_cases hnew : dp.created = other
      · have hzero := hnever (by omega)
        simp only [hnew, beq_self_eq_true, if_true]
        omega
      · simp only [beq_iff_eq, hnew, if_false]
        exact ⟨honce, fun hle => hnever (by omega)⟩
  | pooled hmem =>
      have hcount := List.count_pos_iff.mpr hmem
      have hmoves : ({ dp with messagePool := dp.messagePool.erase buffer } :
          DataPublisher).held other + [buffer].count other = dp.held other := by
        simp only [DataPublisher.held, List.count_erase, List.count_singleton]
        by_cases hbuffer : buffer = other
        · subst hbuffer
          simp only [beq_self_eq_true, if_true]
          omega
        · simp only [beq_iff_eq, hbuffer, if_false]
          omega
      rw [hmoves]
      exact ⟨honce, hnever⟩

private theorem count_push (head : Nat) (tail : List Nat) (buffer : Nat) :
    (head :: tail).count buffer = [head].count buffer + tail.count buffer :=
  @List.count_append _ _ buffer [head] tail

theorem owned_goto {old : Place} (hplace : dp.publishes[index]? = some ⟨data, old⟩)
    (hmoves : ∀ buffer, dp.held buffer + place.owns.count buffer ≤
        1 + old.owns.count buffer ∧
      (dp.created ≤ buffer → dp.held buffer + place.owns.count buffer =
        old.owns.count buffer)) : (dp.goto index data place).Owned := by
  intro buffer
  obtain ⟨honce, hnever⟩ := hmoves buffer
  have hgoto := @held_goto dp index data place old hplace buffer
  refine ⟨by omega, fun hle => ?_⟩
  have hzero := hnever hle
  omega

theorem owned_same {old : Place} (howned : dp.Owned)
    (hplace : dp.publishes[index]? = some ⟨data, old⟩)
    (hsame : place.owns = old.owns) : (dp.goto index data place).Owned := by
  apply owned_goto hplace
  intro buffer
  obtain ⟨honce, hnever⟩ := howned buffer
  rw [hsame]
  refine ⟨by omega, fun hle => ?_⟩
  rw [hnever hle, Nat.zero_add]

theorem owned_publish {choice : Option Nat} {count : Nat} (howned : dp.Owned)
    (hpublish : dp.Publish signature index choice count = some next) : next.Owned := by
  obtain ⟨data, place, hplace, hmoves⟩ := Publish_moves hpublish
  cases hmoves with
  | getBody hget =>
      rw [← hget.publishes] at hplace
      apply owned_goto hplace
      intro buffer
      obtain ⟨honce, hnever⟩ := hget.held howned buffer
      exact ⟨honce, hnever⟩
  | @getMessage body message bodyArr got hget =>
      rw [← hget.publishes] at hplace
      apply owned_goto hplace
      intro buffer
      obtain ⟨honce, hnever⟩ := hget.held howned buffer
      simp only [Place.owns, count_push body [message]]
      refine ⟨by omega, fun hle => ?_⟩
      have hzero := hnever hle
      omega
  | encodes | refuses | written | refused | tooLong | fits | bytes =>
      exact owned_same howned hplace rfl
  | panics | sendPanics => exact howned
  | @writes body front _ _ => exact @owned_same (dp.append body front) _ _ _ _ howned hplace rfl
  | @writeHeader _ message bodyArr =>
      exact @owned_same (dp.append message (headerBytes bodyArr)) _ _ _ _ howned hplace rfl
  | @writeBody _ message bodyArr =>
      exact @owned_same (dp.append message bodyArr) _ _ _ _ howned hplace rfl
  | add => exact @owned_same (dp.add 1) _ _ _ _ howned hplace rfl
  | @sends body message hopen =>
      apply @owned_goto (dp.push index message) _ _ _ _ hplace
      intro buffer
      obtain ⟨honce, hnever⟩ := howned buffer
      simp only [held, push, Place.owns, List.count_append, count_push body [message]]
        at honce hnever ⊢
      refine ⟨by omega, fun hle => ?_⟩
      have hzero := hnever hle
      omega
  | @put body result =>
      apply @owned_goto (dp.put body) _ _ _ _ hplace
      intro buffer
      obtain ⟨honce, hnever⟩ := howned buffer
      simp only [held, DataPublisher.put, Place.owns, count_push body dp.messagePool,
        List.count_nil] at honce hnever ⊢
      refine ⟨by omega, fun hle => ?_⟩
      have hzero := hnever hle
      omega
  | @reset body _ => exact @owned_same (dp.store body []) _ _ _ _ howned hplace rfl

theorem owned_flow (howned : dp.Owned) (hsend : dp.SendMessage writeOk = some next) :
    next.Owned := by
  have hflows := SendMessage_flows hsend
  intro buffer
  obtain ⟨honce, hnever⟩ := howned buffer
  unfold held at honce hnever
  generalize hflow : dp.flow = flow at hflows
  rw [hflow] at honce hnever
  cases hflows with
  | loop =>
      unfold held
      cases dp.stopRequest with
      | false | true => exact ⟨honce, hnever⟩
  | @receive first lastMessage messageStack hstack =>
      simp only [hstack, count_push lastMessage messageStack, Flow.owns, List.count_nil,
        held] at honce hnever ⊢
      refine ⟨by omega, fun hle => ?_⟩
      have hzero := hnever hle
      omega
  | @put first lastMessage result message =>
      simp only [DataPublisher.put, count_push lastMessage dp.messagePool, Flow.owns,
        List.count_nil, held] at honce hnever ⊢
      refine ⟨by omega, fun hle => ?_⟩
      have hzero := hnever hle
      omega
  | panics => exact howned buffer
  | empty | filled | copy | reset | done | goesOn | stops => exact ⟨honce, hnever⟩

theorem owned_step {action : Action} (howned : dp.Owned)
    (hstep : dp.step signature writeOk action = some next) : next.Owned := by
  unfold step at hstep
  split at hstep
  · cases hstep
  · cases action with
    | publish data =>
        cases hstep
        intro buffer
        obtain ⟨honce, hnever⟩ := howned buffer
        simp only [held, List.map_append, List.sum_append] at honce hnever ⊢
        exact ⟨honce, hnever⟩
    | run index choice count => exact owned_publish howned hstep
    | flow => exact owned_flow howned hstep
    | stop =>
        change dp.stop = some next at hstep
        unfold stop at hstep
        split at hstep
        · cases hstep
          exact howned
        · cases hstep
          exact howned
        · cases hstep

end DataPublisher

end Rpcmple.Go
