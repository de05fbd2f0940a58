import Rpcmple.Data.Relay
import Rpcmple.Go.Frames
import Rpcmple.Go.Waiting
import Rpcmple.Wire.Datagram

namespace Rpcmple.Go

open Data DataSignature System

namespace DataPublisher

variable {signature : DataSignature} {writeOk : List Bytes → Bytes → Bool}
  {dp next : DataPublisher} {index : Nat} {data : List Any} {place old : Place}

theorem transmit_takes {first result : Bool} {message : Bytes} {written more : List Bytes}
    (htransmit : MessageManager.transmit first writeOk result message written = some more) :
    ∃ sent, more = written ++ sent ∧ ∀ message ∈ sent, writeOk written message = true := by
  unfold MessageManager.transmit at htransmit
  split at htransmit
  · cases htransmit
  · split at htransmit
    · split at htransmit
      · cases htransmit
      · cases htransmit
        exact ⟨[], (List.append_nil _).symm, by simp⟩
    · split at htransmit
      · cases htransmit
      · split at htransmit
        · cases htransmit
        · rename_i hok
          cases htransmit
          exact ⟨[message], rfl, List.forall_mem_singleton.mpr (by simpa using hok)⟩

theorem SendMessage_writes (hsend : dp.SendMessage writeOk = some next) :
    ∃ more, next.written = dp.written ++ more ∧
      ∀ message ∈ more, writeOk dp.written message = true := by
  have hflows := SendMessage_flows hsend
  generalize dp.flow = flow at hflows
  cases hflows with
  | goesOn htransmit => exact transmit_takes htransmit
  | loop | receive | panics | empty | filled | copy | put | reset | done | stops =>
      exact ⟨[], (List.append_nil _).symm, by simp⟩

def datas (dp : DataPublisher) : List (List Any) := dp.publishes.map Goroutine.data

theorem datas_goto (hplace : dp.publishes[index]? = some ⟨data, old⟩) :
    (dp.goto index data place).datas = dp.datas := by
  rw [datas, goto, List.map_set]
  have hdata : dp.datas[index]? = some data := by
    rw [datas, List.getElem?_map, hplace]
    rfl
  obtain ⟨hindex, hget⟩ := List.getElem?_eq_some_iff.mp hdata
  have hset := List.set_getElem_self hindex
  rw [hget] at hset
  exact hset

theorem Publish_same {choice : Option Nat} {count : Nat}
    (hpublish : dp.Publish signature index choice count = some next) :
    next.datas = dp.datas ∧ next.written = dp.written := by
  obtain ⟨data, place, hplace, hmoves⟩ := Publish_moves hpublish
  cases hmoves with
  | getBody hget | getMessage hget =>
      cases hget <;> exact ⟨datas_goto hplace, rfl⟩
  | panics | sendPanics => exact ⟨rfl, rfl⟩
  | encodes | refuses | writes | written | refused | tooLong | fits | bytes
  | writeHeader | writeBody | add | sends | put | reset =>
      exact ⟨datas_goto hplace, rfl⟩

theorem stop_same (hstop : dp.stop = some next) :
    next.datas = dp.datas ∧ next.written = dp.written := by
  unfold stop at hstop
  split at hstop
  · cases hstop
    exact ⟨rfl, rfl⟩
  · cases hstop
    exact ⟨rfl, rfl⟩
  · cases hstop

theorem SendMessage_datas (hsend : dp.SendMessage writeOk = some next) :
    next.datas = dp.datas := by
  have hflows := SendMessage_flows hsend
  generalize dp.flow = flow at hflows
  cases hflows <;> rfl

def Plain (data : List Any) : Prop :=
  ∃ values, Denotes data values ∧ ∀ value ∈ values, value.Fits

/-- `Get` takes no buffer that is still going to be reset, and what is published is plain. -/
def Publishes (dp : DataPublisher) (action : Action) : Prop :=
  dp.GetsReset action ∧ ∀ data, action = .publish data → Plain data

theorem frame_publication {bytes : Bytes} {values : List Value}
    (hdenotes : Denotes data values) (hfits : ∀ value ∈ values, value.Fits)
    (hframe : frame signature data = some bytes) :
    bytes = (publication signature values).bytes ∧ (bodyFormat signature).Valid values := by
  unfold frame at hframe
  cases hencoded : ToBinary signature [] data with
  | next body =>
      simp only [hencoded] at hframe
      split at hframe
      · cases hframe
      · obtain rfl := Option.some.inj hframe
        obtain ⟨accepted, haccepted, htyped⟩ := ToBinary_accepts hencoded
        obtain rfl := hdenotes.unique haccepted
        obtain rfl : body = (bodyFormat signature).emit values := by
          have hbody := ToBinary_of_fits [] hdenotes htyped hfits
          exact Outcome.next.inj (hencoded.symm.trans hbody)
        refine ⟨?_, bodyFormat_valid_iff.mpr ⟨htyped, hfits⟩⟩
        rw [headerBytes, publication, Frame.bytes, ← header_eq]
        rfl
  | fail body | crash =>
      rw [hencoded] at hframe
      cases hframe

/-- Each datagram is a message that was published. -/
structure Datagrams (signature : DataSignature) (writeOk : List Bytes → Bytes → Bool)
    (dp : DataPublisher) (groups : List (List (List Value))) : Prop where
  sound : Sound signature dp
  given : dp.Given writeOk
  plain : ∀ data ∈ dp.datas, Plain data
  whole : dp.written = groups.map (datagram signature)
  single : ∀ group ∈ groups, Sendable signature group ∧ ∃ values, group = [values]

theorem datagrams_start : Datagrams signature writeOk NewDataPublisher [] where
  sound := sound_new
  given := given_new
  plain _ hmem := by cases hmem
  whole := rfl
  single _ hmem := by cases hmem

theorem written_frames (hsound : Sound signature dp) (hgiven : dp.Given writeOk) :
    List.Forall₂ (FrameOf signature dp.publishes) (dp.sent.take dp.written.length)
      dp.written := by
  obtain ⟨refused, htaken, -, -⟩ := hgiven.taken
  have hframed := hsound.framed
  unfold Framed at hframed
  rw [htaken, List.append_assoc, List.append_assoc] at hframed
  have hfront := List.forall₂_take dp.written.length hframed
  rwa [List.take_left] at hfront

theorem sendable_of_frame {call : Nat} {bytes : Bytes}
    (hplain : ∀ data ∈ dp.datas, Plain data) (hframe : FrameOf signature dp.publishes call bytes)
    (hshort : bytes.length ≤ largestDatagram) :
    ∃ goroutine values, dp.publishes[call]? = some goroutine ∧ Denotes goroutine.data values ∧
      bytes = datagram signature [values] ∧ Sendable signature [values] := by
  obtain ⟨goroutine, hget, hbytes⟩ := hframe
  obtain ⟨values, hdenotes, hfits⟩ := hplain goroutine.data
    (List.mem_map_of_mem (List.mem_of_getElem? hget))
  obtain ⟨rfl, hvalid⟩ := frame_publication hdenotes hfits hbytes
  have hsingle : (publication signature values).bytes = datagram signature [values] := by
    rw [datagram, List.flatMap_singleton]
  rw [hsingle] at hshort ⊢
  refine ⟨goroutine, values, hget, hdenotes, rfl, List.forall_mem_singleton.mpr hvalid, ?_, hshort⟩
  rw [← hsingle, ← List.length_pos_iff, Frame.length_bytes]
  omega

theorem datagrams_step {groups : List (List (List Value))} {action : Action}
    (hsize : ∀ sent message, writeOk sent message = true → message.length ≤ largestDatagram)
    (hdatagrams : Datagrams signature writeOk dp groups) (hallowed : dp.Publishes action)
    (hstep : dp.step signature writeOk action = some next) :
    ∃ more, Datagrams signature writeOk next (groups ++ more) := by
  obtain ⟨hsound, hgiven, hplain, hwhole, hsingle⟩ := hdatagrams
  have hsoundNext := sound_step hsound hallowed.1 hstep
  have hgivenNext := given_step hsound.framed hgiven hstep
  have hsame : next.datas = dp.datas → next.written = dp.written →
      ∃ more, Datagrams signature writeOk next (groups ++ more) := by
    intro hdatas hnext
    refine ⟨[], hsoundNext, hgivenNext, hdatas ▸ hplain, ?_, by simpa using hsingle⟩
    rw [List.append_nil, hnext]
    exact hwhole
  unfold step at hstep
  split at hstep
  · cases hstep
  · cases action with
    | publish data =>
        cases hstep
        refine ⟨[], hsoundNext, hgivenNext, ?_,
          by rw [List.append_nil]; exact hwhole, by simpa using hsingle⟩
        intro other hmem
        rw [datas, List.map_append] at hmem
        rcases List.mem_append.mp hmem with hbefore | hnew
        · exact hplain other hbefore
        · obtain rfl := List.mem_singleton.mp hnew
          exact hallowed.2 _ rfl
    | run index choice count =>
        obtain ⟨hdatas, hnext⟩ := Publish_same hstep
        exact hsame hdatas hnext
    | stop =>
        obtain ⟨hdatas, hnext⟩ := stop_same hstep
        exact hsame hdatas hnext
    | flow =>
        obtain ⟨more, hmore, hok⟩ := SendMessage_writes hstep
        have hplainNext : ∀ data ∈ next.datas, Plain data := by
          rw [SendMessage_datas hstep]
          exact hplain
        have hframes := written_frames hsoundNext hgivenNext
        have hgroups : ∀ message ∈ more, ∃ values,
            message = datagram signature [values] ∧ Sendable signature [values] := by
          intro message hmem
          obtain ⟨call, -, hframe⟩ := exists_of_mem_right hframes
            (by rw [hmore]; exact List.mem_append_right _ hmem)
          obtain ⟨-, values, -, -, hbytes, hsendable⟩ :=
            sendable_of_frame hplainNext hframe (hsize _ _ (hok message hmem))
          exact ⟨values, hbytes, hsendable⟩
        obtain ⟨others, hothers, hsingles⟩ : ∃ others : List (List (List Value)),
            more = others.map (datagram signature) ∧
              ∀ group ∈ others, Sendable signature group ∧ ∃ values, group = [values] := by
          clear hmore hok hframes
          induction more with
          | nil => exact ⟨[], rfl, by simp⟩
          | cons message more ih =>
              rw [List.forall_mem_cons] at hgroups
              obtain ⟨values, hbytes, hsendable⟩ := hgroups.1
              obtain ⟨others, rfl, hsingles⟩ := ih hgroups.2
              exact ⟨[values] :: others, by rw [hbytes, List.map_cons],
                List.forall_mem_cons.mpr ⟨⟨hsendable, values, rfl⟩, hsingles⟩⟩
        refine ⟨others, hsoundNext, hgivenNext, hplainNext, ?_,
          List.forall_mem_append.mpr ⟨hsingle, hsingles⟩⟩
        rw [hmore, hwhole, hothers, List.map_append]

def Published (dp : DataPublisher) (call : Nat) (group : List (List Value)) : Prop :=
  ∃ goroutine values, dp.publishes[call]? = some goroutine ∧
    Denotes goroutine.data values ∧ group = [values]

theorem Datagrams.published {groups : List (List (List Value))}
    (hdatagrams : Datagrams signature writeOk dp groups) :
    List.Forall₂ dp.Published (dp.sent.take groups.length) groups := by
  obtain ⟨hsound, hgiven, hplain, hwhole, hsingle⟩ := hdatagrams
  have hframes := written_frames hsound hgiven
  rw [hwhole, List.length_map] at hframes
  generalize dp.sent.take groups.length = calls at hframes
  clear hwhole
  induction groups generalizing calls with
  | nil =>
      cases hframes
      exact .nil
  | cons group groups ih =>
      rw [List.forall_mem_cons] at hsingle
      obtain ⟨⟨hsendable, values, rfl⟩, hothers⟩ := hsingle
      cases hframes with
      | cons hframe hrest =>
          refine .cons ?_ (ih hothers _ hrest)
          obtain ⟨goroutine, encoded, hget, hdenotes, hbytes, hencoded⟩ :=
            sendable_of_frame hplain hframe hsendable.short
          exact ⟨goroutine, encoded, hget, hdenotes,
            congrArg (fun values => [values]) (datagram_single hsendable hencoded hbytes)⟩

theorem relay_groups
    (hsize : ∀ sent message, writeOk sent message = true → message.length ≤ largestDatagram) :
    Relay.Groups (step signature writeOk) (fun dp => dp.written) Publishes (datagram signature)
      (Sendable signature) (Datagrams signature writeOk) where
  sent _ _ hdatagrams := hdatagrams.whole
  fits _ _ hdatagrams group hmem := (hdatagrams.single group hmem).1
  keeps _ _ _ _ hdatagrams hallowed hstep := datagrams_step hsize hdatagrams hallowed hstep

end DataPublisher

end Rpcmple.Go
