import Rpcmple.Go.DataSignature
import Rpcmple.Go.MessageManager

namespace Rpcmple.Go

open Data DataSignature

def readUint32 (mr : Bytes) : Option UInt32 :=
  (splitBytes? 4 mr).map fun split => UInt32.ofNat (leValue split.1)

theorem readUint32_of_length {message : Bytes} (hlength : message.length = 4) :
    readUint32 message = some (UInt32.ofNat (leValue message)) := by
  have hsplit := splitBytes?_append [] hlength
  rw [List.append_nil] at hsplit
  rw [readUint32, hsplit, Option.map_some]

/-- The subscriber, with a record of what its callback was called with. -/
structure DataSubscriber where
  signature : DataSignature
  sectionLen : UInt32
  sectionID : UInt16
  publisherSuccess : Bool
  callbackValues : AnySlice
  replyCallback : Bool
  replies : List (Bool × List Any)

namespace DataSubscriber

/-- `callback` tells whether there is one. -/
def NewDataSubscriber (signature : DataSignature) (callback : Bool) : DataSubscriber where
  signature := signature
  sectionLen := 4
  sectionID := 0
  publisherSuccess := false
  callbackValues := ⟨List.replicate 50 .nil, 50⟩
  replyCallback := callback
  replies := []

def parseHeader (ds : DataSubscriber) (message : Bytes) : Bool × DataSubscriber :=
  if message.length ≠ 4 then (false, ds)
  else
    match readUint32 message with
    | none => (false, ds)
    | some section1 =>
        (true,
          { ds with
            publisherSuccess := section1 / 16777216 == 1
            sectionLen := section1 % 16777216
            sectionID := 1 })

def parseBody (ds : DataSubscriber) (message : Bytes) : Bool × DataSubscriber :=
  let (success, callbackValues) := FromBinary ds.signature message ds.callbackValues
  if success.isSome then
    (true,
      { ds with
        replies :=
          if ds.replyCallback then
            ds.replies ++ [(ds.publisherSuccess, callbackValues.values)]
          else ds.replies
        callbackValues := { callbackValues with len := 0 }
        sectionLen := 4
        sectionID := 0 })
  else (false, { ds with callbackValues })

def ParseMessage (ds : DataSubscriber) (message : Bytes) : Bool × DataSubscriber :=
  if ds.sectionID = 0 then ds.parseHeader message
  else if ds.sectionID = 1 then ds.parseBody message
  else (false, ds)

def methods : MessageParser DataSubscriber where
  ParseMessage := ParseMessage
  GetMessageLen ds := ds.sectionLen.toNat
  SendMessage ds := (true, [], ds)

def Framed (ds : DataSubscriber) : Prop :=
  (ds.sectionID = 0 ∧ ds.sectionLen = 4) ∨
    (ds.sectionID = 1 ∧ ds.sectionLen.toNat < 16777216)

theorem framed_new (signature : DataSignature) (callback : Bool) :
    (NewDataSubscriber signature callback).Framed := Or.inl ⟨rfl, rfl⟩

theorem ParseMessage_framed {ds next : DataSubscriber} {message : Bytes}
    (hparse : ds.ParseMessage message = (true, next)) :
    (ds.sectionID = 0 ∧ next.sectionID = 1 ∧ next.sectionLen.toNat < 16777216) ∨
      (ds.sectionID = 1 ∧ next.sectionID = 0 ∧ next.sectionLen = 4) := by
  unfold ParseMessage at hparse
  split at hparse
  · rename_i hheader
    unfold parseHeader at hparse
    split at hparse
    · cases hparse
    · split at hparse
      · cases hparse
      · rename_i section1 _
        cases hparse
        refine Or.inl ⟨hheader, rfl, ?_⟩
        rw [UInt32.toNat_mod]
        exact Nat.mod_lt _ (by decide)
  · split at hparse
    · rename_i hbody
      unfold parseBody at hparse
      simp only at hparse
      split at hparse
      · cases hparse
        exact Or.inr ⟨hbody, rfl, rfl⟩
      · cases hparse
    · cases hparse

end DataSubscriber

end Rpcmple.Go
