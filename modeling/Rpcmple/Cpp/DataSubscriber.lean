import Rpcmple.Cpp.RpcServer

namespace Rpcmple.Cpp

open Data

/-- The subscriber, whether it has a callback, and a record of what the callback
was called with, and for which body. -/
structure DataSubscriber where
  mSignature : DataSignature
  callbackFunction : Bool
  sectionLen : UInt32
  sectionID : UInt16
  invocations : List (Bytes × VariantVector)

namespace DataSubscriber

variable (host : Platform)

def new (signature : DataSignature) (callback : Bool) : DataSubscriber where
  mSignature := signature
  callbackFunction := callback
  sectionLen := 4
  sectionID := 0
  invocations := []

def calls (subscriber : DataSubscriber) : List VariantVector :=
  subscriber.invocations.map Prod.snd

def callback (subscriber : DataSubscriber) (message : Bytes) (args : VariantVector) :
    DataSubscriber :=
  if subscriber.callbackFunction then
    { subscriber with invocations := subscriber.invocations ++ [(message, args)] }
  else subscriber

def expectHeader (subscriber : DataSubscriber) : DataSubscriber :=
  { subscriber with sectionLen := 4, sectionID := 0 }

def parseHeader (subscriber : DataSubscriber) (message : Bytes) : Parsed DataSubscriber :=
  Parsed.after (readHeader host message) subscriber fun mVal =>
    let subscriber : DataSubscriber := { subscriber with sectionLen := mVal % 16777216 }
    if subscriber.sectionLen > 0 then .returns (true, { subscriber with sectionID := 1 })
    else if subscriber.mSignature.length > 0 then .returns (false, subscriber)
    else .returns (true, (subscriber.callback [] []).expectHeader)

/-- Nothing looks at what `fromBinary` returns. -/
def parseBody (subscriber : DataSubscriber) (message : Bytes) : Parsed DataSubscriber :=
  Parsed.after (DataSignature.fromBinary host subscriber.mSignature message []) subscriber
    fun decoded =>
      let subscriber := subscriber.callback message decoded.args
      if subscriber.mSignature.length ≠ decoded.args.length then .returns (false, subscriber)
      else .returns (true, subscriber.expectHeader)

def parseMessage (subscriber : DataSubscriber) (message : Bytes) : Parsed DataSubscriber :=
  if subscriber.sectionID = 0 then subscriber.parseHeader host message
  else if subscriber.sectionID = 1 then subscriber.parseBody host message
  else .returns (false, subscriber)

def published (subscriber : DataSubscriber) (message : Bytes) : Option Bytes :=
  if subscriber.sectionID = 0 then
    match readHeader host message with
    | .returns mVal => if mVal % 16777216 > 0 then none else some []
    | .rejects | .throws | .undefined => none
  else if subscriber.sectionID = 1 then some message
  else none

/-- A subscriber never sends, although it counts as the requester. -/
def methods : Parser DataSubscriber where
  isRequester := true
  parseMessage := parseMessage host
  getMessageLen subscriber := subscriber.sectionLen
  writeMessage subscriber _ := some (true, [], subscriber)

def Framed (subscriber : DataSubscriber) : Prop :=
  RpcServer.SectionFramed subscriber.sectionID subscriber.sectionLen

variable {host}

theorem parseMessage_framed {subscriber next : DataSubscriber} {message : Bytes}
    (hparse : subscriber.parseMessage host message = .returns (true, next)) :
    next.Framed := by
  unfold parseMessage at hparse
  split at hparse
  · obtain ⟨mVal, -, hbody⟩ := Parsed.after_eq_returns.mp hparse
    simp only at hbody
    split at hbody
    · rename_i hpositive
      cases hbody
      exact RpcServer.sectionFramed_body hpositive
    · split at hbody
      · cases hbody
      · cases hbody
        exact RpcServer.sectionFramed_header
  · split at hparse
    · obtain ⟨decoded, -, hbody⟩ := Parsed.after_eq_returns.mp hparse
      simp only at hbody
      split at hbody
      · cases hbody
      · cases hbody
        exact RpcServer.sectionFramed_header
    · cases hparse

end DataSubscriber

end Rpcmple.Cpp
