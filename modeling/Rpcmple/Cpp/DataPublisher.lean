import Rpcmple.Cpp.RpcServer

namespace Rpcmple.Cpp

open Data

structure DataPublisher where
  messageStack : List Bytes
  stopWait : Bool
  groupMessages : Bool

namespace DataPublisher

variable (host : Platform)

/-- A message of the stack behind its header, whose flag is always set. -/
def frame (stackMessage : Bytes) : Bytes :=
  headerBytes host 1 stackMessage.length ++ stackMessage

/-- The loop of `writeMessage`: whether it returns true, the vector, and what is
left on the stack.  `offset` bytes of the vector are written. -/
def sendLoop (groupMessages : Bool) : List Bytes → Bytes → Nat → Bool × Bytes × List Bytes
  | [], retMessage, _ => (true, retMessage, [])
  | stackMessage :: messageStack, retMessage, offset =>
      if retMessage.length < 1024 then
        if stackMessage.length > 16777216 then (false, retMessage, messageStack)
        else
          let retMessage := retMessage.take offset ++ frame host stackMessage
          if groupMessages then
            sendLoop groupMessages messageStack retMessage retMessage.length
          else (true, retMessage, messageStack)
      else (true, retMessage, stackMessage :: messageStack)

def writeMessage (publisher : DataPublisher) (retMessage : Bytes) :
    Option (Bool × Bytes × DataPublisher) :=
  if publisher.messageStack.isEmpty && !publisher.stopWait then none
  else if publisher.stopWait then some (false, [], publisher)
  else
    let (success, message, messageStack) :=
      sendLoop host publisher.groupMessages publisher.messageStack retMessage 0
    some (success, message, { publisher with messageStack })

def methods : Parser DataPublisher where
  isRequester := true
  parseMessage publisher _ := .returns (true, publisher)
  getMessageLen _ := 0
  writeMessage := writeMessage host

end DataPublisher

end Rpcmple.Cpp
