import Rpcmple.Cpp.DataSubscriber
import Rpcmple.Cpp.Decoding
import Rpcmple.Cpp.RpcClient

namespace Rpcmple.Cpp

open Data DataSignature

namespace MessageManager

variable {σ : Type} {methods : Parser σ} {mm : MessageManager σ}

def piece (mm : MessageManager σ) : Bytes := mm.message.take mm.messageLength

end MessageManager

namespace RpcClient

end RpcClient

namespace DataSubscriber

end DataSubscriber

end Rpcmple.Cpp
