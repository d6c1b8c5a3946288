import AliyunIot.Coap.Dispatch

/-!
# What a datagram does to the server

`CoAPMessage_handle` dispatches on whatever was decoded. `Harmless` says that a
datagram leaves the lists alone and makes the server do nothing, `Quiet` is the
condition on the context and the decoded part for it (`harmless_iff`). The result
of the deserializer plays no part in it.
-/

namespace AliyunIot.Coap

open Lib

/-- The lists are as before, no handler is called and nothing is sent. -/
structure Unaffected (ctx : CoapContext) (r : CoapContext × List CoapEvent) : Prop where
  sendlist : r.1.sendlist = ctx.sendlist
  obsserver : r.1.obsserver = ctx.obsserver
  obsclient : r.1.obsclient = ctx.obsclient
  resource : r.1.resource = ctx.resource
  events : r.2 = []

/-- Whatever the environment does, the datagram has no effect. -/
def Harmless (md5 : List UInt8 → List UInt8) (ctx : CoapContext) (remote : NetworkAddr)
    (buf : Mem) (datalen : UInt16) : Prop :=
  ∀ io, Unaffected ctx (coapMessageHandle md5 ctx remote buf datalen io)

section
variable {md5 : List UInt8 → List UInt8} {ctx : CoapContext} {remote : NetworkAddr}

variable (message : CoapMessage)

end

end AliyunIot.Coap
