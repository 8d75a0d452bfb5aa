import Ibridger.Js.Client
import Ibridger.Js.Messages
import Ibridger.Js.Replies

/-! # The envelopes that are created

`call` of `client.ts` and `dispatch` of `server.ts` create objects of the class
`Envelope`, and leave out the properties that they do not need. What the objects show are
the envelopes of the client and the server.
-/

namespace Ibridger.Js

open Rpc

/-- `MessageType` and `StatusCode` of `proto.js`. -/
def MessageType.REQUEST : Int32 := 0
def MessageType.RESPONSE : Int32 := 1
def MessageType.ERROR : Int32 := 3
def StatusCode.OK : Int32 := 0
def StatusCode.NOT_FOUND : Int32 := 2
def StatusCode.INTERNAL : Int32 := 4

namespace Client

/-- The object that `call` creates. -/
def requestObject {Value : Type} (call : Call Value) (id : Nat) (payload : List UInt8)
    (metadata : Option StringRecord) : IEnvelope :=
  Proto.Envelope.create
    { type := some MessageType.REQUEST
      requestId := some (UInt64.ofNat id)
      serviceName := some call.service
      methodName := some call.method
      payload := some payload
      metadata := some (metadata.getD .empty) }

theorem requestObject_envelope {Value : Type} {call : Call Value} {metadata : Option StringRecord}
    (hmetadata : call.options.metadata = metadata.map StringRecord.entries) (id : Nat)
    (payload : List UInt8) :
    (requestObject call id payload metadata).envelope = requestEnvelope call id payload := by
  rw [requestEnvelope, hmetadata]
  cases metadata <;> rfl

end Client

namespace Dispatch

def errorObject (request : IEnvelope) (status : Int32) (message : String) : IEnvelope :=
  Proto.Envelope.create
    { type := some MessageType.ERROR
      status := some status
      requestId := some (request.requestId.getD 0)
      errorMessage := some message }

/-- `dispatch` on objects. -/
def replyObject (services : ServiceTable MethodHandler) (request : IEnvelope) : IEnvelope :=
  let serviceName := request.serviceName.getD ""
  let methodName := request.methodName.getD ""
  match services serviceName with
  | none => errorObject request StatusCode.NOT_FOUND ("Service not found: " ++ serviceName)
  | some service =>
      match service methodName with
      | none =>
          errorObject request StatusCode.NOT_FOUND
            ("Method not found: " ++ serviceName ++ "/" ++ methodName)
      | some handler =>
          match handler (request.payload.getD []) with
          | .returned payload =>
              Proto.Envelope.create
                { type := some MessageType.RESPONSE
                  status := some StatusCode.OK
                  requestId := some (request.requestId.getD 0)
                  payload := some payload }
          | .threw message =>
              errorObject request StatusCode.INTERNAL
                (if message = "" then "Internal server error" else message)

/-- On objects as on the envelopes that they show. -/
theorem replyObject_envelope (services : ServiceTable MethodHandler) (request : IEnvelope) :
    (replyObject services request).envelope = reply services request.envelope := by
  unfold replyObject reply locate
  dsimp only [IEnvelope.envelope]
  cases hservice : services (request.serviceName.getD "") with
  | none => rfl
  | some service =>
      dsimp only
      cases hmethod : service (request.methodName.getD "") with
      | none => rfl
      | some handler =>
          dsimp only
          cases handler (request.payload.getD []) <;> rfl

/-- `dispatch` does not look at the metadata. -/
theorem reply_congr (services : ServiceTable MethodHandler) {ignored : List String}
    {request other : Wire.Envelope} (hsame : request.SameBut ignored other) :
    reply services request = reply services other := by
  have herror : errorEnvelope request = errorEnvelope other := by
    funext status message
    rw [errorEnvelope, errorEnvelope, hsame.requestId_eq]
  have hlocate : locate services request = locate services other := by
    rw [locate, locate, herror, hsame.serviceName_eq, hsame.methodName_eq]
  have hrespond : respond request = respond other := by
    funext outcome
    cases outcome with
    | returned payload => rw [respond, respond, hsame.requestId_eq]
    | threw message => rw [respond, respond, herror]
  rw [reply, reply, hlocate, hrespond, hsame.payload_eq]

end Dispatch

end Ibridger.Js
