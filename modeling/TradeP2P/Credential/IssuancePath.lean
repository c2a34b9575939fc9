import TradeP2P.Credential.ClientSession
import TradeP2P.Credential.Polling

/-! The way from a client's request to a signature, as the mediator keeps it: the handler of a completed request, and
after it the signer, the operator and the polls. -/
namespace TradeP2P.Credential
open Wire (Bytes)
open Checks

structure IssuerConfig where
  polling : Polling.Config
  crypto : Crypto
  mediatorId : Bytes
  mediatorReceiptPublicKey : Ed25519PublicKey
  mediatorReceiptMldsa65PublicKey : MlDsa65PublicKey

inductive Handled where
  | submits (job : Job) (authorizedParty : Option Party)
  | replies (response : BlindSigResponse)

def issuanceParty : Party → UInt8
  | .a => 0
  | .b => 1

/- A raw request goes to the signer as it is; for a credential the party is derived by verification. -/
def handleAssembledRequest (config : IssuerConfig) (request : SessionRequest) : Except Error Handled := do
  if !request.credentialIssuance then
    return .submits ⟨request.toAssembledRequest, none⟩ none
  let completionReceipt ← decodeReceiptIssued request.issuanceCompletionReceipt
  let proof : IssuanceAuthorizationProof :=
    ⟨completionReceipt, request.issuanceAuthorizationSignature, request.issuanceAuthorizationSignatureMldsa65⟩
  let authorizedParty ← verifyIssuanceAuthorizationProof config.crypto proof config.mediatorId config.mediatorReceiptPublicKey
    config.mediatorReceiptMldsa65PublicKey request.issuanceRoomId request.credentialEpoch request.c.toList
  match authorizedParty with
  | none => return .replies (Signer.rejected "q7933 credential issuance authorization did not verify")
  | some party =>
      let issuanceContext : IssuanceContext := { version := credentialVersion, issuerScope := 0, epoch := request.credentialEpoch
                                                 roomId := request.issuanceRoomId, party := issuanceParty party }
      return .submits ⟨request.toAssembledRequest, some issuanceContext⟩ (some party)

/- The signer's state, with what has been authorized, ticketed and signed up to now. -/
structure IssuerState (ω κ : Type) where
  polling : Polling.State ω κ := Polling.start ω κ
  authorized : List (RoomId × Party) := []
  ticketed : List PolyQ := []
  signed : List PolyQ := []

inductive IssuerAction (ω κ : Type) where
  | request (request : SessionRequest)
  | goes (action : Polling.Action ω κ)

namespace IssuerState
variable {ω κ : Type} [DecidableEq ω] [DecidableEq κ]

/- The target of the ticket that a worker's step puts into the store. -/
def placed (s : Signer.State ω) : Signer.Action ω → List PolyQ
  | .place worker => match s.workers worker with
    | .placing _ ticket => match ticket.encode with
      | .ok _ => [ticket.c]
      | .error _ => []
    | _ => []
  | _ => []

def ticketsOf (s : Polling.State ω κ) : Polling.Action ω κ → List PolyQ
  | .worker action => placed s.signer action
  | _ => []

/- The target that `sign_target` makes a signature for. -/
def signsOf (config : Polling.Config) (s : Polling.State ω κ) : Polling.Action ω κ → List PolyQ
  | .markSigned signature => match s.operator with
    | some (_, ticket) =>
        if signature.s0.length = ringDegree ∧ signature.s1.length = ringDegree ∧ Polling.verified config ticket.c signature then [ticket.c]
        else []
    | none => []
  | _ => []

/- A job comes from the handler of a request only. -/
def submits : Polling.Action ω κ → Bool
  | .worker (.submit _) => true
  | _ => false

def step (config : IssuerConfig) (s : IssuerState ω κ) : IssuerAction ω κ → Option (IssuerState ω κ)
  | .request request => match handleAssembledRequest config request with
    | .ok (.submits job authorizedParty) =>
        (Polling.step config.polling s.polling (.worker (.submit job))).map fun polling =>
          { s with polling, authorized := (authorizedParty.map fun party => (request.issuanceRoomId, party)).toList ++ s.authorized }
    | .ok (.replies _) | .error _ => some s
  | .goes action =>
      if submits action then none
      else (Polling.step config.polling s.polling action).map fun polling =>
        { s with polling, ticketed := ticketsOf s.polling action ++ s.ticketed
                 signed := signsOf config.polling s.polling action ++ s.signed }

def isRawTicket : Signer.Event → Bool
  | .ticketed none _ => true
  | _ => false

/- The tickets that raw requests were given. -/
def rawTickets (s : IssuerState ω κ) : Nat := s.polling.signer.history.countP isRawTicket

end IssuerState
end TradeP2P.Credential
