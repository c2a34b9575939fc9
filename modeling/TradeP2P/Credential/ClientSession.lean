import TradeP2P.Blind.Presentation
import TradeP2P.Credential.Signer
import TradeP2P.Protocol.SecureChannel

/-! The session in which a client asks for a blind signature. Its worker blinds and proves, sends the request and later
finalises; the mediator's messages are handled on the thread of the connection, and the calls come from a third. -/
namespace TradeP2P.Credential
open Wire (Bytes ascii bigEndian)
open Checks

abbrev RingArray := Vector UInt16 512

structure BlindSigInfoResponse where
  enabled : Bool := false
  t : RingArray := Vector.replicate 512 0
  b : RingArray := Vector.replicate 512 0

inductive BlindSigClientStage where
  | idle | awaitingInfo | blindingAndProvingNizk1 | awaitingInitialResponse | awaitingOperatorApproval
  | awaitingPolledSignature | finalizingAndProvingNizk2 | verifyingOwnSignature | ready | failed
  deriving DecidableEq, Repr

structure BlindSigCredential where
  rhoHex : Bytes
  pi2Path : Bytes
  mu : Bytes
  credentialPayload : Option CredentialPayload

structure CredentialIssuanceAuthorization where
  completionReceipt : Bytes
  signature : Ed25519Signature
  signatureMldsa65 : MlDsa65Signature

abbrev CredentialAuthorizationProvider := RingArray → Except Error CredentialIssuanceAuthorization

structure BlindSigClientSession where
  stage : BlindSigClientStage := .idle
  lastError : String := ""
  credential : Option BlindSigCredential := none
  pendingTicketId : Option TicketId := none
  t : RingArray := Vector.replicate 512 0
  b : RingArray := Vector.replicate 512 0
  mu : Bytes := []
  rJson : Bytes := []
  rhoHex : Bytes := []
  pi1Path : Bytes := []
  credentialIssuance : Bool := false
  issuanceRoomId : RoomId := Vector.replicate 32 0
  credentialEpoch : UInt32 := 0
  credentialPayload : Option CredentialPayload := none
  credentialAuthorizationProvider : Option CredentialAuthorizationProvider := none

/-! The request on the wire. -/

def maxBlindSigRequestBytes : Nat := 16777216
def chunkPayloadSize : Nat := 65536

structure SessionRequest extends AssembledRequest where
  b : RingArray
  issuanceCompletionReceipt : Bytes := []
  issuanceAuthorizationSignature : Ed25519Signature := Vector.replicate 64 0
  issuanceAuthorizationSignatureMldsa65 : MlDsa65Signature := Vector.replicate 3309 0

def u16Array (value : RingArray) : Bytes := value.toList.flatMap fun coefficient => bigEndian 2 coefficient.toNat

def byteField (value : Bytes) : Except Error Bytes := do
  throwIf (value.length > 4294967295) (Error.invalidArgument "byte field exceeds protocol limit")
  return bigEndian 4 value.length ++ value

def checkIssuance (request : SessionRequest) : Except Error Unit :=
  if request.credentialIssuance then do
    throwIf (request.issuanceCompletionReceipt = [])
      (Error.invalidArgument "q7933 credential request is missing its completion receipt")
    throwIf (request.issuanceCompletionReceipt.length > maxFramePayload)
      (Error.invalidArgument "q7933 credential completion receipt exceeds protocol limit")
  else
    throwIf (request.issuanceRoomId ≠ Vector.replicate 32 0 ∨ request.credentialEpoch ≠ 0 ∨ request.issuanceCompletionReceipt ≠ [] ∨
        request.issuanceAuthorizationSignature ≠ Vector.replicate 64 0 ∨
        request.issuanceAuthorizationSignatureMldsa65 ≠ Vector.replicate 3309 0)
      (Error.invalidArgument "raw q7933 blind-signature request carries credential-only metadata")

def issuanceFields (request : SessionRequest) : Except Error Bytes :=
  if request.credentialIssuance then do
    let receipt ← byteField request.issuanceCompletionReceipt
    return receipt ++ (request.issuanceAuthorizationSignature.toList ++ request.issuanceAuthorizationSignatureMldsa65.toList)
  else return []

def encodeAssembledRequest (request : SessionRequest) : Except Error Bytes := do
  throwIf (request.pi1Receipt.length > maxBlindSigRequestBytes)
    (Error.invalidArgument "q7933 blind-sig assembled request's receipt exceeds protocol limit")
  checkIssuance request
  let issuance ← issuanceFields request
  let receipt ← byteField request.pi1Receipt
  return u16Array request.c ++ (u16Array request.b ++ (u16Array request.encA ++ (u16Array request.encPk ++
    (u16Array request.ct1R ++ (u16Array request.ct2R ++ (u16Array request.ct1Mu ++ (u16Array request.ct2Mu ++
    ([if request.credentialIssuance then 1 else 0] ++ (request.issuanceRoomId.toList ++
    (bigEndian 4 request.credentialEpoch.toNat ++ (issuance ++ receipt)))))))))))

structure BlindSigRequestChunk where
  totalLength : UInt32
  chunkIndex : UInt32
  totalChunks : UInt32
  data : Bytes

/- The chunks `send_chunked` sends, in their order. -/
def sendChunked (assembled : Bytes) : Except Error (List BlindSigRequestChunk) := do
  throwIf (assembled.length > 4294967295)
    (Error.invalidArgument "q7933 assembled blind-signature request exceeds u32 wire length")
  let totalChunks := (assembled.length + chunkPayloadSize - 1) / chunkPayloadSize
  return (List.range totalChunks).map fun i =>
    { totalLength := .ofNat assembled.length, chunkIndex := .ofNat i, totalChunks := .ofNat totalChunks
      data := (assembled.drop (i * chunkPayloadSize)).take chunkPayloadSize }

/-! What the prover is asked. -/

/- The answer of a run of the prover: it may say no, it may not run, and what it prints may not be what it should. -/
inductive ProverAnswer (α : Type) where
  | answered (value : α)
  | refused (error : String)
  | threw (what : String)

structure BlindResult where
  rhoHex : Bytes
  r : Bytes
  c : RingArray
  b : RingArray
  encA : RingArray
  encPk : RingArray
  ct1R : RingArray
  ct2R : RingArray
  ct1Mu : RingArray
  ct2Mu : RingArray

/- The parameters of the signer, as one pair. -/
structure SignerParams where
  t : RingArray
  b : RingArray
  deriving DecidableEq

def BlindSigClientSession.params (session : BlindSigClientSession) : SignerParams := ⟨session.t, session.b⟩

namespace BlindSigClientSession

def fail (reason : String) (session : BlindSigClientSession) : BlindSigClientSession :=
  { session with lastError := reason, stage := .failed }

def onInfoResponse (info : BlindSigInfoResponse) (session : BlindSigClientSession) : BlindSigClientSession :=
  if !info.enabled then session.fail "this mediator does not have the experimental q7933 blind-signature feature enabled"
  else { session with t := info.t, b := info.b, lastError := "", stage := .idle }

end BlindSigClientSession

/- What `start_request` and `start_credential_request` hand on. -/
structure StartRequest where
  message : Bytes
  credentialIssuance : Bool := false
  issuanceRoomId : RoomId := Vector.replicate 32 0
  credentialEpoch : UInt32 := 0
  credentialPayload : Option CredentialPayload := none
  authorizationProvider : Option CredentialAuthorizationProvider := none

def startCredentialRequest (serial : CredentialSerial) (completedRoomId : RoomId) (credentialEpoch : UInt32)
    (authorizationProvider : CredentialAuthorizationProvider) : Except Error StartRequest := do
  let payload : CredentialPayload := { version := credentialVersion, issuerScope := 0, epoch := credentialEpoch, serial }
  let message ← credentialMessage payload
  return { message, credentialIssuance := true, issuanceRoomId := completedRoomId, credentialEpoch
           credentialPayload := some payload, authorizationProvider := some authorizationProvider }

namespace BlindSigClientSession

def starts (request : StartRequest) (session : BlindSigClientSession) : BlindSigClientSession :=
  { session with credential := none, pendingTicketId := none, lastError := ""
                 credentialIssuance := request.credentialIssuance, issuanceRoomId := request.issuanceRoomId
                 credentialEpoch := request.credentialEpoch, credentialPayload := request.credentialPayload
                 credentialAuthorizationProvider := request.authorizationProvider
                 stage := .blindingAndProvingNizk1 }

/- The request a blinding is sent in. -/
def assemble (blind : BlindResult) (pi1Receipt : Except Error Bytes) (session : BlindSigClientSession) :
    Except Error SessionRequest := do
  let authorization ← if session.credentialIssuance then
      match session.credentialAuthorizationProvider with
      | none => throw (.logicError "q7933 credential authorization provider disappeared before use")
      | some provider => do
          let authorization ← provider blind.c
          throwIf (authorization.completionReceipt = [])
            (Error.runtimeError "q7933 credential authorization provider returned no completion receipt")
          pure authorization
    else pure ⟨[], Vector.replicate 64 0, Vector.replicate 3309 0⟩
  let pi1Receipt ← pi1Receipt
  return { c := blind.c, b := blind.b, encA := blind.encA, encPk := blind.encPk, ct1R := blind.ct1R, ct2R := blind.ct2R
           ct1Mu := blind.ct1Mu, ct2Mu := blind.ct2Mu, credentialIssuance := session.credentialIssuance
           issuanceRoomId := session.issuanceRoomId, credentialEpoch := session.credentialEpoch, pi1Receipt
           issuanceCompletionReceipt := authorization.completionReceipt
           issuanceAuthorizationSignature := authorization.signature
           issuanceAuthorizationSignatureMldsa65 := authorization.signatureMldsa65 }

/- What a proof of the blinding is followed by, up to the sending of the first chunk. -/
def requestChunks (blind : BlindResult) (pi1Receipt : Except Error Bytes) (session : BlindSigClientSession) :
    Except Error (List BlindSigRequestChunk) := do
  let request ← session.assemble blind pi1Receipt
  let encoded ← encodeAssembledRequest request
  sendChunked encoded

end BlindSigClientSession

/-! The threads. -/

inductive SessionFrame where
  | infoRequest
  | requestChunk (chunk : BlindSigRequestChunk)
  | ticketPoll (id : TicketId)

/- What the mediator owes an answer to. A frame that could not be sent is one that is never answered. -/
inductive Asked where
  | info
  | request
  | poll (id : TicketId)
  deriving DecidableEq, Repr

/- A ticket that is polled for is answered under its own id. -/
def Asked.allows : Asked → BlindSigResponse → Bool
  | .info, _ => false
  | .request, _ => true
  | .poll id, response => response.status ≠ .pending ∨ response.ticketId = id

def BlindSigClientStage.takesResponse : BlindSigClientStage → Bool
  | .awaitingInitialResponse | .awaitingPolledSignature | .awaitingOperatorApproval => true
  | _ => false

/- Where the worker is. It reads the parameters of the signer when a run of the prover starts. -/
inductive SessionWorker where
  | idle
  | starting (message : Bytes)
  | blinding (message : Bytes) (b : RingArray)
  | proving (blind : BlindResult)
  | sending (chunks : List BlindSigRequestChunk)
  | finalizing (asked : Asked) (response : BlindSigResponse)
  | provingNizk2 (asked : Asked) (params : SignerParams)
  | verifying (asked : Asked) (pi2Path : Bytes)
  | verifyingOwn (asked : Asked) (pi2Path : Bytes) (params : SignerParams)
  | crediting (asked : Asked)
  | finished

inductive SessionNote where
  | rejected (asked : Asked)
  | returned (id : TicketId)
  | finalised (asked : Asked)
  deriving DecidableEq, Repr

structure SessionState where
  session : BlindSigClientSession := {}
  worker : SessionWorker := .idle
  -- A call of `start_request` that waits for the worker.
  caller : Option StartRequest := none
  -- A signature whose handling waits for the worker.
  handler : Option (Asked × BlindSigResponse) := none
  frames : List SessionFrame := []
  asked : List Asked := []
  -- The parameters at the last reading of them for a blinding.
  blindedUnder : SignerParams := ⟨Vector.replicate 512 0, Vector.replicate 512 0⟩
  notes : List SessionNote := []

inductive SessionEvent where
  | requestInfo
  | startRequest (request : StartRequest)
  | begins
  | pollTicket
  | hearsInfo (info : BlindSigInfoResponse)
  | hearsResponse (asked : Asked) (response : BlindSigResponse)
  | resumes
  | reads
  | blinds (answer : ProverAnswer BlindResult)
  | proves (pi1Path : Bytes) (answer : ProverAnswer Unit) (pi1Receipt : Except Error Bytes)
  | sends (queued : Except Error Unit)
  | stores
  | finalizes (pi2Path : Bytes) (answer : ProverAnswer Unit)
  | verifies (answer : ProverAnswer Bool)
  | credits

def SessionWorker.joined : SessionWorker → Bool
  | .idle | .finished => true
  | _ => false

namespace SessionState

/- The worker ends in a failure. -/
def workerFails (s : SessionState) (reason : String) : SessionState :=
  { s with session := s.session.fail reason, worker := .finished }

def requestInfo (s : SessionState) : SessionState :=
  { s with session := { s.session with stage := .awaitingInfo }, frames := s.frames ++ [.infoRequest], asked := .info :: s.asked }

/- A call outside `kIdle`, or without its provider, throws. -/
def startRequest (s : SessionState) (request : StartRequest) : SessionState :=
  if s.session.stage ≠ .idle ∨ request.credentialIssuance ∧ request.authorizationProvider.isNone then s
  else { s with caller := some request }

/- The rest of the call, once the worker is joined. -/
def begins (s : SessionState) (request : StartRequest) : SessionState :=
  { s with session := s.session.starts request, worker := .starting request.message, caller := none }

/- Without a ticket the call throws. -/
def pollTicket (s : SessionState) : SessionState := match s.session.pendingTicketId with
  | none => s
  | some id => { s with session := { s.session with stage := .awaitingPolledSignature }
                        frames := s.frames ++ [.ticketPoll id], asked := .poll id :: s.asked }

def returns (response : BlindSigResponse) : List SessionNote :=
  if response.status = .pending then [.returned response.ticketId] else []

def onSignerResponse (s : SessionState) (asked : Asked) (response : BlindSigResponse) : SessionState :=
  if !s.session.stage.takesResponse then
    { s with session := s.session.fail "received an unexpected q7933 blind-signature response (out of sequence)"
             notes := s.notes ++ [.rejected asked] }
  else match response.status with
    | .pending => { s with session := { s.session with pendingTicketId := some response.ticketId, lastError := ""
                                                       stage := .awaitingOperatorApproval } }
    | .ok => { s with handler := some (asked, response) }
    | .rejected | .busy | .error =>
        { s with session := s.session.fail (if response.reason = "" then "q7933 signer rejected the request" else response.reason) }

def hearsResponse (s : SessionState) (asked : Asked) (response : BlindSigResponse) : SessionState :=
  { s with asked := s.asked.erase asked, notes := s.notes ++ returns response }.onSignerResponse asked response

/- The rest of the handling of a signature, once the worker is joined. -/
def resumes (s : SessionState) (asked : Asked) (response : BlindSigResponse) : SessionState :=
  { s with session := { s.session with stage := .finalizingAndProvingNizk2 }, worker := .finalizing asked response, handler := none }

def blinds (s : SessionState) (message : Bytes) : ProverAnswer BlindResult → SessionState
  | .answered blind =>
      { s with session := { s.session with mu := message, rhoHex := blind.rhoHex, rJson := blind.r }, worker := .proving blind }
  | .refused error => s.workerFails ("user-blind failed: " ++ error)
  | .threw what => s.workerFails ("blind/prove-nizk1 step failed: " ++ what)

def proves (s : SessionState) (blind : BlindResult) (pi1Path : Bytes) (pi1Receipt : Except Error Bytes) :
    ProverAnswer Unit → SessionState
  | .answered _ =>
      let s := { s with session := { s.session with pi1Path } }
      match s.session.requestChunks blind pi1Receipt with
      | .error e => s.workerFails ("blind/prove-nizk1 step failed: " ++ e.text)
      | .ok chunks => { s with session := { s.session with credentialAuthorizationProvider :=
                                              if s.session.credentialIssuance then none else s.session.credentialAuthorizationProvider }
                               worker := .sending chunks }
  | .refused error => s.workerFails ("user-prove-nizk1 failed: " ++ error)
  | .threw what => s.workerFails ("blind/prove-nizk1 step failed: " ++ what)

/- The request is complete with its last chunk. -/
def sends (s : SessionState) (chunk : BlindSigRequestChunk) (rest : List BlindSigRequestChunk) : Except Error Unit → SessionState
  | .error e => s.workerFails ("blind/prove-nizk1 step failed: " ++ e.text)
  | .ok _ => { s with frames := s.frames ++ [.requestChunk chunk], worker := .sending rest
                      asked := if rest = [] then .request :: s.asked else s.asked }

def stores (s : SessionState) : SessionState :=
  { s with session := { s.session with stage := .awaitingInitialResponse }, worker := .finished }

def finalizes (s : SessionState) (asked : Asked) (pi2Path : Bytes) : ProverAnswer Unit → SessionState
  | .answered _ => { s with session := { s.session with stage := .verifyingOwnSignature }, worker := .verifying asked pi2Path }
  | .refused error => s.workerFails ("user-finalize-prove-nizk2 failed: " ++ error)
  | .threw what => s.workerFails ("finalize/verify step failed: " ++ what)

def verifies (s : SessionState) (asked : Asked) (pi2Path : Bytes) : ProverAnswer Bool → SessionState
  | .answered true =>
      let credential : BlindSigCredential := ⟨s.session.rhoHex, pi2Path, s.session.mu, s.session.credentialPayload⟩
      { s with session := { s.session with credential := some credential, pendingTicketId := none }
               worker := .crediting asked, notes := s.notes ++ [.finalised asked] }
  | .answered false | .refused _ =>
      s.workerFails "produced a q7933 signature that failed its own verification - this should never happen, investigate"
  | .threw what => s.workerFails ("finalize/verify step failed: " ++ what)

def reads (s : SessionState) : Option SessionState := match s.worker with
  | .starting message => some { s with worker := .blinding message s.session.b, blindedUnder := s.session.params }
  | .finalizing asked _ => some { s with worker := .provingNizk2 asked s.session.params }
  | .verifying asked pi2Path => some { s with worker := .verifyingOwn asked pi2Path s.session.params }
  | _ => none

def fire (s : SessionState) : SessionEvent → Option SessionState
  | .requestInfo => if s.caller.isNone then some s.requestInfo else none
  | .startRequest request => if s.caller.isNone then some (s.startRequest request) else none
  | .begins => match s.caller with
    | some request => if s.worker.joined then some (s.begins request) else none
    | none => none
  | .pollTicket => if s.caller.isNone then some s.pollTicket else none
  | .hearsInfo info =>
      if s.handler.isNone ∧ .info ∈ s.asked then
        some { s with session := s.session.onInfoResponse info, asked := s.asked.erase .info }
      else none
  | .hearsResponse asked response =>
      if s.handler.isNone ∧ asked ∈ s.asked ∧ asked.allows response then some (s.hearsResponse asked response) else none
  | .resumes => match s.handler with
    | some (asked, response) => if s.worker.joined then some (s.resumes asked response) else none
    | none => none
  | .reads => s.reads
  | .blinds answer => match s.worker with
    | .blinding message _ => some (s.blinds message answer)
    | _ => none
  | .proves pi1Path answer pi1Receipt => match s.worker with
    | .proving blind => some (s.proves blind pi1Path pi1Receipt answer)
    | _ => none
  | .sends queued => match s.worker with
    | .sending (chunk :: rest) => some (s.sends chunk rest queued)
    | _ => none
  | .stores => match s.worker with
    | .sending [] => some s.stores
    | _ => none
  | .finalizes pi2Path answer => match s.worker with
    | .provingNizk2 asked _ => some (s.finalizes asked pi2Path answer)
    | _ => none
  | .verifies answer => match s.worker with
    | .verifyingOwn asked pi2Path _ => some (s.verifies asked pi2Path answer)
    | _ => none
  | .credits => match s.worker with
    | .crediting _ => some { s with session := { s.session with stage := .ready }, worker := .finished }
    | _ => none

end SessionState
end TradeP2P.Credential
