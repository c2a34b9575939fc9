import TradeP2P.Lib.Contracts
import TradeP2P.Mediator.Session
import TradeP2P.Protocol.Messages
import TradeP2P.Protocol.Receipt

/-! One room of the hub. A handler runs with the room locked; what it does outside the room's own
fields is kept as a list of effects, in order, so that what was done before a throw stays. A message
for another room finds no room here. -/
namespace TradeP2P
open Wire (Bytes ascii)
open Checks

inductive HubError where
  | benignRejection (text : String)
  | standard (e : Error)
  deriving DecidableEq, Repr

structure RoomEntry where
  id : RoomId
  partyA : ClientId
  partyB : ClientId
  session : MediatorSession
  active : Bool := true
  ephemeralKeyA : Option Ed25519PublicKey := none
  ephemeralKeyB : Option Ed25519PublicKey := none
  ephemeralKeyAMldsa65 : Option MlDsa65PublicKey := none
  ephemeralKeyBMldsa65 : Option MlDsa65PublicKey := none
  finalAckReceipt : Option IssuedReceipt := none
  feeConfirmationPendingSince : Option UInt64 := none
  deriving DecidableEq, Repr

structure OpenOffer where
  id : RoomId
  creator : ClientId
  terms : TradeTerms
  receiveAddressA : Bytes
  deriving DecidableEq, Repr

structure PersistedRoom where
  roomId : RoomId
  partyA : ClientId
  partyB : ClientId
  terms : TradeTerms
  fee : FeeTerms
  state : SessionState
  roundIndex : UInt32
  legIndex : UInt8
  abortReason : Bytes
  updatedAt : UInt64
  deriving DecidableEq, Repr

/- What a party is told. -/
inductive Frame where
  | sent (message : RoundSignalMessage)
  | received (message : RoundSignalMessage)
  | turn (turn : TurnMessage)
  | feeConfirmationPending (roomId : RoomId)
  | receiptAckRequired (roomId : RoomId)
  | receiptIssued (receipt : IssuedReceipt)
  | complete (roomId : RoomId)
  | abort (message : AbortMessage)
  | tradeEphemeralKey (message : TradeEphemeralKeyMessage)
  deriving DecidableEq, Repr

/- What a handler has done: `issued` stands for a receipt that was built, chained and signed, and
`enqueued` for a frame offered to the queue of a connected party. -/
inductive Effect where
  | issued (receipt : IssuedReceipt)
  | persisted (snapshot : PersistedRoom)
  | unpersisted
  | recordedTrade (terms : TradeTerms)
  | erased
  | enqueued (party : Party) (frame : Frame)
  deriving DecidableEq, Repr

structure Room where
  entry : RoomEntry
  listed : Bool := true
  effects : List Effect := []
  deriving DecidableEq, Repr

/- The mediator's settings. -/
structure HubConfig where
  crypto : Crypto
  mediatorId : Bytes
  receiptSeed : Ed25519PrivateSeed
  receiptSeedMldsa65 : MlDsa65PrivateSeed
  persists : Bool

def HubConfig.receiptKey (hub : HubConfig) : Ed25519PublicKey := hub.crypto.ed25519.publicKey hub.receiptSeed
def HubConfig.receiptKeyMldsa65 (hub : HubConfig) : MlDsa65PublicKey :=
  hub.crypto.mldsa65.publicKey hub.receiptSeedMldsa65

/- What a call meets outside the room: the clock, fresh randomness, the persistence file and who is
connected. -/
structure HubEnv where
  now : UInt64
  nonce : Except Error (Vector UInt8 16)
  entropy : Bytes := []
  persistFault : Option Error := none
  removeFault : Option Error := none
  connected : Party → Bool

abbrev HubM := EStateM HubError Room

def rejected {α : Type} (x : Except Error α) : Except HubError α := x.mapError .standard

namespace RoomEntry

/- A joined offer becomes a room, with the mediator's fee settings of that moment. -/
def fromOffer (offer : OpenOffer) (joiningClient : ClientId) (receiveAddressB : Bytes) (fee : FeeTerms)
    (requireFeeConfirmation : Bool) (feePosition : FeePosition) : Except Error RoomEntry := do
  let opened ← MediatorSession.construct ⟨offer.terms, offer.receiveAddressA⟩ offer.id fee requireFeeConfirmation
    feePosition
  match MediatorSession.join ⟨offer.id, receiveAddressB⟩ opened with
  | .ok _ session => return { id := offer.id, partyA := offer.creator, partyB := joiningClient, session }
  | .error e _ => throw e

def fromPersisted (persisted : PersistedRoom) (requireFeeConfirmation : Bool) (feePosition : FeePosition) :
    Except Error RoomEntry := do
  let session ← MediatorSession.restore persisted.roomId persisted.terms [] [] persisted.fee persisted.state
    persisted.roundIndex persisted.legIndex persisted.abortReason requireFeeConfirmation feePosition
  return { id := persisted.roomId, partyA := persisted.partyA, partyB := persisted.partyB, session
           active := persisted.state ≠ .complete && persisted.state ≠ .aborted }

def partyFor (room : RoomEntry) (clientId : ClientId) : Except HubError Party :=
  if room.partyA = clientId then .ok .a
  else if room.partyB = clientId then .ok .b
  else .error (.standard (.invalidArgument "client is not a member of this room"))

def ephemeralKey (room : RoomEntry) : Party → Option Ed25519PublicKey
  | .a => room.ephemeralKeyA
  | .b => room.ephemeralKeyB

def ephemeralKeyMldsa65 (room : RoomEntry) : Party → Option MlDsa65PublicKey
  | .a => room.ephemeralKeyAMldsa65
  | .b => room.ephemeralKeyBMldsa65

def announce (room : RoomEntry) (key : Ed25519PublicKey) (keyMldsa65 : MlDsa65PublicKey) : Party → RoomEntry
  | .a => { room with ephemeralKeyA := some key, ephemeralKeyAMldsa65 := some keyMldsa65 }
  | .b => { room with ephemeralKeyB := some key, ephemeralKeyBMldsa65 := some keyMldsa65 }

end RoomEntry

namespace Hub

def persistedRoomSnapshot (room : RoomEntry) (now : UInt64) : PersistedRoom where
  roomId := room.id
  partyA := room.partyA
  partyB := room.partyB
  terms := room.session.creator.terms
  fee := room.session.fee
  state := room.session.state
  roundIndex := room.session.roundIndex
  legIndex := room.session.legIndex
  abortReason := room.session.abortReason
  updatedAt := now

def safeReason (text : Bytes) : Bytes :=
  ((if text.isEmpty then ascii "request rejected" else text).take maxReasonLength).map
    (fun c => if c < 0x20 || c > 0x7e then 0x3f else c)

-- The checks a frame's encoder makes.
def encodes : Frame → Except Error Unit
  | .sent message | .received message => validateRoomId message.roomId
  | .turn turn => validateTurn turn
  | .feeConfirmationPending roomId | .receiptAckRequired roomId | .complete roomId => validateRoomId roomId
  | .receiptIssued receipt => do
      validateRoomId receipt.fields.roomId
      throwIf (receipt.fields.mediatorId.length > receiptMaxMediatorIdLength)
        (.invalidArgument "string exceeds protocol limit")
  | .abort message => do
      validateRoomId message.roomId
      validateReason message.reason
  | .tradeEphemeralKey _ => return

/-! Steps shared by the handlers. -/

def emit (effect : Effect) : HubM Unit := modify fun room => { room with effects := room.effects ++ [effect] }

def onEntry (change : RoomEntry → RoomEntry) : HubM Unit := modify fun room => { room with entry := change room.entry }

def onSession (method : MediatorSession.Method) : HubM Unit := fun room =>
  match method room.entry.session with
  | .ok _ session => .ok () { room with entry := { room.entry with session } }
  | .error e session => .error (.standard e) { room with entry := { room.entry with session } }

-- Finds the room and the party the client is in it.
def findRoomFor (clientId : ClientId) (roomId : RoomId) : HubM Party := do
  let room ← get
  throwIf (¬(room.listed ∧ roomId = room.entry.id)) (HubError.standard (.invalidArgument "room does not exist"))
  room.entry.partyFor clientId

def requireActive : HubM Unit := do
  let room ← get
  throwIf (¬room.entry.active) (HubError.benignRejection "room is no longer active")

def currentTurn : HubM TurnMessage := do
  let room ← get
  rejected room.entry.session.currentTurn

variable (hub : HubConfig) (env : HubEnv)

def persistRoomUpsert : HubM Unit := do
  if hub.persists then
    let room ← get
    emit (.persisted (persistedRoomSnapshot room.entry env.now))
    match env.persistFault with
    | some e => throw (.standard e)
    | none => return

def persistRoomRemove : HubM Unit := do
  if hub.persists then
    emit .unpersisted
    match env.removeFault with
    | some e => throw (.standard e)
    | none => return

def eraseRoom : HubM Unit := do
  modify fun room => { room with listed := false }
  emit .erased

def enqueue (party : Party) (frame : Frame) : HubM Unit := do
  if env.connected party then emit (.enqueued party frame)

def sendToRoom (frame : Frame) : HubM Unit := do
  rejected (encodes frame)
  enqueue env .a frame
  enqueue env .b frame

-- The settlement receipt links to the one kept from the gate, if there is one.
def previousStageHash (room : RoomEntry) : ReceiptStage → Except Error (Vector UInt8 32)
  | .settlementCompleted => match room.finalAckReceipt with
    | some previous => receiptChainLinkHash hub.crypto previous
    | none => .ok genesisStageHash
  | _ => .ok genesisStageHash

/- The receipt for a stage, from the fields of the room as they stand. -/
def receiptFor (room : RoomEntry) (stage : ReceiptStage) (completed : Bool) : Except Error IssuedReceipt := do
  match room.ephemeralKeyA, room.ephemeralKeyB, room.ephemeralKeyAMldsa65, room.ephemeralKeyBMldsa65 with
  | some partyAEphemeralKey, some partyBEphemeralKey, some partyAEphemeralKeyMldsa65, some partyBEphemeralKeyMldsa65 => do
      let terms ← encodeTerms room.session.creator.terms
      let nonce ← env.nonce
      let previousStageHash ← previousStageHash hub room stage
      let fields : ReceiptFields := {
        mediatorId := hub.mediatorId, roomId := room.id, termsCommitment := hub.crypto.sha256 terms
        partyAEphemeralKey, partyBEphemeralKey, partyAEphemeralKeyMldsa65, partyBEphemeralKeyMldsa65
        mediatorPublicKey := hub.receiptKey, mediatorPublicKeyMldsa65 := hub.receiptKeyMldsa65
        stage := stage.toByte, completed, timestamp := env.now, nonce, previousStageHash }
      let mediatorSignature ← signReceipt hub.crypto hub.receiptSeed env.entropy fields
      let mediatorSignatureMldsa65 ← signReceiptMldsa65 hub.crypto hub.receiptSeedMldsa65 env.entropy fields
      return { fields, mediatorSignature, mediatorSignatureMldsa65 }
  | _, _, _, _ =>
      throw (.runtimeError "cannot issue a receipt before both parties have announced an ephemeral trade key")

def issueReceipt (stage : ReceiptStage) (completed : Bool) : HubM IssuedReceipt := do
  let room ← get
  let issued ← rejected (receiptFor hub env room.entry stage completed)
  if stage = .penultimateObligationsComplete then onEntry fun room => { room with finalAckReceipt := some issued }
  emit (.issued issued)
  return issued

/- What every closing path does once the room is inactive and its last receipt issued. -/
def announceCompletion (receipt : IssuedReceipt) : HubM Unit := do
  let room ← get
  emit (.recordedTrade room.entry.session.creator.terms)
  persistRoomRemove hub env
  eraseRoom
  sendToRoom env (.receiptIssued receipt)
  sendToRoom env (.complete room.entry.id)

def settle : HubM IssuedReceipt := do
  onEntry fun room => { room with active := false }
  issueReceipt hub env .settlementCompleted true

-- The part of an abort that the room's lock covers.
def deactivate (reason : Bytes) : HubM Unit := do
  onEntry fun room => { room with active := false }
  let room ← get
  if room.entry.session.state ≠ .complete ∧ room.entry.session.state ≠ .aborted then
    onSession (MediatorSession.abort reason)

def abortRoom (reason : Bytes) : HubM Unit := do
  let reason := safeReason reason
  let room ← get
  if room.entry.active then
    deactivate reason
    persistRoomRemove hub env
    eraseRoom
    sendToRoom env (.abort ⟨room.entry.id, reason⟩)

/-! Handlers. -/

def handleSent (clientId : ClientId) (message : RoundSignalMessage) : HubM Unit := do
  let reportingParty ← findRoomFor clientId message.roomId
  requireActive
  onSession (MediatorSession.senderReportedSent reportingParty message)
  let room ← get
  match room.entry.session.state with
  | .complete => do
      let receipt ← settle hub env
      announceCompletion hub env receipt
  | .waitingForFeeConfirmation => do
      onEntry fun room => { room with feeConfirmationPendingSince := some env.now }
      persistRoomUpsert hub env
      sendToRoom env (.feeConfirmationPending room.entry.id)
  | .waitingForSent => do
      -- Only an early fee leads back here: the next turn goes out, and no signal is relayed.
      let turn ← currentTurn
      persistRoomUpsert hub env
      sendToRoom env (.turn turn)
  | _ => do
      persistRoomUpsert hub env
      if env.connected (otherParty reportingParty) then
        rejected (encodes (.sent message))
        enqueue env (otherParty reportingParty) (.sent message)
      else abortRoom hub env (ascii "peer disconnected")

def handleReceived (clientId : ClientId) (message : RoundSignalMessage) : HubM Unit := do
  let reportingParty ← findRoomFor clientId message.roomId
  requireActive
  onSession (MediatorSession.receiverReportedReceived reportingParty message)
  let room ← get
  let relay : HubM Unit := do
    if env.connected (otherParty reportingParty) then
      rejected (encodes (.received message))
      enqueue env (otherParty reportingParty) (.received message)
  match room.entry.session.state with
  | .complete => do
      let receipt ← settle hub env
      relay
      announceCompletion hub env receipt
  | .waitingForFinalReceiptAck => do
      persistRoomUpsert hub env
      relay
      sendToRoom env (.receiptAckRequired room.entry.id)
  | _ => do
      let turn ← currentTurn
      persistRoomUpsert hub env
      relay
      sendToRoom env (.turn turn)

def parsePublicKey {n : Nat} (bytes : Vector UInt8 n) (text : String) : Except HubError (Vector UInt8 n) :=
  if bytes.toList.all (· == 0) then .error (.standard (.invalidArgument text)) else .ok bytes

def handleTradeEphemeralKey (clientId : ClientId) (message : TradeEphemeralKeyMessage) : HubM Unit := do
  let key ← parsePublicKey message.ephemeralPublicKey "malformed ephemeral trade public key"
  let keyMldsa65 ← parsePublicKey message.ephemeralPublicKeyMldsa65 "malformed ephemeral trade public key (ML-DSA-65)"
  let party ← findRoomFor clientId message.roomId
  onEntry fun room => room.announce key keyMldsa65 party
  throwIf (¬env.connected (otherParty party)) (HubError.benignRejection "counterparty is not currently connected")
  enqueue env (otherParty party) (.tradeEphemeralKey message)

-- Whether the acknowledgement is signed with the keys its party announced.
def verifyAcknowledgement (room : RoomEntry) (party : Party) (message : ReceiptAckMessage) : Except HubError Unit := do
  match room.ephemeralKey party, room.ephemeralKeyMldsa65 party with
  | some key, some keyMldsa65 => do
      let terms ← rejected (encodeTerms room.session.creator.terms)
      let fields : ReceiptAckFields := {
        mediatorId := hub.mediatorId, roomId := room.id, termsCommitment := hub.crypto.sha256 terms
        timestamp := message.timestamp }
      let verified ← rejected (verifyReceiptAckHybrid hub.crypto key keyMldsa65 fields message.signature
        message.signatureMldsa65)
      throwIf (¬verified) (.standard (.invalidArgument "receipt acknowledgement signature does not verify"))
  | _, _ => throw (.benignRejection
      "no ephemeral trade key announced for this room yet - cannot verify acknowledgement")

def handleReceiptAck (clientId : ClientId) (message : ReceiptAckMessage) : HubM Unit := do
  let party ← findRoomFor clientId message.roomId
  requireActive
  let room ← get
  throwIf (room.entry.session.state ≠ .waitingForFinalReceiptAck)
    (HubError.benignRejection "room is not currently awaiting a final receipt acknowledgement")
  throwIf (message.stage ≠ ReceiptStage.penultimateObligationsComplete.toByte)
    (HubError.benignRejection "unexpected receipt acknowledgement stage")
  verifyAcknowledgement hub room.entry party message
  onSession (MediatorSession.acknowledgeFinalReceipt party)
  let room ← get
  if room.entry.session.state ≠ .waitingForFinalReceiptAck then
    -- The second acknowledgement opens the gate.
    let receipt ← issueReceipt hub env .penultimateObligationsComplete false
    let turn ← currentTurn
    persistRoomUpsert hub env
    sendToRoom env (.receiptIssued receipt)
    sendToRoom env (.turn turn)
  else persistRoomUpsert hub env

def handleAbort (clientId : ClientId) (message : AbortMessage) : HubM Unit := do
  let _ ← findRoomFor clientId message.roomId
  abortRoom hub env message.reason

def tryConfirmFeeLocked (roomId : RoomId) : HubM Bool := do
  let room ← get
  if room.listed ∧ roomId = room.entry.id ∧ room.entry.active ∧
      room.entry.session.state = .waitingForFeeConfirmation then
    onSession MediatorSession.confirmFeeReceived
    let receipt ← settle hub env
    announceCompletion hub env receipt
    return true
  else return false

/- A disconnect aborts the client's room, unless only the operator is awaited. -/
def removeClient (clientId : ClientId) : HubM Unit := do
  let room ← get
  let member := room.entry.partyA = clientId ∨ room.entry.partyB = clientId
  let awaitsOperator := room.entry.active && room.entry.session.state = .waitingForFeeConfirmation
  if room.listed ∧ member ∧ ¬awaitsOperator then
    eraseRoom
    if room.entry.active then
      deactivate (ascii "peer disconnected")
      persistRoomRemove hub env
      sendToRoom env (.abort ⟨room.entry.id, ascii "peer disconnected"⟩)

inductive Call where
  | sent (clientId : ClientId) (message : RoundSignalMessage)
  | received (clientId : ClientId) (message : RoundSignalMessage)
  | tradeEphemeralKey (clientId : ClientId) (message : TradeEphemeralKeyMessage)
  | receiptAck (clientId : ClientId) (message : ReceiptAckMessage)
  | abort (clientId : ClientId) (message : AbortMessage)
  | confirmFee (roomId : RoomId)
  | disconnect (clientId : ClientId)
  deriving DecidableEq, Repr

def perform (hub : HubConfig) : Machine.Object HubError Room (HubEnv × Call)
  | (env, .sent clientId message) => handleSent hub env clientId message
  | (env, .received clientId message) => handleReceived hub env clientId message
  | (env, .tradeEphemeralKey clientId message) => handleTradeEphemeralKey env clientId message
  | (env, .receiptAck clientId message) => handleReceiptAck hub env clientId message
  | (env, .abort clientId message) => handleAbort hub env clientId message
  | (env, .confirmFee roomId) => do
      let _ ← tryConfirmFeeLocked hub env roomId
      return
  | (env, .disconnect clientId) => removeClient hub env clientId

end Hub
end TradeP2P
