import TradeP2P.Hub.Runs
import TradeP2P.Protocol.Offers
import TradeP2P.Lib.Queueing

/-! How a room's frames reach the queues of its parties. Each client has a thread, and so has each
operator; a handler goes from one locked section to the next, and threads take turns in between. What
is decided with the room locked is put on the queues after the lock is released. -/
namespace TradeP2P
open Wire (Bytes ascii)
open Checks

def MediatorSession.readyMessage (s : MediatorSession) (party : Party) (peerId : ClientId) :
    Except Error TradeReadyMessage := do
  throwIf (s.state = .waitingForPeer) (.logicError "peer has not joined")
  throwIf (s.state = .aborted) (.logicError "session is aborted")
  validateClientId peerId
  return { roomId := s.roomId, assignedParty := party, peerId, terms := s.creator.terms
           receiveAddressA := s.creator.receiveAddressA, receiveAddressB := s.receiveAddressB, fee := s.fee }

def RoomEntry.client (room : RoomEntry) : Party → ClientId
  | .a => room.partyA
  | .b => room.partyB

/- What the hub hands on from one party to the other as it came. -/
inductive Relayed where
  | tradeEphemeralKey (message : TradeEphemeralKeyMessage)
  | recognitionChallenge (message : RecognitionChallengeMessage)
  | recognitionResponse (message : RecognitionResponseMessage)
  | receiptDisclosure (message : ReceiptDisclosureMessage)
  deriving DecidableEq, Repr

def Relayed.roomId : Relayed → RoomId
  | .tradeEphemeralKey message => message.roomId
  | .recognitionChallenge message => message.roomId
  | .recognitionResponse message => message.roomId
  | .receiptDisclosure message => message.roomId

/- A frame of a room on its way to a party. -/
inductive RoomFrame where
  | tradeReady (message : TradeReadyMessage)
  | told (frame : Frame)
  | relayed (message : Relayed)
  deriving DecidableEq, Repr

def RoomFrame.encodes : RoomFrame → Except Error Unit
  | .tradeReady message => do
      let _ ← encodeTradeReady message
      return
  | .told frame => Hub.encodes frame
  | .relayed _ => return

namespace Delivery

/- A part of a handler that runs with the room locked, and what the handler knows by then. -/
inductive Locked where
  | sent (reportingParty : Party) (message : RoundSignalMessage)
  | received (reportingParty : Party) (message : RoundSignalMessage)
  | tradeEphemeralKey (clientId : ClientId) (party : Party) (message : TradeEphemeralKeyMessage)
  | receiptAck (party : Party) (message : ReceiptAckMessage)
  | abort (reason : Bytes)
  | confirmFee
  | disconnect
  deriving DecidableEq, Repr

/- What is left to do once the room is unlocked: to look up both parties, and to put a frame on a queue. -/
inductive Errand where
  | recordTrade
  | unpersist
  | erase
  | lookUp (frame : RoomFrame)
  | tell (party : Party) (frame : RoomFrame)
  | put (party : Party) (frame : RoomFrame)
  deriving DecidableEq, Repr

/- Where the handler of a thread has come to. The last three are stages of a join. -/
inductive Thread where
  | starting (call : Hub.Call)
  | relaying (clientId : ClientId) (message : Relayed)
  | handingOn (party : Party) (message : Relayed)
  | locking (locked : Locked)
  | telling (errands : List Errand)
  | persisting
  | announcing
  | announced (left : List (Party × TradeReadyMessage))
  deriving DecidableEq, Repr

abbrev idle : Thread := .telling []

structure Shared where
  room : Room
  alive : Party → Bool
  registered : Party → Bool
  queues : Party → List RoomFrame

abbrev SharedM := EStateM HubError Shared

def onRoom {α : Type} (x : HubM α) : SharedM α := fun s =>
  match x s.room with
  | .ok a room => .ok a { s with room }
  | .error e room => .error e { s with room }

-- A queue that is full, like that of a client that is gone, takes no more frames.
def enqueue (party : Party) (frame : RoomFrame) : SharedM Unit := modify fun s =>
  if s.alive party then { s with queues := Function.update s.queues party (s.queues party ++ [frame]) } else s

section Sections
variable (hub : HubConfig) (env : HubEnv)
open Hub

def completion (receipt : IssuedReceipt) (roomId : RoomId) : List Errand :=
  [.recordTrade, .unpersist, .erase, .lookUp (.told (.receiptIssued receipt)), .lookUp (.told (.complete roomId))]

def handleSent (reportingParty : Party) (message : RoundSignalMessage) : HubM Thread := do
  requireActive
  onSession (MediatorSession.senderReportedSent reportingParty message)
  let room ← get
  match room.entry.session.state with
  | .complete => do
      let receipt ← settle hub env
      return .telling (completion receipt room.entry.id)
  | .waitingForFeeConfirmation => do
      onEntry fun room => { room with feeConfirmationPendingSince := some env.now }
      persistRoomUpsert hub env
      return .telling [.lookUp (.told (.feeConfirmationPending room.entry.id))]
  | .waitingForSent => do
      let turn ← currentTurn
      persistRoomUpsert hub env
      return .telling [.lookUp (.told (.turn turn))]
  | _ => do
      persistRoomUpsert hub env
      if env.connected (otherParty reportingParty) then
        return .telling [.tell (otherParty reportingParty) (.told (.sent message))]
      else return .locking (.abort (ascii "peer disconnected"))

def handleReceived (reportingParty : Party) (message : RoundSignalMessage) : HubM Thread := do
  requireActive
  onSession (MediatorSession.receiverReportedReceived reportingParty message)
  let room ← get
  let relay : List Errand := if env.connected (otherParty reportingParty) then
    [.tell (otherParty reportingParty) (.told (.received message))] else []
  match room.entry.session.state with
  | .complete => do
      let receipt ← settle hub env
      return .telling (relay ++ completion receipt room.entry.id)
  | .waitingForFinalReceiptAck => do
      persistRoomUpsert hub env
      return .telling (relay ++ [.lookUp (.told (.receiptAckRequired room.entry.id))])
  | _ => do
      let turn ← currentTurn
      persistRoomUpsert hub env
      return .telling (relay ++ [.lookUp (.told (.turn turn))])

-- The keys were parsed before the room was looked for.
def handleTradeEphemeralKey (clientId : ClientId) (party : Party) (message : TradeEphemeralKeyMessage) : HubM Thread := do
  onEntry fun room => room.announce message.ephemeralPublicKey message.ephemeralPublicKeyMldsa65 party
  return .relaying clientId (.tradeEphemeralKey message)

def handleReceiptAck (party : Party) (message : ReceiptAckMessage) : HubM Thread := do
  requireActive
  let room ← get
  throwIf (room.entry.session.state ≠ .waitingForFinalReceiptAck)
    (HubError.benignRejection "room is not currently awaiting a final receipt acknowledgement")
  throwIf (message.stage ≠ ReceiptStage.penultimateObligationsComplete.toByte)
    (HubError.benignRejection "unexpected receipt acknowledgement stage")
  verifyAcknowledgement hub room.entry party message
  onSession (MediatorSession.acknowledgeFinalReceipt party)
  let room ← get
  if room.entry.session.state ≠ .waitingForFinalReceiptAck then
    let receipt ← issueReceipt hub env .penultimateObligationsComplete false
    let turn ← currentTurn
    persistRoomUpsert hub env
    return .telling [.lookUp (.told (.receiptIssued receipt)), .lookUp (.told (.turn turn))]
  else
    persistRoomUpsert hub env
    return idle

def abortRoom (reason : Bytes) : HubM Thread := do
  let reason := safeReason reason
  let room ← get
  if room.entry.active then
    deactivate reason
    return .telling [.unpersist, .erase, .lookUp (.told (.abort ⟨room.entry.id, reason⟩))]
  else return idle

def tryConfirmFeeLocked : HubM Thread := do
  let room ← get
  if room.entry.active ∧ room.entry.session.state = .waitingForFeeConfirmation then
    onSession MediatorSession.confirmFeeReceived
    let receipt ← settle hub env
    return .telling (completion receipt room.entry.id)
  else return idle

def removeClient : HubM Thread := do
  let room ← get
  if room.entry.active then
    deactivate (ascii "peer disconnected")
    return .telling [.unpersist, .lookUp (.told (.abort ⟨room.entry.id, ascii "peer disconnected"⟩))]
  else return idle

def Locked.run : Locked → HubM Thread
  | .sent reportingParty message => handleSent hub env reportingParty message
  | .received reportingParty message => handleReceived hub env reportingParty message
  | .tradeEphemeralKey clientId party message => handleTradeEphemeralKey clientId party message
  | .receiptAck party message => handleReceiptAck hub env party message
  | .abort reason => abortRoom reason
  | .confirmFee => tryConfirmFeeLocked hub env
  | .disconnect => removeClient

def recordCompletedTrade : HubM Unit := do
  let room ← get
  emit (.recordedTrade room.entry.session.creator.terms)

def Errand.run : Errand → SharedM (List Errand)
  | .recordTrade => do
      onRoom recordCompletedTrade
      return []
  | .unpersist => do
      onRoom (persistRoomRemove hub env)
      return []
  | .erase => do
      onRoom eraseRoom
      return []
  | .lookUp frame => do
      rejected frame.encodes
      let s ← get
      return (if s.registered .a then [.put .a frame] else []) ++ if s.registered .b then [.put .b frame] else []
  | .tell party frame => do
      rejected frame.encodes
      enqueue party frame
      return []
  | .put party frame => do
      enqueue party frame
      return []

/- The first section of a handler finds the room, before it is locked. -/
def start : Call → SharedM Thread
  | .sent clientId message => do
      let party ← onRoom (findRoomFor clientId message.roomId)
      return .locking (.sent party message)
  | .received clientId message => do
      let party ← onRoom (findRoomFor clientId message.roomId)
      return .locking (.received party message)
  | .tradeEphemeralKey clientId message => do
      let _ ← parsePublicKey message.ephemeralPublicKey "malformed ephemeral trade public key"
      let _ ← parsePublicKey message.ephemeralPublicKeyMldsa65 "malformed ephemeral trade public key (ML-DSA-65)"
      let party ← onRoom (findRoomFor clientId message.roomId)
      return .locking (.tradeEphemeralKey clientId party message)
  | .receiptAck clientId message => do
      let party ← onRoom (findRoomFor clientId message.roomId)
      return .locking (.receiptAck party message)
  | .abort clientId message => do
      let _ ← onRoom (findRoomFor clientId message.roomId)
      return .locking (.abort message.reason)
  | .confirmFee roomId => do
      let s ← get
      return if s.room.listed ∧ roomId = s.room.entry.id then .locking .confirmFee else idle
  | .disconnect clientId => do
      modify fun s => { s with
        alive := fun party => s.alive party && s.room.entry.client party ≠ clientId
        registered := fun party => s.registered party && s.room.entry.client party ≠ clientId }
      let s ← get
      let member := s.room.entry.partyA = clientId ∨ s.room.entry.partyB = clientId
      let awaitsOperator := s.room.entry.active && s.room.entry.session.state = .waitingForFeeConfirmation
      if s.room.listed ∧ member ∧ ¬awaitsOperator then
        onRoom eraseRoom
        return .locking .disconnect
      else return idle

def Thread.run : Thread → SharedM Thread
  | .starting call => start call
  | .relaying clientId message => do
      let party ← onRoom (findRoomFor clientId message.roomId)
      return .handingOn (otherParty party) message
  | .handingOn party message => do
      let s ← get
      throwIf (¬s.registered party) (HubError.benignRejection "counterparty is not currently connected")
      return .telling [.put party (.relayed message)]
  | .locking locked => do
      let s ← get
      onRoom (locked.run hub { env with connected := s.registered })
  | .telling [] => return idle
  | .telling (errand :: rest) => do
      let more ← errand.run hub env
      return .telling (more ++ rest)
  | .persisting => do
      onRoom (persistRoomUpsert hub env)
      return .announcing
  | .announcing => do
      let s ← get
      let readyA ← rejected (s.room.entry.session.readyMessage .a s.room.entry.partyB)
      let readyB ← rejected (s.room.entry.session.readyMessage .b s.room.entry.partyA)
      return .announced [(.a, readyA), (.b, readyB)]
  | .announced ((party, ready) :: left) => do
      rejected (RoomFrame.tradeReady ready).encodes
      enqueue party (.tradeReady ready)
      return .announced left
  -- The session is read here without the room's lock.
  | .announced [] => do
      let turn ← onRoom currentTurn
      return .telling [.lookUp (.told (.turn turn))]

end Sections

/-! Runs. -/

inductive Worker where
  | client (id : ClientId)
  | operator (n : Nat)
  deriving DecidableEq, Repr

inductive Request where
  | call (made : Hub.Call)
  | relay (clientId : ClientId) (message : Relayed)
  deriving DecidableEq, Repr

def Request.thread : Request → Thread
  | .call made => .starting made
  | .relay clientId message => .relaying clientId message

-- The client whose thread serves a request; an operator's serves the rest.
def Request.clientId : Request → Option ClientId
  | .call (.sent clientId _) | .call (.received clientId _) | .call (.tradeEphemeralKey clientId _)
  | .call (.receiptAck clientId _) | .call (.abort clientId _) | .call (.disconnect clientId)
  | .relay clientId _ => some clientId
  | .call (.confirmFee _) => none

-- A key has a handler of its own.
def Request.relaysKey : Request → Bool
  | .relay _ (.tradeEphemeralKey _) => true
  | _ => false

def Request.by (request : Request) : Worker → Bool
  | .client id => request.clientId = some id && !request.relaysKey
  | .operator _ => request.clientId = none

structure State where
  shared : Shared
  threads : Worker → Thread

-- A party that was removed is served no more.
def State.serves (s : State) : Worker → Bool
  | .client id => (s.shared.room.entry.partyA ≠ id || s.shared.registered .a) &&
      (s.shared.room.entry.partyB ≠ id || s.shared.registered .b)
  | .operator _ => true

inductive Event where
  | begins (worker : Worker) (request : Request)
  | acts (worker : Worker) (env : HubEnv)
  | hangsUp (party : Party)

def fire (hub : HubConfig) (s : State) : Event → Option State
  | .begins worker request =>
      if s.threads worker = idle ∧ request.by worker ∧ s.serves worker then
        some { s with threads := Function.update s.threads worker request.thread }
      else none
  | .acts worker env =>
      match (s.threads worker).run hub env s.shared with
      | .ok next shared => some { shared, threads := Function.update s.threads worker next }
      | .error _ shared => some { shared, threads := Function.update s.threads worker idle }
  | .hangsUp party => some { s with shared := { s.shared with alive := Function.update s.shared.alive party false } }

def Run (hub : HubConfig) (P : State → Event → Prop) : State → State → Prop :=
  Relation.ReflTransGen fun s t => ∃ event, P s event ∧ fire hub s event = some t

/- The offer was just taken: the room is in the table, and the joining client's thread goes on from there. -/
def joined (room : RoomEntry) : State where
  shared := { room := { entry := room }, alive := fun _ => true, registered := fun _ => true, queues := fun _ => [] }
  threads worker := if worker = .client room.partyB then .persisting else idle

/- The clients of a room that was read from the file are not there. -/
def reloaded (room : RoomEntry) : State where
  shared := { room := { entry := room }, alive := fun _ => false, registered := fun _ => false, queues := fun _ => [] }
  threads _ := idle

inductive Opened : State → Prop where
  | joined (session : MediatorSession) (room : RoomEntry) (opened : Joined session room)
      (others : room.partyA ≠ room.partyB) : Opened (joined room)
  | reloaded (room : RoomEntry) (restored : Restored room) : Opened (reloaded room)

end Delivery
end TradeP2P
