import TradeP2P.Protocol.Terms

/-! The mediator's settlement session. Every method mirrors the class method of the
same name: it checks first and throws without touching a field, then updates. -/
namespace TradeP2P
open Wire (Bytes ascii)
open Checks

inductive SessionState where
  | waitingForPeer
  | waitingForSent
  | waitingForReceived
  | waitingForFeeSent
  | complete
  | aborted
  | waitingForFinalReceiptAck
  | waitingForFeeConfirmation
  deriving DecidableEq, Repr

inductive FeePosition where
  | beforeFirstRound
  | beforeLastRound
  | afterLastRound
  deriving DecidableEq, Repr

structure MediatorSession where
  creator : CreateRoomMessage
  roomId : RoomId
  receiveAddressB : Bytes := []
  fee : FeeTerms
  state : SessionState := .waitingForPeer
  roundIndex : UInt32 := 0
  legIndex : UInt8 := 0
  abortReason : Bytes := []
  finalReceiptAckedA : Bool := false
  finalReceiptAckedB : Bool := false
  requireFeeConfirmation : Bool
  feePosition : FeePosition
  deriving DecidableEq, Repr

namespace MediatorSession

def construct (creator : CreateRoomMessage) (roomId : RoomId) (fee : FeeTerms)
    (requireFeeConfirmation : Bool) (feePosition : FeePosition) : Except Error MediatorSession := do
  validateTerms creator.terms
  validateAddress creator.receiveAddressA
  validateRoomId roomId
  validateFeeTerms fee
  return { creator, roomId, fee, requireFeeConfirmation, feePosition }

/- Rebuilds a session from persisted fields. Receive addresses may be blank here, and the
acknowledgement flags of the final-receipt gate start over. -/
def restore (roomId : RoomId) (terms : TradeTerms) (receiveAddressA receiveAddressB : Bytes)
    (fee : FeeTerms) (state : SessionState) (roundIndex : UInt32) (legIndex : UInt8)
    (abortReason : Bytes) (requireFeeConfirmation : Bool) (feePosition : FeePosition) :
    Except Error MediatorSession := do
  validateTerms terms
  validateRoomId roomId
  validateFeeTerms fee
  if !receiveAddressA.isEmpty then validateAddress receiveAddressA
  if !receiveAddressB.isEmpty then validateAddress receiveAddressB
  throwIf (roundIndex > terms.rounds) (.invalidArgument "restored round index exceeds configured rounds")
  throwIf (legIndex > 1) (.invalidArgument "restored leg index must be 0 or 1")
  return { creator := ⟨terms, receiveAddressA⟩, roomId, receiveAddressB, fee, state, roundIndex,
           legIndex, abortReason, requireFeeConfirmation, feePosition }

def firstSenderForRound (s : MediatorSession) : Party :=
  if s.roundIndex % 2 ≠ 0 then otherParty s.creator.terms.firstSender
  else s.creator.terms.firstSender

def currentSender (s : MediatorSession) : Except Error Party :=
  match s.state with
  | .waitingForPeer | .complete | .aborted | .waitingForFinalReceiptAck
  | .waitingForFeeConfirmation => throw (.logicError "session has no active sender")
  | .waitingForFeeSent => return .a
  | .waitingForSent | .waitingForReceived =>
      return if s.legIndex = 0 then s.firstSenderForRound else otherParty s.firstSenderForRound

def currentReceiver (s : MediatorSession) : Except Error Party := do
  return otherParty (← s.currentSender)

def currentTurn (s : MediatorSession) : Except Error TurnMessage := do
  if s.state = .waitingForFeeSent then
    return { roomId := s.roomId, roundIndex := s.roundIndex, sender := .a, asset := s.fee.asset,
             amount := s.fee.amount, destination := s.fee.address, isFee := true }
  let terms := s.creator.terms
  match ← s.currentSender with
  | .a =>
      let amount ← trancheAmount terms.totalA terms.rounds s.roundIndex
      return { roomId := s.roomId, roundIndex := s.roundIndex, sender := .a, asset := terms.assetA,
               amount, destination := s.receiveAddressB }
  | .b =>
      let amount ← trancheAmount terms.totalB terms.rounds s.roundIndex
      return { roomId := s.roomId, roundIndex := s.roundIndex, sender := .b, asset := terms.assetB,
               amount, destination := s.creator.receiveAddressA }

def validateSignal (s : MediatorSession) (message : RoundSignalMessage) : Except Error Unit := do
  if message.roomId ≠ s.roomId then
    throw (.invalidArgument "signal has wrong room id")
  if message.roundIndex ≠ s.roundIndex then
    throw (.invalidArgument "signal has wrong round index")
  if message.sender ≠ (← s.currentSender) then
    throw (.invalidArgument "signal has wrong sender")

def finalReceiptAcked (s : MediatorSession) : Party → Bool
  | .a => s.finalReceiptAckedA
  | .b => s.finalReceiptAckedB

def finalReceiptGateIsFeeLeg (s : MediatorSession) : Bool :=
  s.fee.amount > 0 && s.feePosition = .afterLastRound && s.roundIndex = s.creator.terms.rounds

def recordFinalReceiptAck (s : MediatorSession) : Party → MediatorSession
  | .a => { s with finalReceiptAckedA := true }
  | .b => { s with finalReceiptAckedB := true }

abbrev Method := EStateM Error MediatorSession Unit

def join (message : JoinRoomMessage) : Method := do
  let s ← get
  if s.state ≠ .waitingForPeer then
    throw (.logicError "room is not accepting a peer")
  if message.roomId ≠ s.roomId then
    throw (.invalidArgument "wrong room id")
  validateAddress message.receiveAddressB
  -- With a single round the two early positions fall together.
  let feeDueBeforeAnyRound := s.fee.amount > 0 &&
    (s.feePosition = .beforeFirstRound ||
      (s.feePosition = .beforeLastRound && s.creator.terms.rounds ≤ 1))
  set { s with receiveAddressB := message.receiveAddressB
               state := if feeDueBeforeAnyRound then .waitingForFeeSent else .waitingForSent }

def senderReportedSent (reportingParty : Party) (message : RoundSignalMessage) : Method := do
  let s ← get
  if s.state = .waitingForFeeSent then
    if message.roomId ≠ s.roomId then
      throw (.invalidArgument "signal has wrong room id")
    if message.roundIndex ≠ s.roundIndex then
      throw (.invalidArgument "signal has wrong round index")
    if reportingParty ≠ .a ∨ message.sender ≠ .a then
      throw (.invalidArgument "only the offer creator settles the mediator fee")
    let feeIsFinalAction := s.feePosition == .afterLastRound
    if s.requireFeeConfirmation then
      set { s with state := .waitingForFeeConfirmation }
    else
      set { s with state := if feeIsFinalAction then .complete else .waitingForSent }
  else
    if s.state ≠ .waitingForSent then
      throw (.logicError "not waiting for sent acknowledgement")
    s.validateSignal message
    if reportingParty ≠ (← s.currentSender) then
      throw (.invalidArgument "wrong party reported sent")
    set { s with state := .waitingForReceived }

def advanceAfterReceipt : Method := do
  let s ← get
  let terms := s.creator.terms
  if s.legIndex = 0 then
    let isLastRound := s.roundIndex + 1 == terms.rounds
    let thisLegIsFinalTranche := isLastRound && (s.fee.amount == 0 || s.feePosition != .afterLastRound)
    if thisLegIsFinalTranche then
      set { s with legIndex := 1, finalReceiptAckedA := false, finalReceiptAckedB := false
                   state := .waitingForFinalReceiptAck }
    else
      set { s with legIndex := 1, state := .waitingForSent }
  else
    let s := { s with legIndex := 0, roundIndex := s.roundIndex + 1 }
    if s.fee.amount > 0 ∧ s.feePosition = .beforeLastRound ∧ s.roundIndex = terms.rounds - 1 then
      set { s with state := .waitingForFeeSent }
    else if s.roundIndex = terms.rounds then
      if s.fee.amount > 0 ∧ s.feePosition = .afterLastRound then
        set { s with finalReceiptAckedA := false, finalReceiptAckedB := false
                     state := .waitingForFinalReceiptAck }
      else
        set { s with state := .complete }
    else
      set { s with state := .waitingForSent }

def receiverReportedReceived (reportingParty : Party) (message : RoundSignalMessage) : Method := do
  let s ← get
  if s.state ≠ .waitingForReceived then
    throw (.logicError "not waiting for received acknowledgement")
  s.validateSignal message
  if reportingParty ≠ (← s.currentReceiver) then
    throw (.invalidArgument "wrong party reported received")
  advanceAfterReceipt

def confirmFeeReceived : Method := do
  let s ← get
  if s.state ≠ .waitingForFeeConfirmation then
    throw (.logicError "session is not waiting for fee confirmation")
  let feeIsFinalAction := s.feePosition == .afterLastRound
  set { s with state := if feeIsFinalAction then .complete else .waitingForSent }

def acknowledgeFinalReceipt (party : Party) : Method := do
  let s ← get
  if s.state ≠ .waitingForFinalReceiptAck then
    throw (.logicError "not waiting for a final receipt acknowledgement")
  if s.finalReceiptAcked party then
    throw (.logicError "this party already acknowledged the final receipt")
  let s := s.recordFinalReceiptAck party
  if s.finalReceiptAckedA && s.finalReceiptAckedB then
    set { s with state := if s.finalReceiptGateIsFeeLeg then .waitingForFeeSent else .waitingForSent }
  else
    set s

def abort (reason : Bytes) : Method := do
  let s ← get
  if s.state = .complete then
    throw (.logicError "completed session cannot be aborted")
  let reason := if reason.isEmpty then ascii "session aborted" else reason
  set { s with abortReason := reason.take maxReasonLength, state := .aborted }

inductive Operation where
  | join (message : JoinRoomMessage)
  | senderReportedSent (reportingParty : Party) (message : RoundSignalMessage)
  | receiverReportedReceived (reportingParty : Party) (message : RoundSignalMessage)
  | acknowledgeFinalReceipt (party : Party)
  | confirmFeeReceived
  | abort (reason : Bytes)
  deriving DecidableEq, Repr

def perform : Machine.Object Error MediatorSession Operation
  | .join message => MediatorSession.join message
  | .senderReportedSent party message => MediatorSession.senderReportedSent party message
  | .receiverReportedReceived party message => MediatorSession.receiverReportedReceived party message
  | .acknowledgeFinalReceipt party => MediatorSession.acknowledgeFinalReceipt party
  | .confirmFeeReceived => MediatorSession.confirmFeeReceived
  | .abort reason => MediatorSession.abort reason

end MediatorSession
end TradeP2P
