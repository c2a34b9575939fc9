import TradeP2P.Hub.Delivery

/-! What a client shows of a room: a fold over the frames that came for it. Keys, receipts and the
event log are kept elsewhere in the client and are left out. -/
namespace TradeP2P
open Wire (Bytes ascii)

inductive RoomStatus where
  | active
  | complete
  | aborted
  deriving DecidableEq, Repr

inductive ReceiptStatus where
  | none
  | gateOpen
  | stage3
  | stage4
  deriving DecidableEq, Repr

/- `ready` stands for the fields that a TradeReady fills in. -/
structure RoomView where
  ready : Option TradeReadyMessage := none
  status : RoomStatus := .active
  detail : Bytes := []
  hasTurn : Bool := false
  turn : Option TurnMessage := none
  peerSentThisTurn : Bool := false
  receiptStatus : ReceiptStatus := .none
  feeConfirmationPending : Bool := false
  counterpartyEphemeralPublicKey : Option Ed25519PublicKey := none
  deriving DecidableEq, Repr

namespace DashboardClient

def handleKey (known : Option RoomView) (message : TradeEphemeralKeyMessage) : Option RoomView :=
  some { known.getD {} with
    counterpartyEphemeralPublicKey :=
      if message.ephemeralPublicKey.toList.all (· == 0) then (known.getD {}).counterpartyEphemeralPublicKey
      else some message.ephemeralPublicKey }

-- A room is made up when a frame names one that is not there yet.
def handleTold (known : Option RoomView) : Frame → Option RoomView
  | .turn turn => some { known.getD {} with turn := some turn, hasTurn := true, peerSentThisTurn := false, status := .active }
  | .sent _ => some { known.getD {} with peerSentThisTurn := true }
  | .received _ => known
  | .complete _ => some { known.getD {} with
      status := .complete, detail := ascii "all rounds completed", hasTurn := false, feeConfirmationPending := false }
  | .abort message => some { known.getD {} with
      status := .aborted, detail := message.reason, hasTurn := false, feeConfirmationPending := false }
  | .tradeEphemeralKey message => handleKey known message
  | .receiptAckRequired _ => some { known.getD {} with receiptStatus := .gateOpen }
  | .feeConfirmationPending _ => some { known.getD {} with feeConfirmationPending := true }
  | .receiptIssued receipt => some { known.getD {} with
      receiptStatus := if receipt.fields.stage = ReceiptStage.settlementCompleted.toByte then .stage4 else .stage3 }

def handleFrame (known : Option RoomView) : RoomFrame → Option RoomView
  | .tradeReady message => some { ready := some message }
  | .told frame => handleTold known frame
  | .relayed (.tradeEphemeralKey message) => handleKey known message
  | .relayed (.receiptDisclosure _) => known
  | .relayed _ => some (known.getD {})

def shown (frames : List RoomFrame) : Option RoomView := frames.foldl handleFrame none

end DashboardClient
end TradeP2P
