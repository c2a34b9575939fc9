import TradeP2P.Lib.Locking
import TradeP2P.Protocol.Terms

/-! The locks of the hub. Each function of the hub is its locks: which it takes, in which scopes, and
where it may throw or branch. The rooms and clients a function finds in the hub's tables are parameters
of its code, and so is how often a loop goes round. -/
namespace TradeP2P.Hub.Locks
open Locking (Code)
open Locking.Code (skip throw scopedLock seq choose attempt all oneOf maybe mayThrow)

inductive HubLock where
  | hub
  | room (id : RoomId)
  | persistence
  | queue (client : ClientId)
  | fee
  | priceHistory
  deriving DecidableEq, Repr

structure Members where
  id : RoomId
  partyA : ClientId
  partyB : ClientId
  deriving DecidableEq, Repr

def Members.client (room : Members) : Party → ClientId
  | .a => room.partyA
  | .b => room.partyB

abbrev HubCode := Code HubLock

/-! Helpers of the handlers. -/

def enqueue (client : ClientId) : HubCode := scopedLock (.queue client) skip
def takeOutgoing (client : ClientId) : HubCode := scopedLock (.queue client) skip
def currentFee : HubCode := scopedLock .fee skip
def setFee : HubCode := scopedLock .fee mayThrow
def recordCompletedTrade : HubCode := scopedLock .priceHistory skip
def findRoomFor : HubCode := seq (scopedLock .hub mayThrow) mayThrow
def clientForParty : HubCode := scopedLock .hub skip
def eraseRoom : HubCode := scopedLock .hub skip

-- The frame is encoded first; either party may be gone.
def sendToRoom (room : Members) : HubCode :=
  all [mayThrow, scopedLock .hub skip, maybe (enqueue room.partyA), maybe (enqueue room.partyB)]

section Handlers
variable (persists : Bool)

def persistRoomUpsert : HubCode := if persists then scopedLock .persistence mayThrow else skip
def persistRoomRemove : HubCode := if persists then scopedLock .persistence mayThrow else skip

def abortRoom (room : Members) : HubCode :=
  choose (scopedLock (.room room.id) skip)
    (all [scopedLock (.room room.id) mayThrow, persistRoomRemove persists, eraseRoom, sendToRoom room])

def announceCompletion (room : Members) : HubCode :=
  all [recordCompletedTrade, persistRoomRemove persists, eraseRoom, maybe (sendToRoom room), sendToRoom room]

/-! Handlers of a client's frames. -/

def handleCreateOffer (client : ClientId) : HubCode := all [scopedLock .hub mayThrow, mayThrow, enqueue client]
def handleListOffers (client : ClientId) : HubCode := all [scopedLock .hub skip, mayThrow, enqueue client]
def handleCancelOffer (client : ClientId) : HubCode := all [scopedLock .hub mayThrow, mayThrow, enqueue client]
def handleGetCandles (client : ClientId) : HubCode := all [scopedLock .priceHistory skip, mayThrow, enqueue client]

def handleJoinOffer (room : Members) : HubCode :=
  all [scopedLock .hub (all [mayThrow, currentFee, mayThrow]), scopedLock (.room room.id) (persistRoomUpsert persists),
    mayThrow, enqueue room.partyA, enqueue room.partyB, sendToRoom room]

/- The peer is looked up with the room still locked. -/
def handleSent (room : Members) (reportingParty : Party) : HubCode :=
  all [findRoomFor, choose
    (all [scopedLock (.room room.id) (all [mayThrow, clientForParty, mayThrow]), announceCompletion persists room])
    (all [scopedLock (.room room.id) (all [mayThrow, clientForParty, mayThrow, persistRoomUpsert persists]),
      oneOf (sendToRoom room) [abortRoom persists room, seq mayThrow (enqueue (room.client (otherParty reportingParty)))]])]

def handleReceived (room : Members) (reportingParty : Party) : HubCode :=
  let relay : HubCode := maybe (seq mayThrow (enqueue (room.client (otherParty reportingParty))))
  all [findRoomFor, choose
    (all [scopedLock (.room room.id) (all [mayThrow, clientForParty, mayThrow]), relay, announceCompletion persists room])
    (all [scopedLock (.room room.id) (all [mayThrow, clientForParty, mayThrow, persistRoomUpsert persists]), relay,
      sendToRoom room])]

def handleRoomRelay (room : Members) (senderParty : Party) : HubCode :=
  all [findRoomFor, mayThrow, clientForParty, mayThrow, enqueue (room.client (otherParty senderParty))]

def handleTradeEphemeralKey (room : Members) (party : Party) : HubCode :=
  all [mayThrow, findRoomFor, mayThrow, scopedLock (.room room.id) skip, handleRoomRelay room party]

def handleReceiptAck (room : Members) : HubCode :=
  all [findRoomFor, mayThrow, scopedLock (.room room.id) (all [mayThrow, persistRoomUpsert persists]),
    maybe (seq (sendToRoom room) (sendToRoom room))]

def handleAbort (room : Members) : HubCode := seq findRoomFor (abortRoom persists room)

def handleRecoveryStateRequest (client : ClientId) (room : RoomId) : HubCode :=
  seq (scopedLock .hub skip) (choose (enqueue client)
    (all [scopedLock (.room room) skip, scopedLock (.room room) skip, clientForParty, clientForParty, mayThrow,
      enqueue client]))

/- The rooms of the client are looked at one by one while the hub is locked. -/
def removeClient (rooms : List Members) (invited : List ClientId) : HubCode :=
  all [scopedLock .hub (all (rooms.map fun room => scopedLock (.room room.id) skip)),
    all (invited.map fun peer => seq (scopedLock .hub skip) (maybe (enqueue peer))),
    all (rooms.map fun room => maybe (seq (scopedLock (.room room.id) skip)
      (maybe (seq (persistRoomRemove persists) (sendToRoom room)))))]

/-! The operator's side. -/

def tryConfirmFeeLocked (room : Members) : HubCode :=
  seq (scopedLock .hub skip) (oneOf skip [scopedLock (.room room.id) skip,
    seq (scopedLock (.room room.id) mayThrow) (announceCompletion persists room)])

def pendingFeeDetailsLocked (rooms : List RoomId) : HubCode :=
  seq (scopedLock .hub skip) (all (rooms.map fun room => scopedLock (.room room) skip))

def writeStateSnapshot (rooms : List RoomId) : HubCode :=
  all [scopedLock .hub skip, all (rooms.map fun room => scopedLock (.room room) skip), currentFee, mayThrow]

def loadPersistedRoomsAtStartup : HubCode :=
  if persists then seq mayThrow (maybe (scopedLock .hub (scopedLock .persistence mayThrow))) else skip

/-! Threads. -/

inductive Request where
  | createOffer
  | listOffers
  | cancelOffer
  | getCandles
  | joinOffer (room : Members)
  | sent (room : Members) (party : Party)
  | received (room : Members) (party : Party)
  | relayed (room : Members) (party : Party)
  | tradeEphemeralKey (room : Members) (party : Party)
  | receiptAck (room : Members)
  | abort (room : Members)
  | recoveryState (room : RoomId)
  | unaccepted
  deriving DecidableEq, Repr

def dispatch (client : ClientId) : Request → HubCode
  | .createOffer => handleCreateOffer client
  | .listOffers => handleListOffers client
  | .cancelOffer => handleCancelOffer client
  | .getCandles => handleGetCandles client
  | .joinOffer room => handleJoinOffer persists room
  | .sent room party => handleSent persists room party
  | .received room party => handleReceived persists room party
  | .relayed room party => handleRoomRelay room party
  | .tradeEphemeralKey room party => handleTradeEphemeralKey room party
  | .receiptAck room => handleReceiptAck persists room
  | .abort room => handleAbort persists room
  | .recoveryState room => handleRecoveryStateRequest client room
  | .unaccepted => throw

def sendError (client : ClientId) : HubCode := maybe (enqueue client)

-- One round of a client's loop: a frame is decoded and dispatched, and what is queued goes out.
def serve (client : ClientId) (request : Request) : HubCode :=
  all [maybe (takeOutgoing client), mayThrow, attempt (seq mayThrow (dispatch persists client request)) (sendError client),
    maybe (takeOutgoing client), mayThrow]

inductive Command where
  | getFee
  | setFee
  | listPendingFees (rooms : List RoomId)
  | feeDetails (rooms : List RoomId)
  | confirmFee (room : Members)
  | refused
  deriving DecidableEq, Repr

def handleAdminConnection : Command → HubCode
  | .getFee => currentFee
  | .setFee => attempt setFee skip
  | .listPendingFees rooms => pendingFeeDetailsLocked rooms
  | .feeDetails rooms => attempt (seq mayThrow (pendingFeeDetailsLocked rooms)) skip
  | .confirmFee room => attempt (seq mayThrow (tryConfirmFeeLocked persists room)) skip
  | .refused => skip

/- A thread, with what its loop meets. A client's is accepted only while there is room for it. -/
inductive HubThread where
  | client (id : ClientId) (requests : List Request) (rooms : List Members) (invited : List ClientId)
  | admin (commands : List Command)
  | feePlugin (polls : List (List RoomId × List Members))
  | snapshot (sightings : List (List RoomId))
  | main
  deriving DecidableEq, Repr

def HubThread.code : HubThread → HubCode
  | .client id requests rooms invited =>
      choose (scopedLock .hub skip) (all [scopedLock .hub skip,
        attempt (all [currentFee, mayThrow, all (requests.map (serve persists id))]) skip,
        removeClient persists rooms invited])
  | .admin commands => all (commands.map fun command => attempt (handleAdminConnection persists command) skip)
  | .feePlugin polls => all (polls.map fun poll =>
      attempt (seq (pendingFeeDetailsLocked poll.1) (all (poll.2.map (tryConfirmFeeLocked persists)))) skip)
  | .snapshot sightings => all (sightings.map fun rooms => attempt (writeStateSnapshot rooms) skip)
  | .main => seq currentFee (loadPersistedRoomsAtStartup persists)

end Handlers

/-! How the locks nest. The hub's lock and a room's are each taken under the other. -/

def nests : List HubLock → HubLock → Bool
  | [], _ => true
  | [.hub], .room _ | [.hub], .persistence | [.hub], .fee => true
  | [.room _], .hub | [.room _], .persistence => true
  | _, _ => false

@[simp] theorem nestsNone (l : HubLock) : nests [] l = true := rfl
@[simp] theorem nestsHubRoom (id : RoomId) : nests [.hub] (.room id) = true := rfl
@[simp] theorem nestsHubPersistence : nests [.hub] .persistence = true := rfl
@[simp] theorem nestsHubFee : nests [.hub] .fee = true := rfl
@[simp] theorem nestsRoomHub (id : RoomId) : nests [.room id] .hub = true := rfl
@[simp] theorem nestsRoomPersistence (id : RoomId) : nests [.room id] .persistence = true := rfl

/- The only locks that anything is taken under. -/
theorem nestsUnder {held : List HubLock} {k l : HubLock} (allowed : nests held l = true) (inHeld : k ∈ held) :
    held = [k] ∧ (k = .hub ∧ ((∃ id, l = .room id) ∨ l = .persistence ∨ l = .fee) ∨
      (∃ id, k = .room id) ∧ (l = .hub ∨ l = .persistence)) := by
  unfold nests at allowed
  split at allowed
  · contradiction
  all_goals first | contradiction | (rw [List.mem_singleton] at inHeld; subst inHeld; simp)

section Nesting
variable {persists : Bool} {held : List HubLock} {room : Members} {client : ClientId} {party : Party}

@[simp] theorem keepsUpsert : (persistRoomUpsert persists).Keeps nests held ↔ (persists → nests held .persistence = true) := by
  cases persists <;> simp [persistRoomUpsert]

@[simp] theorem keepsRemove : (persistRoomRemove persists).Keeps nests held ↔ (persists → nests held .persistence = true) := by
  cases persists <;> simp [persistRoomRemove]

@[simp] theorem keepsSendToRoom : (sendToRoom room).Keeps nests [] := by simp [sendToRoom, enqueue]

@[simp] theorem keepsAbortRoom : (abortRoom persists room).Keeps nests [] := by simp [abortRoom, eraseRoom]

@[simp] theorem keepsAnnounceCompletion : (announceCompletion persists room).Keeps nests [] := by
  simp [announceCompletion, recordCompletedTrade, eraseRoom]

@[simp] theorem keepsRelay : (handleRoomRelay room party).Keeps nests [] := by
  simp [handleRoomRelay, findRoomFor, clientForParty, enqueue]

theorem keepsDispatch (request : Request) : (dispatch persists client request).Keeps nests [] := by
  cases request <;> simp [dispatch, handleCreateOffer, handleListOffers, handleCancelOffer, handleGetCandles,
    handleJoinOffer, handleSent, handleReceived, handleTradeEphemeralKey, handleReceiptAck, handleAbort,
    handleRecoveryStateRequest, findRoomFor, clientForParty, currentFee, enqueue]

theorem keepsServe (request : Request) : (serve persists client request).Keeps nests [] := by
  simp [serve, keepsDispatch, sendError, takeOutgoing, enqueue]

theorem keepsRemoveClient (rooms : List Members) (invited : List ClientId) :
    (removeClient persists rooms invited).Keeps nests [] := by
  simp [removeClient, enqueue]

theorem keepsConfirm : (tryConfirmFeeLocked persists room).Keeps nests [] := by simp [tryConfirmFeeLocked]

theorem keepsPending (rooms : List RoomId) : (pendingFeeDetailsLocked rooms).Keeps nests [] := by
  simp [pendingFeeDetailsLocked]

theorem keepsAdmin (command : Command) : (handleAdminConnection persists command).Keeps nests [] := by
  cases command <;> simp [handleAdminConnection, keepsConfirm, keepsPending, currentFee, setFee]

/- Every thread of the hub nests its locks this way. -/
theorem keepsThread (thread : HubThread) : (thread.code persists).Keeps nests [] := by
  cases thread with
  | client id requests rooms invited => simp [HubThread.code, keepsServe, keepsRemoveClient, currentFee]
  | admin commands => simp [HubThread.code, keepsAdmin]
  | feePlugin polls =>
      simp only [HubThread.code, Code.keepsAll, List.mem_map]
      intro c found
      obtain ⟨poll, _, rfl⟩ := found
      simp [keepsPending, keepsConfirm]
  | snapshot sightings => simp [HubThread.code, writeStateSnapshot, currentFee]
  | main => cases persists <;> simp [HubThread.code, loadPersistedRoomsAtStartup, currentFee]

end Nesting
end TradeP2P.Hub.Locks
