import TradeP2P.Hub.Delivery
import TradeP2P.Journal.Records
import TradeP2P.Protocol.Evidence

/-! The hub as a whole: the clients it has accepted, the open offers, and the rooms, each of which goes on as
a room does by itself. A thread serves each client and each operator, and one step is what a thread does
under one lock. -/
namespace TradeP2P
open Wire (Bytes ascii)
open Checks

def HubError.text : HubError → String
  | .benignRejection text => text
  | .standard e => e.text

namespace Lobby

def maxClients : Nat := 128
def maxRooms : Nat := 256
def maxOpenOffers : Nat := 256
def maxOffersPerClient : Nat := 16
def maxTrackedPairs : Nat := 500

/- The settings of the mediator that do not change while it runs. -/
structure LobbyConfig where
  hub : HubConfig
  requireFeeConfirmation : Bool
  feePosition : FeePosition

/-! What a client sends and is sent. -/

inductive Outgoing where
  | welcome (message : WelcomeMessage)
  | offerCreated (message : OfferCreatedMessage)
  | offerList (message : OfferListMessage)
  | offerCancelled (message : OfferCancelledMessage)
  | recoveryStateResponse (message : RecoveryStateResponseMessage)
  | candleData (message : CandleDataMessage)
  | error (message : ErrorMessage)
  | room (frame : RoomFrame)
  deriving DecidableEq, Repr

def fitsFrame (text : String) (encoded : Bytes) : Except Error Unit :=
  throwIf (encoded.length > maxFramePayload) (.logicError text)

-- A room's frames are encoded where they are put on a queue.
def Outgoing.encodes : Outgoing → Except Error Unit
  | .welcome message => do
      let _ ← encodeWelcome message
      return
  | .offerCreated message => do
      let _ ← encodeOfferCreated message
      return
  | .offerList message => do
      let encoded ← encodeOfferList message
      fitsFrame "encoded offer page exceeds frame limit" encoded
  | .offerCancelled message => do
      let _ ← encodeOfferCancelled message
      return
  | .recoveryStateResponse message => do
      let _ ← encodeRecoveryStateResponse message
      return
  | .candleData message => do
      let encoded ← encodeCandleData message
      fitsFrame "encoded candle data exceeds frame limit" encoded
  | .error _ | .room _ => return

-- A frame that cannot be decoded, or is none that clients send, is an error.
inductive Request where
  | createOffer (message : CreateOfferMessage)
  | listOffers (message : ListOffersMessage)
  | joinOffer (message : JoinOfferMessage)
  | cancelOffer (message : CancelOfferMessage)
  | recoveryState (message : RecoveryStateRequestMessage)
  | getCandles (message : GetCandlesMessage)
  | room (request : Delivery.Request)
  | unreadable (e : Error)
  deriving DecidableEq, Repr

-- The messages of a room are a client's own, and a disconnect is none of them.
def Request.mayComeFrom (id : ClientId) : Request → Bool
  | .room request => request.by (.client id) && request ≠ .call (.disconnect id)
  | _ => true

/-! The tables. A client and a room go by their place among all there have been, as the source's pointers
do; the tables tell which of them are there now. -/

structure Client where
  id : ClientId
  alive : Bool := true
  badMessages : Nat := 0
  outgoing : List Outgoing := []
  deriving DecidableEq, Repr

structure TrackedPair where
  key : Bytes
  ticks : List TradeTick
  deriving DecidableEq, Repr

structure Tables where
  accepted : List Client := []
  clients : List Nat := []
  offers : List OpenOffer := []
  entries : List RoomEntry := []
  rooms : List Nat := []
  persisted : RoomId → Option PersistedRoom := fun _ => none
  priceHistory : List TrackedPair := []
  fee : FeeTerms := {}

namespace Tables
variable (s : Tables)

def idOf (n : Nat) : ClientId := (s.accepted[n]?.map Client.id).getD (Vector.replicate 16 0)

def client (id : ClientId) : Option Nat := s.clients.find? fun n => s.idOf n = id

def offer (id : RoomId) : Option OpenOffer := s.offers.find? fun offer => offer.id = id

def room (id : RoomId) : Option Nat := s.rooms.find? fun place => s.entries[place]?.any fun room => room.id = id

-- An id is drawn again until no offer and no room has it.
def taken (id : RoomId) : Bool := (s.offer id).isSome || (s.room id).isSome

def change (n : Nat) (f : Client → Client) : Tables := { s with accepted := s.accepted.modify n f }

def deliver (receiver : Option Nat) (frames : List RoomFrame) : Tables :=
  match receiver with
  | some n => s.change n fun client => { client with outgoing := client.outgoing ++ frames.map .room }
  | none => s

end Tables

/-! The price history. -/

def canonicalPair (assetA assetB : Bytes) : Bytes × Bytes := if assetB < assetA then (assetB, assetA) else (assetA, assetB)

def pairKey (pair : Bytes × Bytes) : Bytes := pair.1 ++ ascii "/" ++ pair.2

def lastTraded (pair : TrackedPair) : Option UInt64 := pair.ticks.getLast?.map TradeTick.timestamp

def older (oldest candidate : TrackedPair) : TrackedPair :=
  match lastTraded oldest, lastTraded candidate with
  | none, _ => candidate
  | some _, none => oldest
  | some last, some other => if other < last then candidate else oldest

def evictOldest : List TrackedPair → List TrackedPair
  | [] => []
  | first :: rest => (first :: rest).erase (rest.foldl older first)

def recordCompletedTrade (now : UInt64) (terms : TradeTerms) (history : List TrackedPair) : List TrackedPair :=
  let pair := canonicalPair terms.assetA terms.assetB
  let swapped := terms.assetA ≠ pair.1
  let tick : TradeTick := { timestamp := now, baseAmount := if swapped then terms.totalB else terms.totalA
                            quoteAmount := if swapped then terms.totalA else terms.totalB }
  let tracked := if history.any fun old => old.key = pairKey pair then history
    else (if history.length ≥ maxTrackedPairs then evictOldest history else history) ++ [⟨pairKey pair, []⟩]
  tracked.map fun old => if old.key = pairKey pair then
      ⟨old.key, (old.ticks ++ [tick]).drop (old.ticks.length + 1 - maxCandleTicksPerPair)⟩
    else old

/-! A room, as its handlers see it. -/

-- Whom a handler of a room found when it last looked the parties up.
structure Receivers where
  a : Option Nat := none
  b : Option Nat := none
  deriving DecidableEq, Repr

def Receivers.of (receivers : Receivers) : Party → Option Nat
  | .a => receivers.a
  | .b => receivers.b

def looksUp : Delivery.Thread → Bool
  | .locking _ | .handingOn _ _ | .telling (.lookUp _ :: _) => true
  | _ => false

namespace Tables
variable (s : Tables)

def receivers (room : RoomEntry) : Receivers := ⟨s.client room.partyA, s.client room.partyB⟩

def view (place : Nat) (room : RoomEntry) (receivers : Receivers) : Delivery.Shared where
  room := { entry := room, listed := place ∈ s.rooms }
  alive party := ((receivers.of party).bind fun n => s.accepted[n]?).any Client.alive
  registered party := (s.client (room.client party)).isSome
  queues _ := []

def record (now : UInt64) (id : RoomId) (s : Tables) : Effect → Tables
  | .persisted snapshot => { s with persisted := Function.update s.persisted snapshot.roomId (some snapshot) }
  | .unpersisted => { s with persisted := Function.update s.persisted id none }
  | .recordedTrade terms => { s with priceHistory := recordCompletedTrade now terms s.priceHistory }
  | .issued _ | .erased | .enqueued _ _ => s

-- What a step of a room's handler has done to the tables.
def written (place : Nat) (receivers : Receivers) (now : UInt64) (t : Delivery.Shared) : Tables :=
  let s := { s with entries := s.entries.set place t.room.entry
                    rooms := if t.room.listed then s.rooms else s.rooms.filter (· ≠ place) }
  let s := t.room.effects.foldl (record now t.room.entry.id) s
  (s.deliver receivers.a (t.queues .a)).deliver receivers.b (t.queues .b)

end Tables

abbrev TablesM := EStateM HubError Tables

structure LobbyEnv where
  hub : HubEnv
  drawn : Except Error RoomId

inductive RecoveryStage where | state | fee | partyA | partyB
  deriving DecidableEq, Repr

/- Where a thread has come to. -/
inductive Task where
  | idle
  | serving (n : Nat) (request : Request)
  | answering (n : Nat) (frame : Outgoing)
  | recovering (n place : Nat) (stage : RecoveryStage) (response : RecoveryStateResponseMessage)
  | room (place : Nat) (receivers : Receivers) (thread : Delivery.Thread)
  | leaving (n : Nat)
  | removing (place : Nat) (receivers : Receivers) (thread : Delivery.Thread) (rest : List Nat)
  deriving DecidableEq, Repr

section Sections
variable (config : LobbyConfig) (env : LobbyEnv)

def runRoom (place : Nat) (receivers : Receivers) (thread : Delivery.Thread) : TablesM (Receivers × Delivery.Thread) := do
  let s ← get
  match s.entries[place]? with
  | none => throw (.standard (.logicError "no such room"))
  | some room =>
      let receivers := if looksUp thread then s.receivers room else receivers
      match thread.run config.hub env.hub (s.view place room receivers) with
      | .ok next t => do
          set (s.written place receivers env.hub.now t)
          return (receivers, next)
      | .error e t => do
          set (s.written place receivers env.hub.now t)
          throw e

def roomTask (place : Nat) (receivers : Receivers) (next : Delivery.Thread) : Task :=
  if next = Delivery.idle then .idle else .room place receivers next

def removal : List Nat → Task
  | [] => .idle
  | place :: rest => .removing place {} (.locking .disconnect) rest

/-! Handlers. -/

def handleCreateOffer (n : Nat) (message : CreateOfferMessage) : TablesM Task := do
  let s ← get
  let creator := s.idOf n
  throwIf (s.offers.length ≥ maxOpenOffers) (HubError.benignRejection "too many open offers")
  throwIf (s.offers.countP (fun offer => offer.creator = creator) ≥ maxOffersPerClient)
    (HubError.benignRejection "too many open offers from this client")
  let id ← rejected env.drawn
  rejected (validateRoomId id)
  set { s with offers := s.offers ++ [(⟨id, creator, message.terms, message.receiveAddressA⟩ : OpenOffer)] }
  return .answering n (.offerCreated ⟨id⟩)

def idBefore (a b : RoomId) : Bool := a.toList < b.toList

def offerPage (offers : List OpenOffer) (request : ListOffersMessage) : OfferListMessage :=
  let candidates := (offers.map fun offer => (⟨offer.id, offer.terms⟩ : OfferSummary)).mergeSort
    fun a b => !idBefore b.roomId a.roomId
  let left := if request.hasCursor then candidates.dropWhile fun offer => !idBefore request.afterRoomId offer.roomId
    else candidates
  let page := left.take request.limit.toNat
  if left.length > page.length then
    { offers := page, hasMore := true
      nextCursor := (page.getLast?.map OfferSummary.roomId).getD (Vector.replicate 32 0) }
  else { offers := page }

def handleListOffers (n : Nat) (request : ListOffersMessage) : TablesM Task := do
  let s ← get
  return .answering n (.offerList (offerPage s.offers request))

def handleGetCandles (n : Nat) (request : GetCandlesMessage) : TablesM Task := do
  let s ← get
  let pair := canonicalPair request.assetA request.assetB
  let tracked := s.priceHistory.find? fun old => old.key = pairKey pair
  return .answering n (.candleData ⟨pair.1, pair.2, (tracked.map TrackedPair.ticks).getD []⟩)

-- The room keeps the id the offer was listed under.
def handleJoinOffer (n : Nat) (message : JoinOfferMessage) : TablesM Task := do
  let s ← get
  match s.offer message.roomId with
  | none => throw (.benignRejection "offer does not exist or was already taken")
  | some offer => do
      throwIf (offer.creator = s.idOf n) (HubError.benignRejection "cannot join your own offer")
      throwIf (s.rooms.length ≥ maxRooms) (HubError.benignRejection "too many active rooms")
      let offers := s.offers.filter fun other => other.id ≠ message.roomId
      match s.client offer.creator with
      | none => do
          set { s with offers }
          throw (.benignRejection "offer creator disconnected")
      | some creator => do
          let room ← rejected (RoomEntry.fromOffer offer (s.idOf n) message.receiveAddressB s.fee
            config.requireFeeConfirmation config.feePosition)
          let place := s.entries.length
          set { s with offers, entries := s.entries ++ [room], rooms := s.rooms ++ [place] }
          return .room place ⟨some creator, some n⟩ .persisting

def handleCancelOffer (n : Nat) (message : CancelOfferMessage) : TablesM Task := do
  let s ← get
  match s.offer message.roomId with
  | none => throw (.benignRejection "open offer does not exist")
  | some offer => do
      throwIf (offer.creator ≠ s.idOf n) (HubError.benignRejection "offer belongs to another client")
      set { s with offers := s.offers.filter fun other => other.id ≠ message.roomId }
      return .answering n (.offerCancelled ⟨message.roomId⟩)

def noRoomReason : String :=
  "no room on file for this id (never existed, already finished and pruned, or persistence was disabled)"

/- Any client is answered that knows the id of a room. -/
def handleRecoveryStateRequest (n : Nat) (message : RecoveryStateRequestMessage) : TablesM Task := do
  let s ← get
  match s.room message.roomId with
  | none => return .answering n (.recoveryStateResponse { roomId := message.roomId, reason := ascii noRoomReason })
  | some place => return .recovering n place .state { roomId := message.roomId, found := true }

def recover (n place : Nat) (response : RecoveryStateResponseMessage) (stage : RecoveryStage) : TablesM Task := do
  let s ← get
  match s.entries[place]? with
  | none => throw (.standard (.logicError "no such room"))
  | some room =>
      match stage with
      | .state => return .recovering n place .fee { response with
          terms := room.session.creator.terms, state := room.session.state.toByte
          roundIndex := room.session.roundIndex, legIndex := room.session.legIndex
          reason := if room.session.state = .aborted then room.session.abortReason else response.reason }
      | .fee => return .recovering n place .partyA { response with fee := room.session.fee }
      | .partyA => return .recovering n place .partyB { response with partyAConnected := (s.client room.partyA).isSome }
      | .partyB => return .answering n (.recoveryStateResponse
          { response with partyBConnected := (s.client room.partyB).isSome })

-- A room that is not there is missed after the keys were parsed.
def missing : Delivery.Request → Except HubError Task
  | .call (.confirmFee _) => return .idle
  | .call (.tradeEphemeralKey _ message) => do
      let _ ← Hub.parsePublicKey message.ephemeralPublicKey "malformed ephemeral trade public key"
      let _ ← Hub.parsePublicKey message.ephemeralPublicKeyMldsa65 "malformed ephemeral trade public key (ML-DSA-65)"
      throw (.standard (.invalidArgument "room does not exist"))
  | _ => throw (.standard (.invalidArgument "room does not exist"))

def roomOf : Delivery.Request → Option RoomId
  | .call (.sent _ message) | .call (.received _ message) => some message.roomId
  | .call (.tradeEphemeralKey _ message) => some message.roomId
  | .call (.receiptAck _ message) => some message.roomId
  | .call (.abort _ message) => some message.roomId
  | .call (.confirmFee roomId) => some roomId
  | .call (.disconnect _) => none
  | .relay _ message => some message.roomId

def handleRoom (request : Delivery.Request) : TablesM Task := do
  let s ← get
  match (roomOf request).bind s.room with
  | none => missing request
  | some place => do
      let (receivers, next) ← runRoom config env place {} request.thread
      return roomTask place receivers next

def serve (n : Nat) : Request → TablesM Task
  | .createOffer message => handleCreateOffer env n message
  | .listOffers message => handleListOffers n message
  | .joinOffer message => handleJoinOffer config n message
  | .cancelOffer message => handleCancelOffer n message
  | .recoveryState message => handleRecoveryStateRequest n message
  | .getCandles message => handleGetCandles n message
  | .room request => handleRoom config env request
  | .unreadable e => throw (.standard e)

-- The third bad message ends the connection, once its error is on the queue.
def answer (n : Nat) (frame : Outgoing) : TablesM Task := do
  rejected frame.encodes
  modify fun s => s.change n fun client =>
    { client with outgoing := if client.alive then client.outgoing ++ [frame] else client.outgoing
                  alive := client.alive && client.badMessages < 3 }
  return .idle

-- A room that waits for the operator alone is left as it is.
def abandons (id : ClientId) (room : RoomEntry) : Bool :=
  (room.partyA = id || room.partyB = id) && !(room.active && room.session.state = .waitingForFeeConfirmation)

def removeClient (n : Nat) : TablesM Task := do
  let s ← get
  let id := s.idOf n
  let affected := s.rooms.filter fun place => s.entries[place]?.any (abandons id)
  set { s with clients := s.clients.filter fun m => s.idOf m ≠ id
               offers := s.offers.filter fun offer => offer.creator ≠ id
               rooms := s.rooms.filter fun place => place ∉ affected }
  return removal affected

def Task.run : Task → TablesM Task
  | .idle => return .idle
  | .serving n request => serve config env n request
  | .answering n frame => answer n frame
  | .recovering n place stage response => recover n place response stage
  | .room place receivers thread => do
      let (receivers, next) ← runRoom config env place receivers thread
      return roomTask place receivers next
  | .leaving n => removeClient n
  | .removing place receivers thread rest => do
      let (receivers, next) ← runRoom config env place receivers thread
      return if next = Delivery.idle then removal rest else .removing place receivers next rest

end Sections

/-! Runs. -/

inductive Worker where
  | client (n : Nat)
  | operator (n : Nat)
  deriving DecidableEq, Repr

structure State where
  tables : Tables
  tasks : Worker → Task

inductive Event where
  | connects (id : ClientId)
  | receives (n : Nat) (request : Request)
  | leaves (n : Nat)
  | confirmsFee (operator : Nat) (roomId : RoomId)
  | setsFee (fee : FeeTerms)
  | acts (worker : Worker) (env : LobbyEnv)
  | hangsUp (n : Nat)

-- What a handler throws its client is told, and all but a benign rejection counts against it.
def caught (n : Nat) (e : HubError) (s : Tables) : Tables :=
  match e with
  | .benignRejection _ => s
  | .standard _ => s.change n fun client => { client with badMessages := client.badMessages + 1 }

def refusal (n : Nat) (e : HubError) : Task := .answering n (.error ⟨Hub.safeReason (ascii e.text)⟩)

def Tables.drawable (s : Tables) : Except Error RoomId → Bool
  | .ok id => !s.taken id
  | .error _ => true

-- Nothing catches what a removal throws: the process ends, and so does the run.
def Task.leaves : Task → Bool
  | .leaving _ | .removing .. => true
  | _ => false

def State.put (s : State) (tables : Tables) (worker : Worker) (task : Task) : State :=
  { tables, tasks := Function.update s.tasks worker task }

def State.thrown (s : State) (tables : Tables) (worker : Worker) (e : HubError) : Option State :=
  match worker with
  | .client n => if (s.tasks worker).leaves then none else some (s.put (caught n e tables) worker (refusal n e))
  | .operator _ => some (s.put tables worker .idle)

def fire (config : LobbyConfig) (s : State) : Event → Option State
  | .connects id =>
      if s.tables.clients.length < maxClients ∧ s.tables.client id = none then
        some { s with tables := { s.tables with
          accepted := s.tables.accepted ++ [{ id, outgoing := [.welcome ⟨id, s.tables.fee⟩] }]
          clients := s.tables.clients ++ [s.tables.accepted.length] } }
      else none
  | .receives n request =>
      if n ∈ s.tables.clients ∧ s.tasks (.client n) = .idle ∧ s.tables.accepted[n]?.any (fun client => client.badMessages < 3) ∧
          request.mayComeFrom (s.tables.idOf n) then
        some (s.put s.tables (.client n) (.serving n request))
      else none
  | .leaves n =>
      if n ∈ s.tables.clients ∧ s.tasks (.client n) = .idle then
        some (s.put (s.tables.change n fun client => { client with alive := false }) (.client n) (.leaving n))
      else none
  | .confirmsFee operator roomId =>
      if s.tasks (.operator operator) = .idle then
        some (s.put s.tables (.operator operator) (.serving 0 (.room (.call (.confirmFee roomId)))))
      else none
  | .setsFee fee => some { s with tables := { s.tables with fee } }
  | .acts worker env =>
      if s.tables.drawable env.drawn then
        match (s.tasks worker).run config env s.tables with
        | .ok task tables => some (s.put tables worker task)
        | .error e tables => s.thrown tables worker e
      else none
  | .hangsUp n => some { s with tables := s.tables.change n fun client => { client with alive := false } }

/- A run, with the steps that were taken. -/
structure Fired where
  source : State
  event : Event
  target : State

inductive Run (config : LobbyConfig) (s : State) : List Fired → State → Prop where
  | start : Run config s [] s
  | step {steps : List Fired} {t u : State} {event : Event} (before : Run config s steps t)
      (fired : fire config t event = some u) : Run config s (steps ++ [⟨t, event, u⟩]) u

def play (config : LobbyConfig) (steps : List Fired) (s : State) : List Event → Option (List Fired × State)
  | [] => some (steps, s)
  | event :: later => (fire config s event).bind fun t => play config (steps ++ [⟨s, event, t⟩]) t later

theorem playRun {config : LobbyConfig} {start s t : State} {steps all : List Fired} {events : List Event}
    (before : Run config start steps s) (played : play config steps s events = some (all, t)) : Run config start all t := by
  induction events generalizing steps s with
  | nil =>
      cases played
      exact before
  | cons event later ih =>
      obtain ⟨u, fired, rest⟩ := Option.bind_eq_some_iff.mp played
      exact ih (before.step fired) rest

/- Nobody is connected yet, and no room is there. -/
def opened (fee : FeeTerms) : State where
  tables := { fee }
  tasks _ := .idle

end Lobby
end TradeP2P
