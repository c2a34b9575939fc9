import TradeP2P.Hub.Overtaking
import TradeP2P.Hub.Tables

/-! What the tables of the hub keep to, whatever the threads do in between: an id is that of an offer or of a
room, neither table is fuller than it may be, an offer's client is there, and an offer is taken once. -/
namespace TradeP2P
open Checks Machine

namespace Delivery

/-! What the handlers of a room do to it: they change its entry, put effects down and take it off the table. A relation
that stands each of the three stands every step of theirs. -/

structure Moves (R : Room → Room → Prop) : Prop where
  entry : ∀ change : RoomEntry → RoomEntry, (∀ room, (change room).id = room.id ∧ (change room).partyA = room.partyA ∧
    (change room).partyB = room.partyB) → ∀ s : Room, R s { s with entry := change s.entry }
  emit : ∀ effect, (∀ terms, effect ≠ .recordedTrade terms) → ∀ s : Room, R s { s with effects := s.effects ++ [effect] }
  unlist : ∀ s : Room, R s { s with listed := false }

namespace Moves
variable {α β : Type} {R : Room → Room → Prop} [Std.Refl R] [Trans R R R] {hub : HubConfig} {env : HubEnv}
open Hub

omit [Std.Refl R] [Trans R R R] in
theorem onEntry (moves : Moves R) {change : RoomEntry → RoomEntry} (id : ∀ room, (change room).id = room.id)
    (partyA : ∀ room, (change room).partyA = room.partyA) (partyB : ∀ room, (change room).partyB = room.partyB) :
    Along R (Hub.onEntry change) :=
  alongModify fun s => moves.entry change (fun room => ⟨id room, partyA room, partyB room⟩) s

omit [Std.Refl R] [Trans R R R] in
theorem session (moves : Moves R) (method : MediatorSession.Method) : Along R (onSession method) := by
  intro room
  unfold Ensures onSession
  cases method room.entry.session with
  | ok a session => exact moves.entry (fun entry => { entry with session }) (fun _ => ⟨rfl, rfl, rfl⟩) room
  | error e session => exact moves.entry (fun entry => { entry with session }) (fun _ => ⟨rfl, rfl, rfl⟩) room

omit [Std.Refl R] [Trans R R R] in
theorem emits (moves : Moves R) {effect : Effect} (other : ∀ terms, effect ≠ .recordedTrade terms) : Along R (Hub.emit effect) :=
  alongModify fun s => moves.emit effect other s

omit [Std.Refl R] in
theorem erase (moves : Moves R) : Along R eraseRoom :=
  .bind (alongModify fun s => moves.unlist s) fun _ => moves.emits fun _ => by simp

theorem upsert (moves : Moves R) : Along R (persistRoomUpsert hub env) := by
  unfold persistRoomUpsert
  refine alongIf (.bind alongGet fun room => .bind (moves.emits fun _ => by simp) fun _ => ?_) (alongPure _)
  cases env.persistFault with
  | some e => exact alongThrow _
  | none => exact alongPure _

theorem remove (moves : Moves R) : Along R (persistRoomRemove hub env) := by
  unfold persistRoomRemove
  refine alongIf (.bind (moves.emits fun _ => by simp) fun _ => ?_) (alongPure _)
  cases env.removeFault with
  | some e => exact alongThrow _
  | none => exact alongPure _

theorem turn : Along R currentTurn := .bind alongGet fun _ => alongLift _

theorem active : Along R requireActive := .bind alongGet fun _ => alongLift _

theorem found (clientId : ClientId) (roomId : RoomId) : Along R (findRoomFor clientId roomId) :=
  .bind alongGet fun _ => .bind (alongLift _) fun _ => alongLift _

theorem issue (moves : Moves R) (stage : ReceiptStage) (completed : Bool) : Along R (issueReceipt hub env stage completed) := by
  refine .bind alongGet fun _ => .bind (alongLift _) fun _ => ?_
  dsimp only
  exact alongIf (.bind (moves.onEntry (fun _ => rfl) (fun _ => rfl) fun _ => rfl) fun _ => .bind (moves.emits fun _ => by simp) fun _ =>
      alongPure _)
    (.bind (moves.emits fun _ => by simp) fun _ => alongPure _)

theorem settle (moves : Moves R) : Along R (Hub.settle hub env) :=
  .bind (moves.onEntry (fun _ => rfl) (fun _ => rfl) fun _ => rfl) fun _ => moves.issue _ _

theorem deactivate (moves : Moves R) (reason : Wire.Bytes) : Along R (Hub.deactivate reason) :=
  .bind (moves.onEntry (fun _ => rfl) (fun _ => rfl) fun _ => rfl) fun _ => .bind alongGet fun _ =>
    alongIf (moves.session _) (alongPure _)

theorem sent (moves : Moves R) (party : Party) (message : RoundSignalMessage) :
    Along R (Delivery.handleSent hub env party message) := by
  refine .bind active fun _ => .bind (moves.session _) fun _ => .bind alongGet fun room => ?_
  split
  · exact .bind moves.settle fun _ => alongPure _
  · exact .bind (moves.onEntry (fun _ => rfl) (fun _ => rfl) fun _ => rfl) fun _ => .bind moves.upsert fun _ => alongPure _
  · exact .bind turn fun _ => .bind moves.upsert fun _ => alongPure _
  · exact .bind moves.upsert fun _ => alongIf (alongPure _) (alongPure _)

theorem received (moves : Moves R) (party : Party) (message : RoundSignalMessage) :
    Along R (Delivery.handleReceived hub env party message) := by
  refine .bind active fun _ => .bind (moves.session _) fun _ => .bind alongGet fun room => ?_
  dsimp only
  generalize (if env.connected (otherParty party) then [Errand.tell (otherParty party) (.told (.received message))]
    else []) = relay
  split
  · exact .bind moves.settle fun _ => alongPure _
  · exact .bind moves.upsert fun _ => alongPure _
  · exact .bind turn fun _ => .bind moves.upsert fun _ => alongPure _

theorem receiptAck (moves : Moves R) (party : Party) (message : ReceiptAckMessage) :
    Along R (Delivery.handleReceiptAck hub env party message) :=
  .bind active fun _ => .bind alongGet fun _ => .bind (alongLift _) fun _ => .bind (alongLift _) fun _ =>
    .bind (alongLift _) fun _ => .bind (moves.session _) fun _ => .bind alongGet fun _ =>
      alongIf (.bind (moves.issue _ _) fun _ => .bind turn fun _ => .bind moves.upsert fun _ => alongPure _)
        (.bind moves.upsert fun _ => alongPure _)

theorem locked (moves : Moves R) (locked : Locked) : Along R (locked.run hub env) := by
  cases locked with
  | sent party message => exact moves.sent party message
  | received party message => exact moves.received party message
  | tradeEphemeralKey clientId party message =>
      refine .bind (moves.onEntry ?_ ?_ ?_) fun _ => alongPure _ <;> intro room <;> cases party <;> rfl
  | receiptAck party message => exact moves.receiptAck party message
  | abort reason => exact .bind alongGet fun _ => alongIf (.bind (moves.deactivate _) fun _ => alongPure _) (alongPure _)
  | confirmFee =>
      exact .bind alongGet fun _ => alongIf (.bind (moves.session _) fun _ => .bind moves.settle fun _ => alongPure _) (alongPure _)
  | disconnect => exact .bind alongGet fun _ => alongIf (.bind (moves.deactivate _) fun _ => alongPure _) (alongPure _)

end Moves

def OnRooms (R : Room → Room → Prop) (s t : Shared) : Prop := R s.room t.room

instance onRoomsRefl {R : Room → Room → Prop} [Std.Refl R] : Std.Refl (OnRooms R) where
  refl s := Std.Refl.refl s.room

instance onRoomsTrans {R : Room → Room → Prop} [Trans R R R] : Trans (OnRooms R) (OnRooms R) (OnRooms R) where
  trans before after := Trans.trans (r := R) before after

theorem alongRoom {α : Type} {R : Room → Room → Prop} {x : HubM α} (moves : Along R x) : Along (OnRooms R) (onRoom x) := by
  intro s
  rw [ensuresOnRoom]
  exact moves s.room

namespace Moves
variable {R : Room → Room → Prop} [Std.Refl R] [Trans R R R]

omit [Trans R R R] in
theorem enqueue (party : Party) (frame : RoomFrame) : Along (OnRooms R) (Delivery.enqueue party frame) :=
  alongModify fun s => by split <;> exact Std.Refl.refl s.room

theorem errand (moves : Moves R) (hub : HubConfig) (env : HubEnv) (errand : Errand)
    (trades : errand = .recordTrade → ∀ terms, Along R (Hub.emit (.recordedTrade terms))) :
    Along (OnRooms R) (errand.run hub env) := by
  cases errand with
  | recordTrade => exact .bind (alongRoom (.bind alongGet fun _ => trades rfl _)) fun _ => alongPure _
  | unpersist => exact .bind (alongRoom moves.remove) fun _ => alongPure _
  | erase => exact .bind (alongRoom moves.erase) fun _ => alongPure _
  | lookUp frame => exact .bind (alongLift _) fun _ => .bind alongGet fun _ => alongPure _
  | tell party frame => exact .bind (alongLift _) fun _ => .bind (enqueue _ _) fun _ => alongPure _
  | put party frame => exact .bind (enqueue _ _) fun _ => alongPure _

theorem start (moves : Moves R) (call : Hub.Call) : Along (OnRooms R) (Delivery.start call) := by
  cases call with
  | tradeEphemeralKey clientId message =>
      exact .bind (alongLift _) fun _ => .bind (alongLift _) fun _ => .bind (alongRoom (found _ _)) fun _ => alongPure _
  | confirmFee roomId => exact .bind alongGet fun _ => alongPure _
  | disconnect clientId =>
      exact .bind (alongModify fun s => Std.Refl.refl s.room) fun _ => .bind alongGet fun _ =>
        alongIf (.bind (alongRoom moves.erase) fun _ => alongPure _) (alongPure _)
  | _ => exact .bind (alongRoom (found _ _)) fun _ => alongPure _

theorem thread (moves : Moves R) (hub : HubConfig) (env : HubEnv) (thread : Thread)
    (trades : ∀ rest, thread = .telling (.recordTrade :: rest) → ∀ terms, Along R (Hub.emit (.recordedTrade terms))) :
    Along (OnRooms R) (thread.run hub env) := by
  cases thread with
  | starting call => exact moves.start call
  | relaying clientId message => exact .bind (alongRoom (found _ _)) fun _ => alongPure _
  | handingOn party message => exact .bind alongGet fun _ => .bind (alongLift _) fun _ => alongPure _
  | locking locked => exact .bind alongGet fun _ => alongRoom (moves.locked locked)
  | telling errands =>
      cases errands with
      | nil => exact alongPure _
      | cons errand rest =>
          exact .bind (moves.errand hub env errand fun is => trades rest (by rw [is])) fun _ => alongPure _
  | persisting => exact .bind (alongRoom moves.upsert) fun _ => alongPure _
  | announcing => exact .bind alongGet fun _ => .bind (alongLift _) fun _ => .bind (alongLift _) fun _ => alongPure _
  | announced waiting =>
      cases waiting with
      | nil => exact .bind (alongRoom turn) fun _ => alongPure _
      | cons now later => exact .bind (alongLift _) fun _ => .bind (enqueue _ _) fun _ => alongPure _

end Moves

/-! A step of a room's handler leaves the room what it is. -/

structure SameRoom (s t : Room) : Prop where
  id : t.entry.id = s.entry.id
  partyA : t.entry.partyA = s.entry.partyA
  partyB : t.entry.partyB = s.entry.partyB
  listed : t.listed = true → s.listed = true

instance sameRoomRefl : Std.Refl SameRoom where
  refl _ := ⟨rfl, rfl, rfl, id⟩

instance sameRoomTrans : Trans SameRoom SameRoom SameRoom where
  trans before after := ⟨after.id.trans before.id, after.partyA.trans before.partyA, after.partyB.trans before.partyB,
    fun there => before.listed (after.listed there)⟩

theorem sameMoves : Moves SameRoom where
  entry _ same s := ⟨(same s.entry).1, (same s.entry).2.1, (same s.entry).2.2, fun there => there⟩
  emit _ _ _ := ⟨rfl, rfl, rfl, fun there => there⟩
  unlist _ := ⟨rfl, rfl, rfl, fun there => by contradiction⟩

def SameShared : Shared → Shared → Prop := OnRooms SameRoom

theorem sameThread (hub : HubConfig) (env : HubEnv) (thread : Thread) : Along SameShared (thread.run hub env) :=
  sameMoves.thread hub env thread fun _ _ _ => alongModify fun _ => ⟨rfl, rfl, rfl, fun there => there⟩

end Delivery

namespace Lobby
open Delivery (sameThread)

/-! What a step leaves of the tables of clients and offers, and of the rooms' ids and parties. -/

structure Identity where
  id : RoomId
  partyA : ClientId
  partyB : ClientId
  deriving DecidableEq

def identity (room : RoomEntry) : Identity := ⟨room.id, room.partyA, room.partyB⟩

structure Touched (s t : Tables) : Prop where
  ids : t.accepted.map Client.id = s.accepted.map Client.id
  clients : t.clients = s.clients
  offers : t.offers = s.offers
  rooms : t.rooms.Sublist s.rooms
  entries : t.entries.map identity = s.entries.map identity

instance touchedRefl : Std.Refl Touched where
  refl _ := ⟨rfl, rfl, rfl, .refl _, rfl⟩

instance touchedTrans : Trans Touched Touched Touched where
  trans before after := ⟨after.ids.trans before.ids, after.clients.trans before.clients, after.offers.trans before.offers,
    after.rooms.trans before.rooms, after.entries.trans before.entries⟩

section Tables
variable {s t u : Tables}

theorem touchedChange {n : Nat} {f : Client → Client} (same : ∀ client, (f client).id = client.id) : Touched s (s.change n f) where
  ids := by
    refine List.ext_getElem? fun m => ?_
    simp only [Tables.change, List.getElem?_map, List.getElem?_modify]
    cases s.accepted[m]? with
    | none => rfl
    | some client => by_cases here : n = m <;> simp [here, same]
  clients := rfl
  offers := rfl
  rooms := .refl _
  entries := rfl

theorem touchedDeliver (receiver : Option Nat) (frames : List RoomFrame) : Touched s (s.deliver receiver frames) := by
  cases receiver with
  | none => exact Std.Refl.refl s
  | some n => exact touchedChange fun _ => rfl

theorem touchedRecord (now : UInt64) (id : RoomId) (effects : List Effect) : Touched s (effects.foldl (Tables.record now id) s) := by
  induction effects generalizing s with
  | nil => exact Std.Refl.refl s
  | cons effect rest ih =>
      have first : Touched s (Tables.record now id s effect) := by cases effect <;> exact ⟨rfl, rfl, rfl, .refl _, rfl⟩
      exact Trans.trans first ih

variable {now : UInt64} {id : RoomId}

@[simp] theorem deliverPersisted (receiver : Option Nat) (frames : List RoomFrame) :
    (s.deliver receiver frames).persisted = s.persisted := by cases receiver <;> rfl

@[simp] theorem deliverEntries (receiver : Option Nat) (frames : List RoomFrame) :
    (s.deliver receiver frames).entries = s.entries := by cases receiver <;> rfl

@[simp] theorem deliverRooms (receiver : Option Nat) (frames : List RoomFrame) :
    (s.deliver receiver frames).rooms = s.rooms := by cases receiver <;> rfl

@[simp] theorem deliverOffers (receiver : Option Nat) (frames : List RoomFrame) :
    (s.deliver receiver frames).offers = s.offers := by cases receiver <;> rfl

-- The records apart, what a room has done changes only the price history.
theorem recordOthers (effects : List Effect) : (effects.foldl (Tables.record now id) s).entries = s.entries ∧
    (effects.foldl (Tables.record now id) s).rooms = s.rooms ∧ (effects.foldl (Tables.record now id) s).offers = s.offers := by
  induction effects generalizing s with
  | nil => exact ⟨rfl, rfl, rfl⟩
  | cons effect rest ih =>
      obtain ⟨entries, rooms, offers⟩ := @ih (Tables.record now id s effect)
      rw [List.foldl_cons, entries, rooms, offers]
      cases effect <;> exact ⟨rfl, rfl, rfl⟩

theorem writtenOffers (place : Nat) (receivers : Receivers) (after : Delivery.Shared) :
    (s.written place receivers now after).offers = s.offers := by
  simp [Tables.written, recordOthers]

theorem writtenEntries (place : Nat) (receivers : Receivers) (after : Delivery.Shared) :
    (s.written place receivers now after).entries = s.entries.set place after.room.entry := by
  simp [Tables.written, recordOthers]

theorem writtenRooms (place : Nat) (receivers : Receivers) (after : Delivery.Shared) :
    (s.written place receivers now after).rooms = if after.room.listed then s.rooms else s.rooms.filter (· ≠ place) := by
  simp [Tables.written, recordOthers]

theorem touchedWritten {place : Nat} {receivers : Receivers} {now : UInt64} {room : RoomEntry} {given : Receivers}
    {after : Delivery.Shared} (there : s.entries[place]? = some room)
    (same : Delivery.SameShared (s.view place room given) after) : Touched s (s.written place receivers now after) := by
  have kept : identity after.room.entry = identity room := by
    have id := same.id
    have partyA := same.partyA
    have partyB := same.partyB
    simp only [Tables.view] at id partyA partyB
    rw [identity, identity, id, partyA, partyB]
  have placed : Touched s { s with entries := s.entries.set place after.room.entry
                                   rooms := if after.room.listed then s.rooms else s.rooms.filter (· ≠ place) } := by
    refine ⟨rfl, rfl, rfl, ?_, ?_⟩
    · dsimp only
      split
      · exact .refl _
      · exact List.filter_sublist
    · dsimp only
      rw [List.map_set, kept, ← List.getElem?_eq_some_iff.mp there |>.choose_spec, ← List.map_set]
      exact congrArg _ (List.set_getElem_self _)
  exact Trans.trans placed (Trans.trans (touchedRecord now after.room.entry.id after.room.effects)
    (Trans.trans (touchedDeliver receivers.a _) (touchedDeliver receivers.b _)))

theorem touchedRoom (config : LobbyConfig) (env : LobbyEnv) (place : Nat) (receivers : Receivers) (thread : Delivery.Thread) :
    Along Touched (runRoom config env place receivers thread) := by
  intro s
  rw [runRoom, ensuresBind, ensuresGet]
  split
  · exact Std.Refl.refl s
  · rename_i room there
    dsimp only
    generalize (if looksUp thread then s.receivers room else receivers) = found
    have same := sameThread config.hub env.hub thread (s.view place room found)
    unfold Ensures at same
    split
    · rename_i next after ran
      rw [ran] at same
      exact touchedWritten there same
    · rename_i e after ran
      rw [ran] at same
      exact touchedWritten there same

theorem touchedCaught (n : Nat) (e : HubError) : Touched s (caught n e s) := by
  cases e with
  | benignRejection text => exact Std.Refl.refl s
  | standard e => exact touchedChange fun _ => rfl

end Tables

/-! What a step does with the offers. -/

inductive Deal where
  | created (id : RoomId)
  | taken (id : RoomId)
  deriving DecidableEq, Repr

-- Read off what became of the request that was served.
def dealt : Task → Task → Option Deal
  | .serving _ (.createOffer _), .answering _ (.offerCreated message) => some (.created message.roomId)
  | .serving _ (.joinOffer message), .room .. => some (.taken message.roomId)
  | .serving _ (.cancelOffer message), .answering _ (.offerCancelled _) => some (.taken message.roomId)
  | _, _ => none

-- The client that has to be there for a task to go on.
def Task.needs : Task → Option Nat
  | .serving n (.createOffer _) | .leaving n => some n
  | _ => none

inductive Deals (env : LobbyEnv) (task : Task) (s : Tables) : Tables → Option Deal → Prop where
  | touched {t : Tables} (same : Touched s t) : Deals env task s t none
  | created (n : Nat) (offer : OpenOffer) (needs : task.needs = some n) (creator : offer.creator = s.idOf n)
      (drawn : env.drawn = .ok offer.id) (room : s.offers.length < maxOpenOffers)
      (few : s.offers.countP (fun other => other.creator = offer.creator) < maxOffersPerClient) :
      Deals env task s { s with offers := s.offers ++ [offer] } (some (.created offer.id))
  | joined (id : RoomId) (offer : OpenOffer) (room : RoomEntry) (found : s.offer id = some offer) (named : room.id = id)
      (others : room.partyA ≠ room.partyB) (few : s.rooms.length < maxRooms) :
      Deals env task s { s with offers := s.offers.filter fun other => other.id ≠ id, entries := s.entries ++ [room]
                                rooms := s.rooms ++ [s.entries.length] } (some (.taken id))
  | cancelled (id : RoomId) (offer : OpenOffer) (found : s.offer id = some offer) :
      Deals env task s { s with offers := s.offers.filter fun other => other.id ≠ id } (some (.taken id))
  | dropped (id : RoomId) : Deals env task s { s with offers := s.offers.filter fun other => other.id ≠ id } none
  | removed (n : Nat) (affected : List Nat) (needs : task.needs = some n) :
      Deals env task s { s with clients := s.clients.filter fun m => s.idOf m ≠ s.idOf n
                                offers := s.offers.filter fun offer => offer.creator ≠ s.idOf n
                                rooms := s.rooms.filter fun place => place ∉ affected } none

section Handlers
variable {config : LobbyConfig} {env : LobbyEnv} {s : Tables}

theorem fromOfferSame {offer : OpenOffer} {client : ClientId} {address : Wire.Bytes} {fee : FeeTerms} {confirm : Bool}
    {position : FeePosition} {room : RoomEntry} (ok : RoomEntry.fromOffer offer client address fee confirm position = .ok room) :
    identity room = ⟨offer.id, offer.creator, client⟩ := by
  simp only [RoomEntry.fromOffer, bind_ok] at ok
  obtain ⟨session, _, ok⟩ := ok
  split at ok
  · cases ok
    rfl
  · contradiction

def Served (env : LobbyEnv) (task : Task) (s : Tables) (x : TablesM Task) : Prop :=
  Ensures x s (fun next t => Deals env task s t (dealt task next) ∧ next.needs = none) (fun _ t => Deals env task s t none)

theorem createServed (n : Nat) (message : CreateOfferMessage) :
    Served env (.serving n (.createOffer message)) s (handleCreateOffer env n message) := by
  have stays : Deals env (.serving n (.createOffer message)) s s none := .touched (Std.Refl.refl s)
  simp only [Served, handleCreateOffer, ensuresBind, ensuresGet, ensuresLift, throwIf_ok, rejectedOk, ensuresSet, ensuresPure, not_le]
  refine ⟨fun _ room => ⟨fun _ few => ⟨fun id drawn => ⟨fun _ _ => ?_, fun _ _ => stays⟩, fun _ _ => stays⟩, fun _ _ => stays⟩,
    fun _ _ => stays⟩
  exact ⟨.created n ⟨id, s.idOf n, message.terms, message.receiveAddressA⟩ rfl rfl drawn room few, rfl⟩

theorem joinServed (n : Nat) (message : JoinOfferMessage) :
    Served env (.serving n (.joinOffer message)) s (handleJoinOffer config n message) := by
  have stays : Deals env (.serving n (.joinOffer message)) s s none := .touched (Std.Refl.refl s)
  simp only [Served, handleJoinOffer, ensuresBind, ensuresGet]
  split
  · exact stays
  · rename_i offer found
    simp only [ensuresBind, ensuresLift, throwIf_ok, not_le]
    refine ⟨fun _ others => ⟨fun _ few => ?_, fun _ _ => stays⟩, fun _ _ => stays⟩
    split
    · exact .dropped message.roomId
    · rename_i creator there
      simp only [ensuresBind, ensuresLift, ensuresSet, ensuresPure, rejectedOk]
      refine ⟨fun room opened => ?_, fun _ _ => stays⟩
      have same := fromOfferSame opened
      simp only [identity, Identity.mk.injEq] at same
      have id : offer.id = message.roomId := by simpa using List.find?_some found
      refine ⟨.joined message.roomId offer room found (same.1.trans id) ?_ few, rfl⟩
      rw [same.2.1, same.2.2]
      exact others

theorem cancelServed (n : Nat) (message : CancelOfferMessage) :
    Served env (.serving n (.cancelOffer message)) s (handleCancelOffer n message) := by
  have stays : Deals env (.serving n (.cancelOffer message)) s s none := .touched (Std.Refl.refl s)
  simp only [Served, handleCancelOffer, ensuresBind, ensuresGet]
  split
  · exact stays
  · rename_i offer found
    simp only [ensuresBind, ensuresLift, ensuresSet, ensuresPure]
    exact ⟨fun _ _ => ⟨.cancelled message.roomId offer found, rfl⟩, fun _ _ => stays⟩

theorem roomServed {task : Task} (place : Nat) (receivers : Receivers) (thread : Delivery.Thread)
    {k : Receivers × Delivery.Thread → TablesM Task} (rest : ∀ a, ∃ next, k a = pure next ∧ dealt task next = none ∧ next.needs = none) :
    Served env task s (runRoom config env place receivers thread >>= k) := by
  rw [Served, ensuresBind]
  refine (touchedRoom config env place receivers thread s).weaken (fun a t _ same => ?_) (fun _ t _ same => .touched same)
  obtain ⟨next, goesOn, noDeal, free⟩ := rest a
  rw [goesOn, ensuresPure, noDeal]
  exact ⟨.touched same, free⟩

-- A handler that only reads the tables.
theorem quietServed {task : Task} {x : TablesM Task} (reads : ∀ s, Ensures x s (fun next t => t = s ∧ dealt task next = none ∧
    next.needs = none) (fun _ t => t = s)) : Served env task s x := by
  refine (reads s).weaken (fun next t _ kept => ?_) (fun _ t _ same => ?_)
  · obtain ⟨rfl, noDeal, free⟩ := kept
    rw [noDeal]
    exact ⟨.touched (Std.Refl.refl _), free⟩
  · rw [same]
    exact .touched (Std.Refl.refl s)

theorem recoveryServed (n : Nat) (message : RecoveryStateRequestMessage) :
    Served env (.serving n (.recoveryState message)) s (handleRecoveryStateRequest n message) := by
  refine quietServed fun s => ?_
  simp only [handleRecoveryStateRequest, ensuresBind, ensuresGet]
  split <;> exact ⟨rfl, rfl, rfl⟩

theorem recoverServed (n place : Nat) (stage : RecoveryStage) (response : RecoveryStateResponseMessage) :
    Served env (.recovering n place stage response) s (recover n place response stage) := by
  refine quietServed fun s => ?_
  simp only [recover, ensuresBind, ensuresGet]
  split
  · exact rfl
  · cases stage <;> exact ⟨rfl, rfl, rfl⟩

theorem roomTaskNeeds (place : Nat) (receivers : Receivers) (next : Delivery.Thread) :
    (roomTask place receivers next).needs = none := by
  unfold roomTask
  split <;> rfl

theorem missingIdle {request : Delivery.Request} {next : Task} (ok : missing request = .ok next) : next = .idle := by
  unfold missing at ok
  split at ok
  · exact (Except.ok.inj ok).symm
  · simp only [bind_ok] at ok
    obtain ⟨_, _, _, _, ok⟩ := ok
    contradiction
  · contradiction

theorem requestServed (n : Nat) (request : Delivery.Request) :
    Served env (.serving n (.room request)) s (handleRoom config env request) := by
  simp only [Served, handleRoom, ensuresBind, ensuresGet]
  split
  · rw [ensuresLift]
    refine ⟨fun next ok => ?_, fun _ _ => .touched (Std.Refl.refl s)⟩
    rw [missingIdle ok]
    exact ⟨.touched (Std.Refl.refl s), rfl⟩
  · rename_i place _
    exact roomServed place {} request.thread fun a => ⟨_, rfl, rfl, roomTaskNeeds place a.1 a.2⟩

theorem answerServed (n : Nat) (frame : Outgoing) : Served env (.answering n frame) s (answer n frame) := by
  simp only [Served, answer, ensuresBind, ensuresLift, ensuresModify, ensuresPure]
  exact ⟨fun _ _ => ⟨.touched (touchedChange fun _ => rfl), rfl⟩, fun _ _ => .touched (Std.Refl.refl s)⟩

theorem removalNeeds (rooms : List Nat) : (removal rooms).needs = none := by cases rooms <;> rfl

theorem taskServed (config : LobbyConfig) (env : LobbyEnv) (task : Task) (s : Tables) :
    Served env task s (task.run config env) := by
  cases task with
  | idle => exact ⟨.touched (Std.Refl.refl s), rfl⟩
  | serving n request =>
      cases request with
      | createOffer message => exact createServed n message
      | listOffers message => exact quietServed fun _ => ⟨rfl, rfl, rfl⟩
      | joinOffer message => exact joinServed n message
      | cancelOffer message => exact cancelServed n message
      | recoveryState message => exact recoveryServed n message
      | getCandles message => exact quietServed fun _ => ⟨rfl, rfl, rfl⟩
      | room request => exact requestServed n request
      | unreadable e => exact .touched (Std.Refl.refl s)
  | answering n frame => exact answerServed n frame
  | recovering n place stage response => exact recoverServed n place stage response
  | room place receivers thread =>
      exact roomServed place receivers thread fun a => ⟨_, rfl, rfl, roomTaskNeeds place a.1 a.2⟩
  | leaving n => exact ⟨.removed n _ rfl, removalNeeds _⟩
  | removing place receivers thread rest =>
      refine roomServed place receivers thread fun a => ⟨_, rfl, rfl, ?_⟩
      split
      · exact removalNeeds rest
      · rfl

end Handlers

/-! The invariant. -/

structure Tidy (s : Tables) : Prop where
  apart : ∀ offer ∈ s.offers, s.room offer.id = none
  offersKeyed : (s.offers.map OpenOffer.id).Nodup
  roomsKeyed : s.rooms.Pairwise fun p q => ∀ room other, s.entries[p]? = some room → s.entries[q]? = some other → room.id ≠ other.id
  offersBound : s.offers.length ≤ maxOpenOffers
  roomsBound : s.rooms.length ≤ maxRooms
  ownBound : ∀ client, s.offers.countP (fun offer => offer.creator = client) ≤ maxOffersPerClient
  creators : ∀ offer ∈ s.offers, ∃ n ∈ s.clients, s.idOf n = offer.creator
  parties : ∀ place ∈ s.rooms, ∃ room, s.entries[place]? = some room ∧ room.partyA ≠ room.partyB
  clientsKeyed : (s.clients.map s.idOf).Nodup
  clientsThere : ∀ n ∈ s.clients, n < s.accepted.length

section Keeping
variable {env : LobbyEnv} {task : Task} {s t : Tables} {deal : Option Deal}

theorem idOfSame (ids : t.accepted.map Client.id = s.accepted.map Client.id) : t.idOf = s.idOf := by
  funext n
  have there : t.accepted[n]?.map Client.id = s.accepted[n]?.map Client.id := by
    rw [← List.getElem?_map, ← List.getElem?_map, ids]
  rw [Tables.idOf, Tables.idOf, there]

theorem entrySame (entries : t.entries.map identity = s.entries.map identity) {place : Nat} {after : RoomEntry}
    (there : t.entries[place]? = some after) : ∃ room, s.entries[place]? = some room ∧ identity room = identity after := by
  have same : s.entries[place]?.map identity = some (identity after) := by
    rw [← List.getElem?_map, ← entries, List.getElem?_map, there]
    rfl
  exact Option.map_eq_some_iff.mp same

theorem roomNone {id : RoomId} : s.room id = none ↔ ∀ place ∈ s.rooms, ∀ room, s.entries[place]? = some room → room.id ≠ id := by
  simp only [Tables.room, List.find?_eq_none]
  refine forall₂_congr fun place _ => ?_
  cases s.entries[place]? <;> simp

theorem Tidy.touched (tidy : Tidy s) (same : Touched s t) : Tidy t where
  apart := by
    intro offer mem
    rw [same.offers] at mem
    rw [roomNone]
    intro place inside after there named
    obtain ⟨room, before, alike⟩ := entrySame same.entries there
    have id : room.id = after.id := congrArg Identity.id alike
    exact roomNone.mp (tidy.apart offer mem) place (same.rooms.subset inside) room before (id.trans named)
  offersKeyed := by
    rw [same.offers]
    exact tidy.offersKeyed
  roomsKeyed := by
    refine (tidy.roomsKeyed.sublist same.rooms).imp ?_
    intro p q others after after' there there'
    obtain ⟨room, before, alike⟩ := entrySame same.entries there
    obtain ⟨room', before', alike'⟩ := entrySame same.entries there'
    have id : room.id = after.id := congrArg Identity.id alike
    have id' : room'.id = after'.id := congrArg Identity.id alike'
    rw [← id, ← id']
    exact others room room' before before'
  offersBound := by
    rw [same.offers]
    exact tidy.offersBound
  roomsBound := same.rooms.length_le.trans tidy.roomsBound
  ownBound := by
    rw [same.offers]
    exact tidy.ownBound
  creators := by
    rw [same.offers, same.clients, idOfSame same.ids]
    exact tidy.creators
  parties := by
    intro place inside
    obtain ⟨room, before, others⟩ := tidy.parties place (same.rooms.subset inside)
    obtain ⟨after, there, alike⟩ := entrySame same.entries.symm before
    have partyA : after.partyA = room.partyA := congrArg Identity.partyA alike
    have partyB : after.partyB = room.partyB := congrArg Identity.partyB alike
    exact ⟨after, there, by rwa [partyA, partyB]⟩
  clientsKeyed := by
    rw [same.clients, idOfSame same.ids]
    exact tidy.clientsKeyed
  clientsThere := by
    have size : t.accepted.length = s.accepted.length := by simpa using congrArg List.length same.ids
    rw [same.clients, size]
    exact tidy.clientsThere

theorem Tidy.fewerOffers (tidy : Tidy s) {offers : List OpenOffer} (fewer : offers.Sublist s.offers) :
    Tidy { s with offers } where
  apart offer mem := tidy.apart offer (fewer.subset mem)
  offersKeyed := tidy.offersKeyed.sublist (fewer.map _)
  roomsKeyed := tidy.roomsKeyed
  offersBound := fewer.length_le.trans tidy.offersBound
  roomsBound := tidy.roomsBound
  ownBound client := (fewer.countP_le).trans (tidy.ownBound client)
  creators offer mem := tidy.creators offer (fewer.subset mem)
  parties := tidy.parties
  clientsKeyed := tidy.clientsKeyed
  clientsThere := tidy.clientsThere

theorem Tidy.created (tidy : Tidy s) {offer : OpenOffer} {n : Nat} (there : n ∈ s.clients) (creator : offer.creator = s.idOf n)
    (free : s.taken offer.id = false) (room : s.offers.length < maxOpenOffers)
    (few : s.offers.countP (fun other => other.creator = offer.creator) < maxOffersPerClient) :
    Tidy { s with offers := s.offers ++ [offer] } := by
  simp only [Tables.taken, Bool.or_eq_false_iff, Option.isSome_eq_false_iff, Option.isNone_iff_eq_none] at free
  refine { tidy with apart := ?_, offersKeyed := ?_, offersBound := ?_, ownBound := ?_, creators := ?_ }
  · intro other mem
    rcases List.mem_append.mp mem with old | new
    · exact tidy.apart other old
    · rw [List.mem_singleton.mp new]
      exact free.2
  · rw [List.map_append, List.nodup_append]
    refine ⟨tidy.offersKeyed, by simp, ?_⟩
    intro id mem id' new same
    obtain ⟨other, inside, rfl⟩ := List.mem_map.mp mem
    rw [List.map_singleton, List.mem_singleton] at new
    have absent := List.find?_eq_none.mp free.1 other inside
    simp [same, new] at absent
  · simp only [List.length_append, List.length_singleton]
    omega
  · intro client
    rw [List.countP_append, List.countP_singleton]
    have own := tidy.ownBound client
    split
    · rename_i same
      rw [decide_eq_true_eq] at same
      rw [same] at few
      omega
    · omega
  · intro other mem
    rcases List.mem_append.mp mem with old | new
    · exact tidy.creators other old
    · rw [List.mem_singleton.mp new]
      exact ⟨n, there, creator.symm⟩

theorem Tidy.placeOld (tidy : Tidy s) {place : Nat} (inside : place ∈ s.rooms) (room : RoomEntry) :
    (s.entries ++ [room])[place]? = s.entries[place]? := by
  obtain ⟨old, there, _⟩ := tidy.parties place inside
  exact List.getElem?_append_left (List.getElem?_eq_some_iff.mp there).1

theorem Tidy.joined (tidy : Tidy s) {id : RoomId} {room : RoomEntry} (listed : ∃ offer ∈ s.offers, offer.id = id)
    (named : room.id = id) (others : room.partyA ≠ room.partyB) (few : s.rooms.length < maxRooms) :
    Tidy { s with offers := s.offers.filter fun other => other.id ≠ id, entries := s.entries ++ [room]
                  rooms := s.rooms ++ [s.entries.length] } := by
  have fewer := tidy.fewerOffers (List.filter_sublist (p := fun other => other.id ≠ id))
  have last : (s.entries ++ [room])[s.entries.length]? = some room := by simp
  refine { fewer with apart := ?_, roomsKeyed := ?_, roomsBound := ?_, parties := ?_ }
  · intro offer mem
    obtain ⟨inside, other⟩ := List.mem_filter.mp mem
    rw [roomNone]
    intro place there entry found
    rcases List.mem_append.mp there with old | new
    · rw [tidy.placeOld old] at found
      exact roomNone.mp (tidy.apart offer inside) place old entry found
    · rw [List.mem_singleton.mp new, last] at found
      obtain rfl := Option.some.inj found
      rw [named]
      exact Ne.symm (by simpa using other)
  · rw [List.pairwise_append]
    refine ⟨?_, List.pairwise_singleton _ _, ?_⟩
    · refine tidy.roomsKeyed.imp_of_mem ?_
      intro p q here here' apart entry entry' found found'
      rw [tidy.placeOld here] at found
      rw [tidy.placeOld here'] at found'
      exact apart entry entry' found found'
    · intro p old q new entry entry' found found'
      rw [tidy.placeOld old] at found
      rw [List.mem_singleton.mp new, last] at found'
      obtain rfl := Option.some.inj found'
      obtain ⟨offer, inside, rfl⟩ := listed
      rw [named]
      exact roomNone.mp (tidy.apart offer inside) p old entry found
  · simp only [List.length_append, List.length_singleton]
    omega
  · intro place there
    rcases List.mem_append.mp there with old | new
    · rw [tidy.placeOld old]
      exact tidy.parties place old
    · rw [List.mem_singleton.mp new]
      exact ⟨room, last, others⟩

theorem Tidy.removed (tidy : Tidy s) (id : ClientId) (affected : List Nat) :
    Tidy { s with clients := s.clients.filter fun m => s.idOf m ≠ id
                  offers := s.offers.filter fun offer => offer.creator ≠ id
                  rooms := s.rooms.filter fun place => place ∉ affected } := by
  have fewer := tidy.fewerOffers (List.filter_sublist (p := fun offer => offer.creator ≠ id))
  have rooms : (s.rooms.filter fun place => place ∉ affected).Sublist s.rooms := List.filter_sublist
  refine { fewer with apart := ?_, roomsKeyed := ?_, roomsBound := ?_, creators := ?_, parties := ?_, clientsKeyed := ?_
                      clientsThere := ?_ }
  · intro offer mem
    rw [roomNone]
    intro place there
    exact roomNone.mp (fewer.apart offer mem) place (rooms.subset there)
  · exact tidy.roomsKeyed.sublist rooms
  · exact rooms.length_le.trans tidy.roomsBound
  · intro offer mem
    obtain ⟨inside, stays⟩ := List.mem_filter.mp mem
    obtain ⟨n, there, own⟩ := tidy.creators offer inside
    refine ⟨n, List.mem_filter.mpr ⟨there, ?_⟩, own⟩
    rwa [own]
  · exact fun place there => tidy.parties place (rooms.subset there)
  · exact tidy.clientsKeyed.sublist (List.filter_sublist.map _)
  · exact fun n there => tidy.clientsThere n (List.mem_filter.mp there).1

theorem Tidy.deals (tidy : Tidy s) (free : s.drawable env.drawn = true)
    (needs : ∀ n, task.needs = some n → n ∈ s.clients) (deals : Deals env task s t deal) : Tidy t := by
  cases deals with
  | touched same => exact tidy.touched same
  | created n offer needed creator drawn room few =>
      rw [drawn] at free
      exact tidy.created (needs n needed) creator (by simpa [Tables.drawable] using free) room few
  | joined id offer room found named others few =>
      exact tidy.joined ⟨offer, List.mem_of_find?_eq_some found, by simpa using List.find?_some found⟩ named others few
  | cancelled id offer found => exact tidy.fewerOffers List.filter_sublist
  | dropped id => exact tidy.fewerOffers List.filter_sublist
  | removed n affected needed => exact tidy.removed (s.idOf n) affected

theorem idOfOld {clients : List Client} {n : Nat} (old : n < s.accepted.length) :
    ({ s with accepted := s.accepted ++ clients } : Tables).idOf n = s.idOf n := by
  rw [Tables.idOf, Tables.idOf, List.getElem?_append_left old]

theorem Tidy.connects (tidy : Tidy s) {client : Client} (fresh : s.client client.id = none) :
    Tidy { s with accepted := s.accepted ++ [client], clients := s.clients ++ [s.accepted.length] } := by
  have last : ({ s with accepted := s.accepted ++ [client] } : Tables).idOf s.accepted.length = client.id := by simp [Tables.idOf]
  have old : ∀ n ∈ s.clients, ({ s with accepted := s.accepted ++ [client] } : Tables).idOf n = s.idOf n :=
    fun n there => idOfOld (tidy.clientsThere n there)
  refine { tidy with creators := ?_, clientsKeyed := ?_, clientsThere := ?_ }
  · intro offer mem
    obtain ⟨n, there, own⟩ := tidy.creators offer mem
    exact ⟨n, List.mem_append_left _ there, (old n there).trans own⟩
  · show ((s.clients ++ [s.accepted.length]).map ({ s with accepted := s.accepted ++ [client] } : Tables).idOf).Nodup
    rw [List.map_append, List.map_congr_left old, List.nodup_append]
    refine ⟨tidy.clientsKeyed, by simp, ?_⟩
    intro id mem id' new same
    obtain ⟨n, there, rfl⟩ := List.mem_map.mp mem
    rw [List.map_singleton, List.mem_singleton, last] at new
    have absent := List.find?_eq_none.mp fresh n there
    simp [same, new] at absent
  · intro n there
    rw [List.length_append, List.length_singleton]
    rcases List.mem_append.mp there with before | new
    · exact Nat.lt_succ_of_lt (tidy.clientsThere n before)
    · rw [List.mem_singleton.mp new]
      exact Nat.lt_succ_self _

end Keeping
/-! Runs. -/

/- A hub begins with no rooms, or with those of its file. -/
def reload (config : LobbyConfig) (fee : FeeTerms) (file : List PersistedRoom) : Except Error State := do
  let rooms ← file.mapM fun record => RoomEntry.fromPersisted record config.requireFeeConfirmation config.feePosition
  return { tables := { fee, entries := rooms, rooms := List.range rooms.length
                       persisted := fun id => file.find? fun record => record.roomId = id }
           tasks := fun _ => .idle }

inductive Started (config : LobbyConfig) : State → Prop where
  | opened (fee : FeeTerms) : Started config (opened fee)
  | reloaded (fee : FeeTerms) (file : List PersistedRoom) (s : State) (read : reload config fee file = .ok s)
      (keyed : (file.map PersistedRoom.roomId).Nodup) (few : file.length ≤ maxRooms)
      (others : ∀ record ∈ file, record.partyA ≠ record.partyB) : Started config s

def Fired.deal (step : Fired) : Option Deal :=
  match step.event with
  | .acts worker _ => dealt (step.source.tasks worker) (step.target.tasks worker)
  | _ => none

def Deal.id : Deal → RoomId
  | .created id | .taken id => id

def lastDeal (steps : List Fired) (id : RoomId) : Option Deal :=
  ((steps.filterMap Fired.deal).filter fun deal => deal.id = id).getLast?

/- An offer is taken only after it was created, and nothing took it in between. -/
def TakenOnce (steps : List Fired) : Prop :=
  ∀ front step back, steps = front ++ step :: back → ∀ id, step.deal = some (.taken id) → lastDeal front id = some (.created id)

structure Settled (s : State) : Prop where
  tidy : Tidy s.tables
  needs : ∀ worker n, (s.tasks worker).needs = some n → worker = .client n ∧ n ∈ s.tables.clients

section Runs
variable {config : LobbyConfig} {env : LobbyEnv} {task : Task} {s t : Tables} {deal : Option Deal}

theorem offerSome {id : RoomId} : (s.offer id).isSome ↔ ∃ offer ∈ s.offers, offer.id = id := by
  simp [Tables.offer]

theorem Deals.kept (deals : Deals env task s t deal) {id : RoomId} (there : (t.offer id).isSome) :
    deal = some (.created id) ∨ (s.offer id).isSome ∧ ∀ d ∈ deal, d.id ≠ id := by
  rw [offerSome] at there
  obtain ⟨offer, mem, named⟩ := there
  have filtered : ∀ {other : RoomId}, offer ∈ (s.offers.filter fun other' => other'.id ≠ other) →
      (s.offer id).isSome ∧ other ≠ id := by
    intro other inside
    obtain ⟨old, apart⟩ := List.mem_filter.mp inside
    refine ⟨offerSome.mpr ⟨offer, old, named⟩, ?_⟩
    rw [← named]
    exact Ne.symm (by simpa using apart)
  cases deals with
  | touched same =>
      rw [same.offers] at mem
      exact .inr ⟨offerSome.mpr ⟨offer, mem, named⟩, by simp⟩
  | created n new needed creator drawn room few =>
      by_cases same : new.id = id
      · exact .inl (by rw [same])
      · rcases List.mem_append.mp mem with old | last
        · refine .inr ⟨offerSome.mpr ⟨offer, old, named⟩, ?_⟩
          intro d is
          obtain rfl := Option.some.inj is
          exact same
        · rw [List.mem_singleton.mp last] at named
          exact absurd named same
  | joined other taken room found _ others few =>
      obtain ⟨old, apart⟩ := filtered mem
      refine .inr ⟨old, fun d is => ?_⟩
      obtain rfl := Option.some.inj is
      exact apart
  | cancelled other taken found =>
      obtain ⟨old, apart⟩ := filtered mem
      refine .inr ⟨old, fun d is => ?_⟩
      obtain rfl := Option.some.inj is
      exact apart
  | dropped other => exact .inr ⟨(filtered mem).1, by simp⟩
  | removed n affected needed =>
      exact .inr ⟨offerSome.mpr ⟨offer, (List.mem_filter.mp mem).1, named⟩, by simp⟩

theorem Deals.taken (deals : Deals env task s t deal) {id : RoomId} (taken : deal = some (.taken id)) : (s.offer id).isSome := by
  cases deals with
  | joined other offer room found named others few =>
      cases taken
      simp [found]
  | cancelled other offer found =>
      cases taken
      simp [found]
  | _ => simp at taken

theorem Deals.clients (deals : Deals env task s t deal) {m : Nat} (there : m ∈ s.clients)
    (others : ∀ n, task.needs = some n → s.idOf m ≠ s.idOf n) : m ∈ t.clients := by
  cases deals with
  | touched same =>
      rw [same.clients]
      exact there
  | removed n affected needed => exact List.mem_filter.mpr ⟨there, by simpa using others n needed⟩
  | _ => exact there

end Runs

section Steps
variable {config : LobbyConfig} {s t : State} {steps : List Fired} {event : Event}

/- What one step comes to: it deals with an offer as its thread says, if it deals with one at all. -/
structure Stepped (s : State) (t : State) (deal : Option Deal) : Prop where
  settled : Settled t
  kept : ∀ id, (t.tables.offer id).isSome → deal = some (.created id) ∨ (s.tables.offer id).isSome ∧ ∀ d ∈ deal, d.id ≠ id
  taken : ∀ id, deal = some (.taken id) → (s.tables.offer id).isSome

/- A step that deals with no offer. -/
theorem steppedQuiet (offers : t.tables.offers = s.tables.offers) (settled : Settled t) : Stepped s t none where
  settled := settled
  kept id there := by
    rw [offerSome, offers, ← offerSome] at there
    exact .inr ⟨there, by simp⟩
  taken id taken := by contradiction

theorem Settled.put (settled : Settled s) {tables : Tables} {worker : Worker} {task : Task} (tidy : Tidy tables)
    (clients : ∀ other m, other ≠ worker → (s.tasks other).needs = some m → m ∈ tables.clients)
    (needs : ∀ n, task.needs = some n → worker = .client n ∧ n ∈ tables.clients) : Settled (s.put tables worker task) where
  tidy := tidy
  needs other m needed := by
    by_cases same : other = worker
    · rw [same] at needed ⊢
      simp only [State.put, Function.update_self] at needed
      exact needs m needed
    · simp only [State.put, Function.update_of_ne same] at needed
      exact ⟨(settled.needs other m needed).1, clients other m same needed⟩

theorem Settled.acted (settled : Settled s) {env : LobbyEnv} {worker : Worker} (task : Task) {tables : Tables} {deal : Option Deal}
    (free : s.tables.drawable env.drawn = true) (deals : Deals env (s.tasks worker) s.tables tables deal)
    (idle : task.needs = none) : Stepped s (s.put tables worker task) deal where
  settled := by
    refine settled.put (settled.tidy.deals free (fun n needed => (settled.needs worker n needed).2) deals) ?_ (by simp [idle])
    intro other m differs needed
    have there := (settled.needs other m needed).2
    refine deals.clients there fun n own same => differs ?_
    have acting := settled.needs worker n own
    have alike := List.inj_on_of_nodup_map settled.tidy.clientsKeyed there acting.2 same
    rw [(settled.needs other m needed).1, acting.1, alike]
  kept id there := deals.kept there
  taken id taken := deals.taken taken

theorem Settled.touched (settled : Settled s) {tables : Tables} (same : Touched s.tables tables) : Settled { s with tables } where
  tidy := settled.tidy.touched same
  needs worker n needed := by
    rw [show ({ s with tables } : State).tables.clients = s.tables.clients from same.clients]
    exact settled.needs worker n needed

theorem dealtOtherwise {task next : Task} (other : ∀ n message, next ≠ .answering n (.offerCreated message))
    (others : ∀ n message, next ≠ .answering n (.offerCancelled message)) (room : ∀ place receivers thread, next ≠ .room place receivers thread) :
    dealt task next = none := by
  unfold dealt
  split
  · exact absurd rfl (other _ _)
  · exact absurd rfl (room _ _ _)
  · exact absurd rfl (others _ _)
  · rfl

theorem Settled.threw (settled : Settled s) {env : LobbyEnv} {worker : Worker} {e : HubError} {tables : Tables}
    (free : s.tables.drawable env.drawn = true) (deals : Deals env (s.tasks worker) s.tables tables none)
    (thrown : s.thrown tables worker e = some t) : Stepped s t (Fired.mk s (.acts worker env) t).deal := by
  cases worker with
  | client n =>
      simp only [State.thrown, Option.ite_none_left_eq_some, Option.some.injEq] at thrown
      obtain ⟨_, rfl⟩ := thrown
      have noDeal : (Fired.mk s (.acts (.client n) env) (s.put (caught n e tables) (.client n) (refusal n e))).deal = none := by
        simp only [Fired.deal, State.put, Function.update_self]
        exact dealtOtherwise (by simp [refusal]) (by simp [refusal]) (by simp [refusal])
      have acted := settled.acted (refusal n e) free deals rfl
      have same := acted.settled.touched (touchedCaught n e (s := tables))
      rw [noDeal]
      exact ⟨same, fun id there => acted.kept id (by simpa [State.put, offerSome, (touchedCaught n e (s := tables)).offers] using there),
        acted.taken⟩
  | operator n =>
      obtain rfl := Option.some.inj thrown
      have noDeal : (Fired.mk s (.acts (.operator n) env) (s.put tables (.operator n) .idle)).deal = none := by
        simp only [Fired.deal, State.put, Function.update_self]
        exact dealtOtherwise (by simp) (by simp) (by simp)
      rw [noDeal]
      exact settled.acted .idle free deals rfl

theorem fireStepped (settled : Settled s) (fired : fire config s event = some t) :
    Stepped s t (Fired.mk s event t).deal := by
  cases event with
  | connects id =>
      simp only [fire, Option.ite_none_right_eq_some, Option.some.injEq] at fired
      obtain ⟨⟨_, fresh⟩, rfl⟩ := fired
      exact steppedQuiet rfl ⟨settled.tidy.connects fresh, fun worker n needed =>
        ⟨(settled.needs worker n needed).1, List.mem_append_left _ (settled.needs worker n needed).2⟩⟩
  | receives n request =>
      simp only [fire, Option.ite_none_right_eq_some, Option.some.injEq] at fired
      obtain ⟨⟨there, _⟩, rfl⟩ := fired
      refine steppedQuiet rfl (settled.put settled.tidy (fun other m _ needed => (settled.needs other m needed).2) ?_)
      intro m needed
      cases request <;> simp only [Task.needs, Option.some.injEq, reduceCtorEq] at needed
      obtain rfl := needed
      exact ⟨rfl, there⟩
  | leaves n =>
      simp only [fire, Option.ite_none_right_eq_some, Option.some.injEq] at fired
      obtain ⟨⟨there, _⟩, rfl⟩ := fired
      have same : Touched s.tables (s.tables.change n fun client => { client with alive := false }) := touchedChange fun _ => rfl
      refine steppedQuiet rfl (settled.put (settled.tidy.touched same) (fun other m _ needed => (settled.needs other m needed).2) ?_)
      intro m needed
      obtain rfl := Option.some.inj needed
      exact ⟨rfl, there⟩
  | confirmsFee operator roomId =>
      simp only [fire, Option.ite_none_right_eq_some, Option.some.injEq] at fired
      obtain ⟨_, rfl⟩ := fired
      exact steppedQuiet rfl (settled.put settled.tidy (fun other m _ needed => (settled.needs other m needed).2) (by simp [Task.needs]))
  | setsFee fee =>
      obtain rfl := Option.some.inj fired
      exact steppedQuiet rfl (settled.touched ⟨rfl, rfl, rfl, .refl _, rfl⟩)
  | hangsUp n =>
      obtain rfl := Option.some.inj fired
      exact steppedQuiet rfl (settled.touched (touchedChange fun _ => rfl))
  | acts worker env =>
      simp only [fire] at fired
      split at fired
      · rename_i free
        have served := taskServed config env (s.tasks worker) s.tables
        unfold Served Ensures at served
        split at fired
        · rename_i task tables ran
          rw [ran] at served
          obtain rfl := Option.some.inj fired
          have deal : (Fired.mk s (.acts worker env) (s.put tables worker task)).deal = dealt (s.tasks worker) task := by
            simp [Fired.deal, State.put]
          rw [deal]
          exact settled.acted task free served.1 served.2
        · rename_i e tables ran
          rw [ran] at served
          exact settled.threw free served fired
      · contradiction

/-! The start. -/

theorem restoredSame {record : PersistedRoom} {confirm : Bool} {position : FeePosition} {room : RoomEntry}
    (ok : RoomEntry.fromPersisted record confirm position = .ok room) :
    identity room = ⟨record.roomId, record.partyA, record.partyB⟩ := by
  simp only [RoomEntry.fromPersisted, bind_ok, pure_ok] at ok
  obtain ⟨session, _, rfl⟩ := ok
  rfl

theorem mappedPlace {ε α β : Type} {f : α → Except ε β} {items : List α} {made : List β} (ok : items.mapM f = .ok made) :
    made.length = items.length ∧ ∀ (place : Nat) b, made[place]? = some b → ∃ a, items[place]? = some a ∧ f a = .ok b := by
  induction items generalizing made with
  | nil =>
      rw [List.mapM_nil, pure_ok] at ok
      simp [← ok]
  | cons a rest ih =>
      rw [List.mapM_cons] at ok
      simp only [bind_ok, pure_ok] at ok
      obtain ⟨b, first, more, later, rfl⟩ := ok
      obtain ⟨size, places⟩ := ih later
      refine ⟨by simp [size], fun place b' there => ?_⟩
      cases place with
      | zero =>
          obtain rfl := Option.some.inj there
          exact ⟨a, rfl, first⟩
      | succ place => exact places place b' there

theorem startedSettled (started : Started config s) : Settled s ∧ s.tables.offers = [] := by
  cases started with
  | opened fee =>
      refine ⟨⟨?_, by simp [opened, Task.needs]⟩, rfl⟩
      constructor <;> simp [opened]
  | reloaded fee file _ read keyed few others =>
      simp only [reload, bind_ok, pure_ok] at read
      obtain ⟨rooms, opened, rfl⟩ := read
      obtain ⟨size, places⟩ := mappedPlace opened
      refine ⟨⟨?_, by simp [Task.needs]⟩, rfl⟩
      constructor <;> simp only [List.not_mem_nil, false_implies, implies_true, List.map_nil, List.nodup_nil, List.length_nil,
        Nat.zero_le, List.countP_nil, List.length_range, size, few]
      · refine List.pairwise_lt_range.imp fun less room other there there' same => ?_
        obtain ⟨record, first, ok⟩ := places _ room there
        obtain ⟨record', second, ok'⟩ := places _ other there'
        have id : room.id = record.roomId := congrArg Identity.id (restoredSame ok)
        have id' : other.id = record'.roomId := congrArg Identity.id (restoredSame ok')
        have apart := List.pairwise_iff_getElem.mp (List.pairwise_map.mp keyed)
        obtain ⟨short, rfl⟩ := List.getElem?_eq_some_iff.mp first
        obtain ⟨short', rfl⟩ := List.getElem?_eq_some_iff.mp second
        exact apart _ _ short short' less (id.symm.trans (same.trans id'))
      · intro place there
        have inside : place < rooms.length := by simpa [size] using List.mem_range.mp there
        have here : rooms[place]? = some rooms[place] := List.getElem?_eq_getElem inside
        obtain ⟨record, found, ok⟩ := places place _ here
        have partyA : rooms[place].partyA = record.partyA := congrArg Identity.partyA (restoredSame ok)
        have partyB : rooms[place].partyB = record.partyB := congrArg Identity.partyB (restoredSame ok)
        refine ⟨_, here, ?_⟩
        rw [partyA, partyB]
        exact others record (List.mem_of_getElem? found)

/-! The history of an offer. -/

theorem lastDealOwn {step : Fired} {deal : Deal} (deals : step.deal = some deal) :
    lastDeal (steps ++ [step]) deal.id = some deal := by
  simp [lastDeal, List.filterMap_append, deals]

theorem lastDealOther {step : Fired} {id : RoomId} (others : ∀ deal ∈ step.deal, deal.id ≠ id) :
    lastDeal (steps ++ [step]) id = lastDeal steps id := by
  cases deals : step.deal with
  | none => simp [lastDeal, List.filterMap_append, deals]
  | some deal => simp [lastDeal, List.filterMap_append, deals, others deal deals]

theorem takenOnceSnoc {step : Fired} (once : TakenOnce steps)
    (last : ∀ id, step.deal = some (.taken id) → lastDeal steps id = some (.created id)) : TakenOnce (steps ++ [step]) := by
  intro front other back split id taken
  rcases List.eq_nil_or_concat back with rfl | ⟨middle, final, rfl⟩
  · obtain ⟨rfl, same⟩ := List.append_inj' split rfl
    obtain rfl := List.singleton_inj.mp same
    exact last id taken
  · have longer : steps ++ [step] = (front ++ other :: middle) ++ [final] := by simpa using split
    obtain ⟨same, _⟩ := List.append_inj' longer rfl
    exact once front other middle same id taken

theorem runSettled (started : Started config s) (run : Run config s steps t) : Settled t ∧ TakenOnce steps ∧
    ∀ id, (t.tables.offer id).isSome → lastDeal steps id = some (.created id) := by
  induction run with
  | start =>
      obtain ⟨settled, none⟩ := startedSettled started
      refine ⟨settled, ?_, ?_⟩
      · intro front step back split
        simp at split
      · intro id there
        rw [offerSome, none] at there
        simp at there
  | @step steps t u event before fired ih =>
      obtain ⟨settled, once, open_⟩ := ih
      have stepped := fireStepped settled fired
      refine ⟨stepped.settled, takenOnceSnoc once fun id taken => open_ id (stepped.taken id taken), fun id there => ?_⟩
      rcases stepped.kept id there with created | ⟨old, others⟩
      · exact lastDealOwn created
      · rw [lastDealOther others]
        exact open_ id old

theorem tablesTidy (started : Started config s) (run : Run config s steps t) : Tidy t.tables ∧ TakenOnce steps :=
  ⟨(runSettled started run).1.tidy, (runSettled started run).2.1⟩

end Steps

section Swap
open Hub MediatorSession

def swapLobby : LobbyConfig := ⟨swapHub, true, .beforeFirstRound⟩

def swapLobbyEnv : LobbyEnv := ⟨swapEnv, .ok swapRoom⟩

-- An offer is made, told and taken.
def swapOffered : List Event :=
  [.connects swapClientA, .connects swapClientB,
   .receives 0 (.createOffer ⟨swapCreator.terms, swapCreator.receiveAddressA⟩), .acts (.client 0) swapLobbyEnv,
   .acts (.client 0) ⟨swapEnv, .error (.runtimeError "RAND_bytes failed")⟩]

def swapTaken : List Event :=
  [.receives 1 (.joinOffer ⟨swapRoom, swapAddressB⟩), .acts (.client 1) ⟨swapEnv, .error (.runtimeError "RAND_bytes failed")⟩]

theorem swapTidy : ∃ steps t, Run swapLobby (opened swapFee) steps t ∧ t.tables.rooms.length = 1 ∧ Tidy t.tables ∧
    TakenOnce steps := by
  have played : (play swapLobby [] (opened swapFee) (swapOffered ++ swapTaken)).map (fun run => run.2.tables.rooms.length) = some 1 := by
    decide +kernel
  obtain ⟨⟨steps, t⟩, run, rooms⟩ := Option.map_eq_some_iff.mp played
  exact ⟨steps, t, playRun .start run, rooms, tablesTidy (.opened swapFee) (playRun .start run)⟩

end Swap
end Lobby
end TradeP2P
