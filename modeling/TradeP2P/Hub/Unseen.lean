import TradeP2P.Lib.Unwinding
import TradeP2P.Hub.Occupancy

/-! What of a room nobody but its parties can see. Two states of the hub may look the same to a client, though a room of
others has gone further in one of them. -/
namespace TradeP2P
open Checks Machine

namespace Delivery

/-! A room's handler as it runs for one who owns the queues of some parties. -/

structure SameFor (mine : Party → Prop) (s t : Shared) : Prop where
  room : s.room = t.room
  registered : s.registered = t.registered
  alive : ∀ party, mine party → s.alive party = t.alive party
  queues : ∀ party, mine party → s.queues party = t.queues party

section Twins
variable {α : Type} {mine : Party → Prop} {s t : Shared} {hub : HubConfig} {env : HubEnv}
open Hub

theorem twinsRoom (same : SameFor mine s t) (x : HubM α) : Twins (SameFor mine) (onRoom x) (onRoom x) s t := by
  unfold Twins onRoom
  rw [← same.room]
  cases x s.room with
  | ok a room => exact ⟨rfl, rfl, same.registered, same.alive, same.queues⟩
  | error e room => exact ⟨rfl, rfl, same.registered, same.alive, same.queues⟩

theorem twinsEnqueue (same : SameFor mine s t) (party : Party) (frame : RoomFrame) :
    Twins (SameFor mine) (enqueue party frame) (enqueue party frame) s t := by
  have queues (u : Shared) (party' : Party) : (if u.alive party then
      { u with queues := Function.update u.queues party (u.queues party ++ [frame]) } else u).queues party' =
      if u.alive party = true ∧ party' = party then u.queues party ++ [frame] else u.queues party' := by
    by_cases open_ : u.alive party = true <;> simp only [open_, if_true, if_false, true_and, false_and, Function.update_apply,
      Bool.false_eq_true]
  refine twinsModify ⟨?_, ?_, fun other own => ?_, fun other own => ?_⟩
  · split <;> split <;> exact same.room
  · split <;> split <;> exact same.registered
  · split <;> split <;> exact same.alive other own
  · rw [queues, queues]
    by_cases here : other = party
    · subst here
      rw [same.alive other own, same.queues other own]
    · simp only [here, and_false, if_false]
      exact same.queues other own

theorem twinsErrand (same : SameFor mine s t) (errand : Errand) : Twins (SameFor mine) (errand.run hub env) (errand.run hub env) s t := by
  cases errand with
  | recordTrade => exact (twinsRoom same _).bind fun _ _ _ same => twinsPure same _
  | unpersist => exact (twinsRoom same _).bind fun _ _ _ same => twinsPure same _
  | erase => exact (twinsRoom same _).bind fun _ _ _ same => twinsPure same _
  | lookUp frame =>
    refine (twinsLift same _).bind fun _ s t same => twinsGet.mpr ?_
    rw [same.registered]
    exact twinsPure same _
  | tell party frame => exact (twinsLift same _).bind fun _ _ _ same => (twinsEnqueue same _ _).bind fun _ _ _ same => twinsPure same _
  | put party frame => exact (twinsEnqueue same _ _).bind fun _ _ _ same => twinsPure same _

theorem twinsStart (same : SameFor mine s t) (call : Hub.Call) : Twins (SameFor mine) (start call) (start call) s t := by
  cases call with
  | tradeEphemeralKey clientId message =>
    exact (twinsLift same _).bind fun _ _ _ same => (twinsLift same _).bind fun _ _ _ same => (twinsRoom same _).bind fun _ _ _ same =>
      twinsPure same _
  | confirmFee roomId =>
    refine twinsGet.mpr ?_
    rw [same.room]
    exact twinsPure same _
  | disconnect clientId =>
    refine (twinsModify ⟨same.room, ?_, fun party own => ?_, same.queues⟩ :
      Twins (SameFor mine) _ _ s t).bind fun _ s t same => twinsGet.mpr ?_
    · rw [same.room, same.registered]
    · dsimp only
      rw [same.room, same.alive party own]
    · dsimp only
      rw [same.room]
      split
      · exact (twinsRoom same _).bind fun _ _ _ same => twinsPure same _
      · exact twinsPure same _
  | _ => exact (twinsRoom same _).bind fun _ _ _ same => twinsPure same _

theorem twinsThread (hub : HubConfig) (env : HubEnv) (same : SameFor mine s t) (thread : Thread) : Twins (SameFor mine) (thread.run hub env) (thread.run hub env) s t := by
  cases thread with
  | starting call => exact twinsStart same call
  | relaying clientId message => exact (twinsRoom same _).bind fun _ _ _ same => twinsPure same _
  | handingOn party message =>
    refine twinsGet.mpr ?_
    rw [same.registered]
    exact (twinsLift same _).bind fun _ _ _ same => twinsPure same _
  | locking locked =>
    refine twinsGet.mpr ?_
    rw [same.registered]
    exact twinsRoom same _
  | telling errands =>
    cases errands with
    | nil => exact twinsPure same _
    | cons errand rest => exact (twinsErrand same errand).bind fun _ _ _ same => twinsPure same _
  | persisting => exact (twinsRoom same _).bind fun _ _ _ same => twinsPure same _
  | announcing =>
    refine twinsGet.mpr ?_
    rw [same.room]
    exact (twinsLift same _).bind fun _ _ _ same => (twinsLift same _).bind fun _ _ _ same => twinsPure same _
  | announced waiting =>
    cases waiting with
    | nil => exact (twinsRoom same _).bind fun _ _ _ same => twinsPure same _
    | cons now later => exact (twinsLift same _).bind fun _ _ _ same => (twinsEnqueue same _ _).bind fun _ _ _ same => twinsPure same _

end Twins

/-! A trade is recorded by an errand of its own. -/

def Unrecorded (s t : Room) : Prop := ∀ terms, .recordedTrade terms ∈ t.effects → .recordedTrade terms ∈ s.effects

instance unrecordedRefl : Std.Refl Unrecorded where
  refl _ _ mem := mem

instance unrecordedTrans : Trans Unrecorded Unrecorded Unrecorded where
  trans before after terms mem := before terms (after terms mem)

theorem unrecordedMoves : Moves Unrecorded where
  entry _ _ _ _ mem := mem
  emit effect other s terms mem := by
    rcases List.mem_append.mp mem with old | new
    · exact old
    · exact absurd (List.mem_singleton.mp new).symm (other terms)
  unlist _ _ mem := mem

end Delivery

namespace Lobby

/-! What two states of the tables have in common for the client `viewer`, whatever the room at `place` has come to and whatever
the other clients have been sent. -/

structure Seen (viewer place : Nat) (s t : Tables) : Prop where
  clients : s.clients = t.clients
  offers : s.offers = t.offers
  rooms : s.rooms = t.rooms
  priceHistory : s.priceHistory = t.priceHistory
  fee : s.fee = t.fee
  ids : s.accepted.map Client.id = t.accepted.map Client.id
  own : s.accepted[viewer]? = t.accepted[viewer]?
  entries : ∀ q, q ≠ place → s.entries[q]? = t.entries[q]?
  identities : s.entries.map identity = t.entries.map identity

section Seen
variable {viewer place : Nat} {s t u : Tables}

theorem Seen.refl (s : Tables) : Seen viewer place s s := ⟨rfl, rfl, rfl, rfl, rfl, rfl, rfl, fun _ _ => rfl, rfl⟩

theorem Seen.symm (seen : Seen viewer place s t) : Seen viewer place t s where
  clients := seen.clients.symm
  offers := seen.offers.symm
  rooms := seen.rooms.symm
  priceHistory := seen.priceHistory.symm
  fee := seen.fee.symm
  ids := seen.ids.symm
  own := seen.own.symm
  entries q other := (seen.entries q other).symm
  identities := seen.identities.symm

theorem Seen.trans (first : Seen viewer place s t) (second : Seen viewer place t u) : Seen viewer place s u where
  clients := first.clients.trans second.clients
  offers := first.offers.trans second.offers
  rooms := first.rooms.trans second.rooms
  priceHistory := first.priceHistory.trans second.priceHistory
  fee := first.fee.trans second.fee
  ids := first.ids.trans second.ids
  own := first.own.trans second.own
  entries q other := (first.entries q other).trans (second.entries q other)
  identities := first.identities.trans second.identities

theorem Seen.idOf (seen : Seen viewer place s t) : s.idOf = t.idOf := idOfSame seen.ids

theorem Seen.client (seen : Seen viewer place s t) : s.client = t.client := by
  funext id
  rw [Tables.client, Tables.client, seen.clients, seen.idOf]

theorem Seen.offer (seen : Seen viewer place s t) : s.offer = t.offer := by
  funext id
  rw [Tables.offer, Tables.offer, seen.offers]

theorem Seen.named (seen : Seen viewer place s t) (q : Nat) : s.entries[q]?.map identity = t.entries[q]?.map identity := by
  rw [← List.getElem?_map, ← List.getElem?_map, seen.identities]

theorem Seen.room (seen : Seen viewer place s t) : s.room = t.room := by
  funext id
  rw [Tables.room, Tables.room, seen.rooms]
  refine congrArg (List.find? · t.rooms) (funext fun q => ?_)
  have named := seen.named q
  cases there : s.entries[q]? with
  | none =>
    cases there' : t.entries[q]? with
    | none => rfl
    | some _ =>
      rw [there, there'] at named
      cases named
  | some room =>
    cases there' : t.entries[q]? with
    | none =>
      rw [there, there'] at named
      cases named
    | some room' =>
      rw [there, there'] at named
      have same : room.id = room'.id := congrArg Identity.id (Option.some.inj named)
      simp [same]

theorem Seen.size (seen : Seen viewer place s t) : s.entries.length = t.entries.length := by
  have lengths := congrArg List.length seen.identities
  rwa [List.length_map, List.length_map] at lengths

/- What happens to one client only, happens to the viewer alike or shows him nothing. -/
theorem Seen.change (seen : Seen viewer place s t) (n : Nat) {f g : Client → Client} (same : n = viewer → f = g)
    (ids : ∀ client, (f client).id = client.id) (ids' : ∀ client, (g client).id = client.id) :
    Seen viewer place (s.change n f) (t.change n g) := by
  refine { seen with ids := ?_, own := ?_ }
  · rw [(touchedChange ids : Touched s _).ids, (touchedChange ids' : Touched t _).ids, seen.ids]
  · simp only [Tables.change, List.getElem?_modify]
    by_cases here : n = viewer
    · rw [same here, seen.own]
    · simp only [here, if_false]
      rw [seen.own]

theorem Seen.deliver (seen : Seen viewer place s t) (receiver : Option Nat) {frames frames' : List RoomFrame}
    (same : receiver = some viewer → frames = frames') : Seen viewer place (s.deliver receiver frames) (t.deliver receiver frames') := by
  cases receiver with
  | none => exact seen
  | some n => exact seen.change n (fun here => by rw [same (by rw [here])]) (fun _ => rfl) fun _ => rfl

theorem Seen.record (seen : Seen viewer place s t) (now : UInt64) (id : RoomId) (effects : List Effect) :
    Seen viewer place (effects.foldl (Tables.record now id) s) (effects.foldl (Tables.record now id) t) := by
  induction effects generalizing s t with
  | nil => exact seen
  | cons effect rest ih =>
    refine ih ?_
    cases effect with
    | recordedTrade terms => exact { seen with priceHistory := by rw [Tables.record, Tables.record, seen.priceHistory] }
    | _ => exact { seen with }

theorem Seen.caught (seen : Seen viewer place s t) (n : Nat) (e : HubError) : Seen viewer place (caught n e s) (caught n e t) := by
  cases e with
  | benignRejection text => exact seen
  | standard e => exact seen.change n (fun _ => rfl) (fun _ => rfl) fun _ => rfl

end Seen

/-! Another room goes on alike. -/
section Rooms
variable {viewer place q : Nat} {s t : Tables} {config : LobbyConfig} {env : LobbyEnv}

abbrev Receivers.mine (viewer : Nat) (receivers : Receivers) (party : Party) : Prop := receivers.of party = some viewer

theorem Seen.view (seen : Seen viewer place s t) (room : RoomEntry) (receivers : Receivers) :
    Delivery.SameFor (receivers.mine viewer) (s.view q room receivers) (t.view q room receivers) where
  room := by simp only [Tables.view, seen.rooms]
  registered := by simp only [Tables.view, seen.client]
  alive party own := by simp only [Tables.view, own, Option.bind_some, seen.own]
  queues _ _ := rfl

theorem Seen.written (seen : Seen viewer place s t) {receivers : Receivers} {now : UInt64}
    {after after' : Delivery.Shared} (same : Delivery.SameFor (receivers.mine viewer) after after') :
    Seen viewer place (s.written q receivers now after) (t.written q receivers now after') := by
  have placed : Seen viewer place
      { s with entries := s.entries.set q after.room.entry
               rooms := if after.room.listed then s.rooms else s.rooms.filter (· ≠ q) }
      { t with entries := t.entries.set q after'.room.entry
               rooms := if after'.room.listed then t.rooms else t.rooms.filter (· ≠ q) } := by
    rw [same.room]
    refine { seen with rooms := ?_, entries := fun r there => ?_, identities := ?_ }
    · dsimp only
      rw [seen.rooms]
    · dsimp only
      rw [List.getElem?_set, List.getElem?_set, seen.entries r there, seen.size]
    · dsimp only
      rw [List.map_set, List.map_set, seen.identities]
  rw [Tables.written, Tables.written, ← same.room]
  rw [← same.room] at placed
  exact ((placed.record _ _ _).deliver _ fun own => same.queues .a own).deliver _ fun own => same.queues .b own

theorem Seen.runs (seen : Seen viewer place s t) (other : q ≠ place) (receivers : Receivers) (thread : Delivery.Thread) :
    Twins (Seen viewer place) (runRoom config env q receivers thread) (runRoom config env q receivers thread) s t := by
  rw [runRoom]
  refine twinsGet.mpr ?_
  rw [← seen.entries q other]
  cases s.entries[q]? with
  | none => exact twinsThrow seen _
  | some room =>
    have found : t.receivers room = s.receivers room := by rw [Tables.receivers, Tables.receivers, seen.client]
    simp only [found]
    generalize (if looksUp thread then s.receivers room else receivers) = given
    have twins := Delivery.twinsThread config.hub env.hub (seen.view (q := q) room given) thread
    unfold Twins at twins
    split at twins
    next next after next' after' ran ran' =>
      obtain ⟨rfl, same⟩ := twins
      simp only [ran, ran']
      exact (twinsSet (seen.written same)).bind fun _ _ _ seen => twinsPure seen _
    next e after e' after' ran ran' =>
      obtain ⟨rfl, same⟩ := twins
      simp only [ran, ran']
      exact (twinsSet (seen.written same)).bind fun _ _ _ seen => twinsThrow seen _
    next => exact twins.elim

end Rooms

/-! So does everything that is not about the room. -/
section Handlers
variable {viewer place n : Nat} {s t : Tables} {config : LobbyConfig} {env : LobbyEnv}

theorem Seen.creates (seen : Seen viewer place s t) (message : CreateOfferMessage) :
    Twins (Seen viewer place) (handleCreateOffer env n message) (handleCreateOffer env n message) s t := by
  refine twinsGet.mpr ?_
  rw [← seen.offers, ← seen.idOf]
  refine (twinsLift seen _).bind fun _ _ _ seen' => (twinsLift seen' _).bind fun _ _ _ seen' => (twinsLift seen' _).bind fun id _ _ seen' =>
    (twinsLift seen' _).bind fun _ _ _ seen' => ?_
  exact (twinsSet { seen with offers := rfl }).bind fun _ _ _ seen => twinsPure seen _

theorem Seen.lists (seen : Seen viewer place s t) (request : ListOffersMessage) :
    Twins (Seen viewer place) (handleListOffers n request) (handleListOffers n request) s t := by
  refine twinsGet.mpr ?_
  rw [← seen.offers]
  exact twinsPure seen _

theorem Seen.candles (seen : Seen viewer place s t) (request : GetCandlesMessage) :
    Twins (Seen viewer place) (handleGetCandles n request) (handleGetCandles n request) s t := by
  refine twinsGet.mpr ?_
  rw [← seen.priceHistory]
  exact twinsPure seen _

theorem Seen.cancels (seen : Seen viewer place s t) (message : CancelOfferMessage) :
    Twins (Seen viewer place) (handleCancelOffer n message) (handleCancelOffer n message) s t := by
  refine twinsGet.mpr ?_
  rw [← seen.offer, ← seen.idOf, ← seen.offers]
  cases s.offer message.roomId with
  | none => exact twinsThrow seen _
  | some offer =>
    refine (twinsLift seen _).bind fun _ _ _ _ => ?_
    exact (twinsSet { seen with offers := rfl }).bind fun _ _ _ seen => twinsPure seen _

theorem Seen.joins (seen : Seen viewer place s t) (message : JoinOfferMessage) :
    Twins (Seen viewer place) (handleJoinOffer config n message) (handleJoinOffer config n message) s t := by
  refine twinsGet.mpr ?_
  rw [← seen.offer, ← seen.idOf, ← seen.offers, ← seen.rooms, ← seen.client, ← seen.fee, ← seen.size]
  cases s.offer message.roomId with
  | none => exact twinsThrow seen _
  | some offer =>
    refine (twinsLift seen _).bind fun _ _ _ seen' => (twinsLift seen' _).bind fun _ _ _ seen' => ?_
    cases s.client offer.creator with
    | none => exact (twinsSet { seen with offers := rfl, rooms := rfl, fee := rfl }).bind fun _ _ _ seen => twinsThrow seen _
    | some creator =>
      refine (twinsLift seen' _).bind fun room _ _ _ => ?_
      refine (twinsSet { seen with offers := rfl, rooms := rfl, fee := rfl, entries := fun q other => ?_, identities := ?_ }).bind
        fun _ _ _ seen => twinsPure seen _
      · dsimp only
        rw [List.getElem?_append, List.getElem?_append, seen.entries q other, seen.size]
      · dsimp only
        rw [List.map_append, List.map_append, seen.identities]

/- A recovery request is answered from what everybody sees, or goes on to look into the room. -/
theorem Seen.recovers (seen : Seen viewer place s t) (message : RecoveryStateRequestMessage) :
    Twins (Seen viewer place) (handleRecoveryStateRequest n message) (handleRecoveryStateRequest n message) s t := by
  refine twinsGet.mpr ?_
  rw [← seen.room]
  cases s.room message.roomId with
  | none => exact twinsPure seen _
  | some q => exact twinsPure seen _

theorem Seen.reads (seen : Seen viewer place s t) {q : Nat} (other : q ≠ place) (stage : RecoveryStage)
    (response : RecoveryStateResponseMessage) : Twins (Seen viewer place) (recover n q response stage) (recover n q response stage) s t := by
  refine twinsGet.mpr ?_
  rw [← seen.entries q other, ← seen.client]
  cases s.entries[q]? with
  | none => exact twinsThrow seen _
  | some room => cases stage <;> exact twinsPure seen _

theorem Seen.calls (seen : Seen viewer place s t) (request : Delivery.Request) (other : (roomOf request).bind s.room ≠ some place) :
    Twins (Seen viewer place) (handleRoom config env request) (handleRoom config env request) s t := by
  refine twinsGet.mpr ?_
  rw [← seen.room]
  cases found : (roomOf request).bind s.room with
  | none => exact twinsLift seen _
  | some q =>
    have apart : q ≠ place := fun here => other (by rw [found, here])
    exact (seen.runs apart _ _).bind fun _ _ _ seen => twinsPure seen _

theorem Seen.answers (seen : Seen viewer place s t) (frame : Outgoing) :
    Twins (Seen viewer place) (answer n frame) (answer n frame) s t := by
  refine (twinsLift seen _).bind fun _ _ _ seen => ?_
  refine (twinsModify ?_).bind fun _ _ _ seen => twinsPure seen _
  exact seen.change n (fun _ => rfl) (fun _ => rfl) fun _ => rfl

/- A client that leaves closes the same rooms, as long as the one room stays open. -/
theorem Seen.leaves (seen : Seen viewer place s t)
    (stays : ∀ room ∈ s.entries[place]?, place ∈ s.rooms → abandons (s.idOf n) room = false)
    (stays' : ∀ room ∈ t.entries[place]?, place ∈ t.rooms → abandons (t.idOf n) room = false) :
    Twins (Seen viewer place) (removeClient n) (removeClient n) s t := by
  refine twinsGet.mpr ?_
  have affected : (t.rooms.filter fun q => t.entries[q]?.any (abandons (t.idOf n))) =
      s.rooms.filter fun q => s.entries[q]?.any (abandons (s.idOf n)) := by
    rw [← seen.rooms, ← seen.idOf]
    refine List.filter_congr fun q mem => ?_
    by_cases here : q = place
    · subst here
      have quiet {tables : Tables} {id : ClientId} (none_ : ∀ room ∈ tables.entries[q]?, abandons id room = false) :
          tables.entries[q]?.any (abandons id) = false := by
        cases there : tables.entries[q]? with
        | none => rfl
        | some room => exact none_ room there
      rw [quiet fun room there => stays room there mem, quiet fun room there => ?_]
      rw [seen.idOf]
      exact stays' room there (seen.rooms ▸ mem)
    · rw [seen.entries q here]
  simp only [affected]
  rw [← seen.clients, ← seen.offers, ← seen.rooms, ← seen.idOf]
  exact (twinsSet { seen with clients := rfl, offers := rfl, rooms := rfl }).bind fun _ _ _ seen => twinsPure seen _

end Handlers

/-! The room itself goes on unseen, until it is taken off the table or its trade goes on record. -/

structure Outsider (viewer place : Nat) (s : Tables) : Prop where
  others : ∀ client ∈ s.accepted[viewer]?, ∀ room ∈ s.entries[place]?, client.id ≠ room.partyA ∧ client.id ≠ room.partyB

structure Receivers.Misses (receivers : Receivers) (viewer : Nat) : Prop where
  a : receivers.a ≠ some viewer
  b : receivers.b ≠ some viewer

section Unseen
variable {viewer place n : Nat} {s t : Tables} {config : LobbyConfig} {env : LobbyEnv} {receivers : Receivers}

theorem unseenChange (other : n ≠ viewer) {f : Client → Client} (ids : ∀ client, (f client).id = client.id) :
    Seen viewer place s (s.change n f) := by
  have same : Seen viewer place s s := .refl s
  refine { same with ids := (touchedChange ids : Touched s _).ids.symm, own := ?_ }
  rw [Tables.change, List.getElem?_modify_ne _ _ other]

theorem unseenDeliver {receiver : Option Nat} (other : receiver ≠ some viewer) (frames : List RoomFrame) :
    Seen viewer place s (s.deliver receiver frames) := by
  cases receiver with
  | none => exact Seen.refl s
  | some n => exact unseenChange (fun here => other (by rw [here])) fun _ => rfl

theorem unseenRecord (now : UInt64) (id : RoomId) {effects : List Effect} (quiet : ∀ terms, .recordedTrade terms ∉ effects) :
    Seen viewer place s (effects.foldl (Tables.record now id) s) := by
  induction effects generalizing s with
  | nil => exact Seen.refl s
  | cons effect rest ih =>
    have first : Seen viewer place s (Tables.record now id s effect) := by
      cases effect with
      | recordedTrade terms => exact absurd List.mem_cons_self (quiet terms)
      | _ => exact ⟨rfl, rfl, rfl, rfl, rfl, rfl, rfl, fun _ _ => rfl, rfl⟩
    exact first.trans (ih fun terms mem => quiet terms (List.mem_cons_of_mem _ mem))

theorem Outsider.client (outsider : Outsider viewer place s) (tidy : Tidy s) {room : RoomEntry} (there : s.entries[place]? = some room)
    {id : ClientId} (party : id = room.partyA ∨ id = room.partyB) : s.client id ≠ some viewer := by
  intro found
  have inside := List.mem_of_find?_eq_some found
  have named : s.idOf viewer = id := by simpa using List.find?_some found
  have accepted := List.getElem?_eq_getElem (tidy.clientsThere viewer inside)
  have others := outsider.others _ accepted room there
  rw [Tables.idOf, accepted] at named
  rcases party with rfl | rfl
  · exact others.1 named
  · exact others.2 named

theorem Outsider.misses (outsider : Outsider viewer place s) (tidy : Tidy s) {room : RoomEntry} (there : s.entries[place]? = some room) :
    (s.receivers room).Misses viewer :=
  ⟨outsider.client tidy there (.inl rfl), outsider.client tidy there (.inr rfl)⟩

theorem unseenWritten {now : UInt64} {room : RoomEntry} {given : Receivers} {after : Delivery.Shared} (there : s.entries[place]? = some room)
    (misses : receivers.Misses viewer) (same : Delivery.SameShared (s.view place room given) after)
    (quiet : Delivery.OnRooms Delivery.Unrecorded (s.view place room given) after)
    (stays : place ∈ (s.written place receivers now after).rooms) : Seen viewer place s (s.written place receivers now after) := by
  have listed : after.room.listed = true := by
    by_contra gone
    rw [writtenRooms, if_neg gone] at stays
    simpa using (List.mem_filter.mp stays).2
  have named : identity after.room.entry = identity room := by
    have id := same.id
    have partyA := same.partyA
    have partyB := same.partyB
    simp only [Tables.view] at id partyA partyB
    rw [identity, identity, id, partyA, partyB]
  have placed : Seen viewer place s { s with entries := s.entries.set place after.room.entry
                                             rooms := if after.room.listed then s.rooms else s.rooms.filter (· ≠ place) } := by
    have same : Seen viewer place s s := .refl s
    refine { same with rooms := by rw [if_pos listed], entries := fun q other => ?_, identities := ?_ }
    · exact (List.getElem?_set_ne (Ne.symm other)).symm
    · dsimp only
      rw [List.map_set, named, ← List.getElem?_eq_some_iff.mp there |>.choose_spec, ← List.map_set]
      exact congrArg _ (List.set_getElem_self _).symm
  have silent : ∀ terms, .recordedTrade terms ∉ after.room.effects := fun terms mem => absurd (quiet terms mem) List.not_mem_nil
  exact placed.trans ((unseenRecord now after.room.entry.id silent).trans ((unseenDeliver misses.a _).trans (unseenDeliver misses.b _)))

theorem missesGiven (outsider : Outsider viewer place s) (tidy : Tidy s) (misses : receivers.Misses viewer) {room : RoomEntry}
    (there : s.entries[place]? = some room) (thread : Delivery.Thread) :
    (if looksUp thread then s.receivers room else receivers).Misses viewer := by
  split
  · exact outsider.misses tidy there
  · exact misses

theorem missesRun (outsider : Outsider viewer place s) (tidy : Tidy s) (misses : receivers.Misses viewer) (thread : Delivery.Thread) :
    Ensures (runRoom config env place receivers thread) s (fun a _ => a.1.Misses viewer) (fun _ _ => True) := by
  rw [runRoom, ensuresBind, ensuresGet]
  split
  · exact True.intro
  next room there =>
    have given := missesGiven outsider tidy misses there thread
    dsimp only
    generalize (if looksUp thread then s.receivers room else receivers) = found at given
    split
    · exact given
    · exact True.intro

theorem unseenRun (config : LobbyConfig) (env : LobbyEnv) (outsider : Outsider viewer place s) (tidy : Tidy s) (misses : receivers.Misses viewer) {thread : Delivery.Thread}
    (unrecorded : ∀ rest, thread ≠ .telling (.recordTrade :: rest)) :
    Ensures (runRoom config env place receivers thread) s
      (fun _ u => place ∈ u.rooms → Seen viewer place s u) (fun _ u => place ∈ u.rooms → Seen viewer place s u) := by
  rw [runRoom, ensuresBind, ensuresGet]
  split
  · exact fun _ => Seen.refl s
  next room there =>
    have given := missesGiven outsider tidy misses there thread
    dsimp only
    generalize (if looksUp thread then s.receivers room else receivers) = found at given
    have same := Delivery.sameThread config.hub env.hub thread (s.view place room found)
    have quiet := Delivery.unrecordedMoves.thread config.hub env.hub thread (fun rest is => absurd is (unrecorded rest)) (s.view place room found)
    unfold Ensures at same quiet
    split
    next next after ran =>
      rw [ran] at same quiet
      exact fun stays => unseenWritten there given same quiet stays
    next e after ran =>
      rw [ran] at same quiet
      exact fun stays => unseenWritten there given same quiet stays

theorem strangerRefused {sh : Delivery.Shared} {id : ClientId} {roomId : RoomId} (listed : sh.room.listed = true)
    (named : sh.room.entry.id = roomId) (notA : id ≠ sh.room.entry.partyA) (notB : id ≠ sh.room.entry.partyB) :
    Delivery.onRoom (Hub.findRoomFor id roomId) sh =
      .error (.standard (.invalidArgument "client is not a member of this room")) sh := by
  have here : ¬¬(sh.room.listed = true ∧ roomId = sh.room.entry.id) := not_not.mpr ⟨listed, named.symm⟩
  have found : Hub.findRoomFor id roomId sh.room =
      .error (.standard (.invalidArgument "client is not a member of this room")) sh.room := by
    have stranger : sh.room.entry.partyFor id = .error (.standard (.invalidArgument "client is not a member of this room")) := by
      rw [RoomEntry.partyFor, if_neg (Ne.symm notA), if_neg (Ne.symm notB)]
    simp only [Hub.findRoomFor, bind_run, get_run, lift_run, throwIf_not here, stranger]
  rw [Delivery.onRoom, found]

/- Who is no party of the room is refused before anything happens. -/
theorem refusedOutside (hub : HubConfig) (hubEnv : HubEnv) {request : Delivery.Request} {id : ClientId} (by_ : request.by (.client id) = true)
    {roomId : RoomId} (about : roomOf request = some roomId) :
    ∃ e, ∀ sh : Delivery.Shared, sh.room.listed = true → sh.room.entry.id = roomId → id ≠ sh.room.entry.partyA → id ≠ sh.room.entry.partyB →
      request.thread.run hub hubEnv sh = .error e sh := by
  have refused {β : Type} (k : Party → Delivery.SharedM β) (sh : Delivery.Shared) (listed : sh.room.listed = true)
      (named : sh.room.entry.id = roomId) (notA : id ≠ sh.room.entry.partyA) (notB : id ≠ sh.room.entry.partyB) :
      (Delivery.onRoom (Hub.findRoomFor id roomId) >>= k) sh =
        .error (.standard (.invalidArgument "client is not a member of this room")) sh := by
    rw [bind_run, strangerRefused listed named notA notB]
  cases request with
  | relay clientId message =>
    simp only [Delivery.Request.by, Delivery.Request.clientId, Bool.and_eq_true, decide_eq_true_eq, Option.some.injEq] at by_
    obtain ⟨rfl, _⟩ := by_
    cases about
    exact ⟨_, fun sh listed named notA notB => refused _ sh listed named notA notB⟩
  | call made =>
    cases made with
    | confirmFee roomId => simp [Delivery.Request.by, Delivery.Request.clientId] at by_
    | disconnect clientId => cases about
    | tradeEphemeralKey clientId message =>
      simp only [Delivery.Request.by, Delivery.Request.clientId, Bool.and_eq_true, decide_eq_true_eq, Option.some.injEq] at by_
      obtain ⟨rfl, _⟩ := by_
      cases about
      simp only [Delivery.Request.thread, Delivery.Thread.run, Delivery.start, bind_run, lift_run]
      cases Hub.parsePublicKey message.ephemeralPublicKey "malformed ephemeral trade public key" with
      | error e => exact ⟨e, fun _ _ _ _ _ => rfl⟩
      | ok key =>
        cases Hub.parsePublicKey message.ephemeralPublicKeyMldsa65 "malformed ephemeral trade public key (ML-DSA-65)" with
        | error e => exact ⟨e, fun _ _ _ _ _ => rfl⟩
        | ok keyMldsa65 =>
          refine ⟨.standard (.invalidArgument "client is not a member of this room"), fun sh listed named notA notB => ?_⟩
          dsimp only
          rw [strangerRefused listed named notA notB]
    | _ =>
      simp only [Delivery.Request.by, Delivery.Request.clientId, Bool.and_eq_true, decide_eq_true_eq, Option.some.injEq] at by_
      obtain ⟨rfl, _⟩ := by_
      cases about
      exact ⟨_, fun sh listed named notA notB => refused _ sh listed named notA notB⟩

theorem writtenView {now : UInt64} {room : RoomEntry} (there : s.entries[place]? = some room) (listed : place ∈ s.rooms)
    (given : Receivers) : s.written place receivers now (s.view place room given) = s := by
  have nothing (u : Tables) (receiver : Option Nat) : u.deliver receiver [] = u := by
    cases receiver with
    | none => rfl
    | some n =>
      have same : (fun client : Client => { client with outgoing := client.outgoing ++ ([] : List RoomFrame).map Outgoing.room }) = id := by
        funext client
        simp
      rw [Tables.deliver, same, Tables.change, List.modify_id]
  have entries : s.entries.set place room = s.entries := by
    rw [← List.getElem?_eq_some_iff.mp there |>.choose_spec]
    exact List.set_getElem_self _
  simp only [Tables.written, Tables.view, List.foldl_nil, listed, decide_true, if_true, entries, nothing]

theorem roomFound {id : RoomId} {q : Nat} (found : s.room id = some q) : q ∈ s.rooms ∧ ∃ room, s.entries[q]? = some room ∧ room.id = id := by
  have named := List.find?_some found
  cases there : s.entries[q]? with
  | none => simp [there] at named
  | some room => exact ⟨List.mem_of_find?_eq_some found, room, rfl, by simpa [there] using named⟩

theorem callRefused (config : LobbyConfig) (env : LobbyEnv) (outsider : Outsider viewer place s) {client : Client} (accepted : s.accepted[viewer]? = some client)
    {request : Delivery.Request} {roomId : RoomId} (about : roomOf request = some roomId) (found : s.room roomId = some place) {e : HubError}
    (refused : ∀ sh : Delivery.Shared, sh.room.listed = true → sh.room.entry.id = roomId → client.id ≠ sh.room.entry.partyA →
      client.id ≠ sh.room.entry.partyB → request.thread.run config.hub env.hub sh = .error e sh) :
    handleRoom config env request s = .error e s := by
  obtain ⟨listed, room, there, named⟩ := roomFound found
  obtain ⟨notA, notB⟩ := outsider.others client accepted room there
  have fails (given : Receivers) := refused (s.view place room given) (decide_eq_true listed) named notA notB
  have ran (receivers : Receivers) : runRoom config env place receivers request.thread s = .error e s := by
    simp only [runRoom, bind_run, get_run, there, fails, set_run, writtenView there listed, throw_run]
  simp only [handleRoom, bind_run, get_run, about, Option.bind_some, found, ran]

end Unseen

end Lobby
end TradeP2P
