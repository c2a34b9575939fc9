import Mathlib.Data.List.Perm.Subperm
import TradeP2P.Hub.Occupancy
import TradeP2P.Lib.Paging
import TradeP2P.Protocol.Codec

/-! The open offers, as a client reads them page by page. The offers between two pages are whatever they have become;
each page goes on behind the last id of the page before it. -/
namespace TradeP2P
open Wire (Bytes)
open Checks Machine Paging

def OpenOffer.summary (offer : OpenOffer) : OfferSummary := ⟨offer.id, offer.terms⟩

def ListOffersMessage.cursor (request : ListOffersMessage) : Option RoomId :=
  if request.hasCursor then some request.afterRoomId else none

def OfferListMessage.next (page : OfferListMessage) : Option RoomId := if page.hasMore then some page.nextCursor else none

namespace Lobby

def summaryKey (offer : OfferSummary) : Bytes := offer.roomId.toList

/-! One page. -/
section Page
variable {offers : List OpenOffer} {request : ListOffersMessage}

def candidates (offers : List OpenOffer) : List OfferSummary :=
  (offers.map OpenOffer.summary).mergeSort fun a b => !idBefore b.roomId a.roomId

theorem candidatesRising (distinct : (offers.map OpenOffer.id).Nodup) :
    ((candidates offers).map summaryKey).Pairwise (· < ·) := by
  have order : (candidates offers).Pairwise fun a b => (!idBefore b.roomId a.roomId) = true := by
    refine List.pairwise_mergeSort ?_ ?_ _
    · intro a b c first second
      simp only [idBefore, Bool.not_eq_true', decide_eq_false_iff_not, Std.not_lt] at first second ⊢
      exact Std.le_trans first second
    · intro a b
      simp only [idBefore, Bool.or_eq_true, Bool.not_eq_true', decide_eq_false_iff_not, Std.not_lt]
      exact Std.le_total
  have apart : ((candidates offers).map summaryKey).Nodup := by
    have ids : (offers.map OpenOffer.summary).map summaryKey = (offers.map OpenOffer.id).map Vector.toList := by
      simp [summaryKey, OpenOffer.summary, Function.comp_def]
    rw [candidates, ((List.mergeSort_perm _ _).map summaryKey).nodup_iff, ids]
    exact distinct.map fun a b same => Vector.toList_inj.mp same
  refine List.pairwise_map.mpr ((order.and (List.pairwise_map.mp apart)).imp ?_)
  intro a b both
  simp only [idBefore, Bool.not_eq_true', decide_eq_false_iff_not, Std.not_lt] at both
  exact Std.lt_of_le_of_ne both.1 both.2

def ofMessage (page : OfferListMessage) : Page OfferSummary Bytes := ⟨page.offers, page.next.map Vector.toList⟩

def pageFrom (limit : Nat) (left : List OfferSummary) : OfferListMessage :=
  if left.length > (left.take limit).length then
    { offers := left.take limit, hasMore := true
      nextCursor := ((left.take limit).getLast?.map OfferSummary.roomId).getD (Vector.replicate 32 0) }
  else { offers := left.take limit }

theorem takenSome {limit : Nat} (positive : 0 < limit) {left : List OfferSummary} (more : left.length > (left.take limit).length) :
    left.take limit ≠ [] := by
  intro none
  rw [List.take_eq_nil_iff] at none
  rcases none with none | none
  · exact absurd none (Nat.ne_of_gt positive)
  · simp [none] at more

theorem pageFromCut {limit : Nat} (positive : 0 < limit) (left : List OfferSummary) :
    ofMessage (pageFrom limit left) = cut summaryKey limit left := by
  unfold ofMessage pageFrom cut OfferListMessage.next
  by_cases more : left.length > (left.take limit).length
  · have taken := takenSome positive more
    rw [if_pos more, if_pos more, List.getLast?_eq_some_getLast taken]
    rfl
  · rw [if_neg more, if_neg more]
    rfl

theorem offerPageFrom : offerPage offers request =
    pageFrom request.limit.toNat (after summaryKey (request.cursor.map Vector.toList) (candidates offers)) := by
  have left : (if request.hasCursor then (candidates offers).dropWhile fun offer => !idBefore request.afterRoomId offer.roomId
      else candidates offers) = after summaryKey (request.cursor.map Vector.toList) (candidates offers) := by
    unfold ListOffersMessage.cursor
    cases request.hasCursor <;> rfl
  rw [← left]
  rfl

theorem leftOffers : ∀ summary ∈ after summaryKey (request.cursor.map Vector.toList) (candidates offers),
    summary ∈ offers.map OpenOffer.summary :=
  fun _ mem => List.mem_mergeSort.mp ((afterSuffix _ _).subset mem)

theorem offerPageTaken (distinct : (offers.map OpenOffer.id).Nodup) (positive : 0 < request.limit) :
    TakenOf summaryKey (offers.map OpenOffer.summary) (request.cursor.map Vector.toList) (ofMessage (offerPage offers request)) := by
  rw [offerPageFrom, pageFromCut (by simpa [UInt16.lt_iff_toNat_lt] using positive)]
  exact cutTaken (candidatesRising distinct) (fun a => List.mem_mergeSort) (by simpa [UInt16.lt_iff_toNat_lt] using positive)

/- A page of offers that can be told is sent as it is. -/
theorem pageFromSent {limit : Nat} (positive : 0 < limit) (short : limit ≤ maxOfferPageEntries) {left : List OfferSummary}
    (told : ∀ offer ∈ left, ∃ bytes, encodeOfferSummary offer = .ok bytes) : ∃ bytes,
    encodeOfferList (pageFrom limit left) = .ok bytes ∧ bytes.length ≤ maxFramePayload ∧
      decodeOfferList bytes = .ok (pageFrom limit left) := by
  have encoded : ∃ bytes, encodeOfferList (pageFrom limit left) = .ok bytes := by
    have few : ¬(left.take limit).length > maxOfferPageEntries := by
      rw [List.length_take]
      omega
    obtain ⟨written, each⟩ := Wire.writeManyAll fun offer mem => told offer (List.mem_of_mem_take (i := limit) mem)
    unfold pageFrom
    split
    · rename_i more
      have taken : left.take limit ≠ [] := takenSome positive more
      have last := List.getLast?_eq_some_getLast taken
      obtain ⟨_, sent⟩ := told _ (List.mem_of_mem_take (List.getLast_mem taken))
      simp only [encodeOfferSummary, bind_ok] at sent
      obtain ⟨_, valid, _⟩ := sent
      simp only [encodeOfferList, if_true, bind_ok, pure_ok, throwIf_ok, EndsAt, last]
      exact ⟨_, (), few, (), valid, (), by simp, _, each, rfl⟩
    · simp only [encodeOfferList, Bool.false_eq_true, if_false, bind_ok, pure_ok, throwIf_ok]
      exact ⟨_, (), few, _, each, rfl⟩
  obtain ⟨bytes, encoded⟩ := encoded
  have same : Codec.offerList.sent (pageFrom limit left) = pageFrom limit left := by
    show OfferListMessage.sent _ = _
    unfold pageFrom OfferListMessage.sent
    split <;> rfl
  refine ⟨bytes, encoded, @Codec.bounded .offerList _ _ encoded, ?_⟩
  exact (@Codec.decodes .offerList _ _ (by simp)).mpr ⟨same, encoded⟩

end Page

/-! The offers of a run. -/

-- A request that a thread is given was decoded from a frame.
def Event.Readable : Event → Prop
  | .receives _ (.createOffer message) => ∃ bytes, decodeCreateOffer bytes = .ok message
  | _ => True

def Deal.made : Deal → Option RoomId
  | .created id => some id
  | .taken _ => none

def createdIds (steps : List Fired) : List RoomId := (steps.filterMap Fired.deal).filterMap Deal.made

def Tellable (offers : List OpenOffer) : Prop := ∀ offer ∈ offers, ∃ bytes, encodeOfferSummary offer.summary = .ok bytes

structure Told (s : State) : Prop where
  offers : Tellable s.tables.offers
  asked : ∀ worker n message, s.tasks worker = .serving n (.createOffer message) → ∃ bytes, encodeTerms message.terms = .ok bytes

/- What is open was open at the start or has been created since. -/
structure Known (u : State) (steps : List Fired) (s : State) : Prop where
  settled : Settled s
  told : Told s
  known : ∀ offer ∈ s.tables.offers, offer.id ∈ u.tables.offers.map OpenOffer.id ++ createdIds steps

section Runs
variable {config : LobbyConfig} {env : LobbyEnv} {s t u : State} {steps : List Fired} {event : Event}

theorem Deals.fewer {task : Task} {s t : Tables} {deal : Option Deal} (deals : Deals env task s t deal)
    (none : ∀ id, deal ≠ some (.created id)) : t.offers ⊆ s.offers := by
  cases deals with
  | touched same => rw [same.offers]; exact List.Subset.refl _
  | created n offer => exact absurd rfl (none offer.id)
  | joined | cancelled | dropped | removed => exact List.filter_sublist.subset

theorem createTold {s : Tables} {n : Nat} {message : CreateOfferMessage} (terms : ∃ bytes, encodeTerms message.terms = .ok bytes)
    (told : Tellable s.offers) :
    Ensures (handleCreateOffer env n message) s (fun _ t => Tellable t.offers) fun _ t => Tellable t.offers := by
  simp only [handleCreateOffer, ensuresBind, ensuresGet, ensuresLift, throwIf_ok, rejectedOk, ensuresSet, ensuresPure]
  refine ⟨fun _ _ => ⟨fun _ _ => ⟨fun id drawn => ⟨fun _ named => ?_, fun _ _ => told⟩, fun _ _ => told⟩, fun _ _ => told⟩,
    fun _ _ => told⟩
  obtain ⟨bytes, written⟩ := terms
  have valid : ∃ u, validateTerms message.terms = .ok u := by
    simp only [encodeTerms, bind_ok] at written
    exact ⟨_, written.choose_spec.1⟩
  obtain ⟨_, valid⟩ := valid
  intro offer mem
  rcases List.mem_append.mp mem with old | new
  · exact told offer old
  · rw [List.mem_singleton.mp new]
    simp only [encodeOfferSummary, OpenOffer.summary, bind_ok, pure_ok]
    exact ⟨_, (), named, (), valid, bytes, written, rfl⟩

theorem Told.moved (told : Told s) (offers : t.tables.offers ⊆ s.tables.offers) (tasks : ∀ worker n message,
    t.tasks worker = .serving n (.createOffer message) → s.tasks worker = .serving n (.createOffer message)) : Told t where
  offers offer mem := told.offers offer (offers mem)
  asked worker n message serving := told.asked worker n message (tasks worker n message serving)

theorem putAsked {tables : Tables} {worker : Worker} {task : Task} (other : ∀ n message, task ≠ .serving n (.createOffer message))
    (own : Worker) (n : Nat) (message : CreateOfferMessage)
    (serving : (s.put tables worker task).tasks own = .serving n (.createOffer message)) : s.tasks own = .serving n (.createOffer message) := by
  simp only [State.put] at serving
  by_cases same : own = worker
  · rw [same, Function.update_self] at serving
    exact absurd serving (other n message)
  · rwa [Function.update_of_ne same] at serving

theorem needsOther {task : Task} (idle : task.needs = none) (n : Nat) (message : CreateOfferMessage) :
    task ≠ .serving n (.createOffer message) := by
  rintro rfl
  cases idle

theorem dealtCreated {task next : Task} {id : RoomId} (created : dealt task next = some (.created id)) :
    ∃ n message, task = .serving n (.createOffer message) := by
  unfold dealt at created
  split at created
  · exact ⟨_, _, rfl⟩
  all_goals cases created

/- What a thread does leaves only offers that can be told. -/
theorem taskTold (told : Told s) (worker : Worker) :
    Ensures ((s.tasks worker).run config env) s.tables (fun _ t => Tellable t.offers) fun _ t => Tellable t.offers := by
  by_cases creating : ∃ n message, s.tasks worker = .serving n (.createOffer message)
  · obtain ⟨n, message, serving⟩ := creating
    rw [serving]
    exact createTold (told.asked worker n message serving) told.offers
  · have served := taskServed config env (s.tasks worker) s.tables
    unfold Served at served
    unfold Ensures at served ⊢
    cases ran : (s.tasks worker).run config env s.tables with
    | ok next tables =>
      rw [ran] at served
      exact fun offer mem => told.offers offer (served.1.fewer (fun id made => creating (dealtCreated made)) mem)
    | error e tables =>
      rw [ran] at served
      exact fun offer mem => told.offers offer (served.fewer (by simp) mem)

theorem Told.fired (told : Told s) (readable : event.Readable) (fired : fire config s event = some t) : Told t := by
  cases event with
  | connects id =>
      simp only [fire, Option.ite_none_right_eq_some, Option.some.injEq] at fired
      obtain ⟨_, rfl⟩ := fired
      exact told.moved (List.Subset.refl _) fun _ _ _ serving => serving
  | receives n request =>
      simp only [fire, Option.ite_none_right_eq_some, Option.some.injEq] at fired
      obtain ⟨_, rfl⟩ := fired
      refine ⟨told.offers, fun worker m message serving => ?_⟩
      simp only [State.put] at serving
      by_cases same : worker = .client n
      · rw [same, Function.update_self] at serving
        cases serving
        obtain ⟨bytes, decoded⟩ := readable
        have encoded := ((@Codec.decodes .createOffer _ _ (by simp)).mp decoded).2
        simp only [Codec.encode, encodeCreateOffer, bind_ok] at encoded
        obtain ⟨_, _, _, _, terms, written, _⟩ := encoded
        exact ⟨terms, written⟩
      · rw [Function.update_of_ne same] at serving
        exact told.asked worker m message serving
  | leaves n =>
      simp only [fire, Option.ite_none_right_eq_some, Option.some.injEq] at fired
      obtain ⟨_, rfl⟩ := fired
      exact told.moved (List.Subset.refl _) (putAsked (by simp))
  | confirmsFee operator roomId =>
      simp only [fire, Option.ite_none_right_eq_some, Option.some.injEq] at fired
      obtain ⟨_, rfl⟩ := fired
      exact told.moved (List.Subset.refl _) (putAsked (by simp))
  | setsFee fee | hangsUp n =>
      obtain rfl := Option.some.inj fired
      exact told.moved (List.Subset.refl _) fun _ _ _ serving => serving
  | acts worker env =>
      simp only [fire] at fired
      split at fired
      · have left := @taskTold config env _ told worker
        have served := taskServed config env (s.tasks worker) s.tables
        unfold Served at served
        unfold Ensures at left served
        split at fired
        · rename_i next tables ran
          rw [ran] at left served
          obtain rfl := Option.some.inj fired
          exact ⟨left, fun own n message serving => told.asked own n message (putAsked (needsOther served.2) own n message serving)⟩
        · rename_i e tables ran
          rw [ran] at left
          cases worker with
          | client n =>
              simp only [State.thrown, Option.ite_none_left_eq_some, Option.some.injEq] at fired
              obtain ⟨_, rfl⟩ := fired
              refine ⟨fun offer mem => left offer ?_, fun own m message serving => told.asked own m message
                (putAsked (by simp [refusal]) own m message serving)⟩
              rw [← (touchedCaught n e).offers]
              exact mem
          | operator n =>
              obtain rfl := Option.some.inj fired
              exact ⟨left, fun own m message serving => told.asked own m message (putAsked (by simp) own m message serving)⟩
      · contradiction

theorem startedTold (started : Started config s) : Told s := by
  have none := (startedSettled started).2
  refine ⟨fun offer mem => by simp [none] at mem, fun worker n message serving => ?_⟩
  cases started with
  | opened fee => cases serving
  | reloaded fee file _ read =>
      simp only [reload, bind_ok, pure_ok] at read
      obtain ⟨_, _, rfl⟩ := read
      cases serving

theorem Known.later {more : List Fired} (known : Known u steps s) : Known u (steps ++ more) s := by
  refine ⟨known.settled, known.told, fun offer mem => ?_⟩
  have old := known.known offer mem
  simp only [createdIds, List.filterMap_append, List.mem_append] at old ⊢
  tauto

theorem Known.fired (known : Known u steps s) (readable : event.Readable) (fired : fire config s event = some t) :
    Known u (steps ++ [⟨s, event, t⟩]) t := by
  have stepped := fireStepped known.settled fired
  refine ⟨stepped.settled, known.told.fired readable fired, fun offer mem => ?_⟩
  rcases stepped.kept offer.id (offerSome.mpr ⟨offer, mem, rfl⟩) with created | ⟨old, _⟩
  · simp [createdIds, created, Deal.made]
  · obtain ⟨same, there, named⟩ := offerSome.mp old
    rw [← named]
    exact known.later.known same there

/- Every step of a run is one the hub can take, between states that are known. -/
theorem runKnown (settled : Settled u) (told : Told u) (run : Run config u steps t) (readable : ∀ step ∈ steps, step.event.Readable) :
    Known u steps t ∧ ∀ step ∈ steps, Known u steps step.source ∧ fire config step.source step.event = some step.target := by
  induction run with
  | start => exact ⟨⟨settled, told, fun offer mem => List.mem_append_left _ (List.mem_map_of_mem mem)⟩, by simp⟩
  | @step steps s t event before fired ih =>
      obtain ⟨last, earlier⟩ := ih fun step mem => readable step (List.mem_append_left _ mem)
      refine ⟨last.fired (readable ⟨s, event, t⟩ (by simp)) fired, fun step mem => ?_⟩
      rcases List.mem_append.mp mem with old | new
      · exact ⟨(earlier step old).1.later, (earlier step old).2⟩
      · rw [List.mem_singleton.mp new]
        exact ⟨last.later, fired⟩

end Runs

/-! Traversals. -/

/- A request for offers that a thread serves, and the page it answers with. -/
structure Listing where
  step : Fired
  client : Nat
  request : ListOffersMessage
  page : OfferListMessage

namespace Listing
variable (listing : Listing)

def offers : List OpenOffer := listing.step.source.tables.offers

structure Served : Prop where
  acts : ∃ env, listing.step.event = .acts (.client listing.client) env
  serving : listing.step.source.tasks (.client listing.client) = .serving listing.client (.listOffers listing.request)
  answering : listing.step.target.tasks (.client listing.client) = .answering listing.client (.offerList listing.page)

end Listing

/- Requests of which each goes on where the page before it ended. -/
def Traverses : Option RoomId → List Listing → Prop
  | _, [] => True
  | cursor, listing :: later => listing.Served ∧ listing.request.cursor = cursor ∧ 0 < listing.request.limit ∧
      (listing.page.next = none → later = []) ∧ Traverses listing.page.next later

def returned (listings : List Listing) : List OfferSummary := listings.flatMap fun listing => listing.page.offers

def Exhausted (listings : List Listing) : Prop := ∃ last ∈ listings.getLast?, last.page.next = none

section Traversals
variable {config : LobbyConfig} {s : State} {listing : Listing} {listings : List Listing}

theorem firesListing {env : LobbyEnv} {n : Nat} {request : ListOffersMessage}
    (serving : s.tasks (.client n) = .serving n (.listOffers request)) (free : s.tables.drawable env.drawn = true) :
    fire config s (.acts (.client n) env) =
      some (s.put s.tables (.client n) (.answering n (.offerList (offerPage s.tables.offers request)))) := by
  simp only [fire, free, if_true, serving]
  rfl

theorem Listing.Served.page (served : listing.Served)
    (fired : fire config listing.step.source listing.step.event = some listing.step.target) :
    listing.page = offerPage listing.offers listing.request := by
  obtain ⟨env, acts⟩ := served.acts
  rw [acts] at fired
  have free : listing.step.source.tables.drawable env.drawn = true := by
    simp only [fire, Option.ite_none_right_eq_some] at fired
    exact fired.1
  rw [firesListing served.serving free] at fired
  have answering := served.answering
  rw [← Option.some.inj fired] at answering
  simp only [State.put, Function.update_self, Task.answering.injEq, Outgoing.offerList.injEq, true_and] at answering
  exact answering.symm

/- A traversal follows the cursors, as its pages are taken of the offers of their times. -/
theorem traversalFollows {cursor : Option RoomId} (traverses : Traverses cursor listings)
    (fired : ∀ listing ∈ listings, fire config listing.step.source listing.step.event = some listing.step.target)
    (distinct : ∀ listing ∈ listings, (listing.offers.map OpenOffer.id).Nodup) :
    Follows summaryKey (cursor.map Vector.toList)
      (listings.map fun listing => (listing.offers.map OpenOffer.summary, ofMessage listing.page)) := by
  induction listings generalizing cursor with
  | nil => trivial
  | cons listing later ih =>
      obtain ⟨served, named, positive, ends, rest⟩ := traverses
      refine ⟨?_, fun none => ?_, ih rest (fun l mem => fired l (List.mem_cons_of_mem _ mem)) fun l mem =>
        distinct l (List.mem_cons_of_mem _ mem)⟩
      · show TakenOf summaryKey (listing.offers.map OpenOffer.summary) (cursor.map Vector.toList) (ofMessage listing.page)
        rw [served.page (fired listing List.mem_cons_self), ← named]
        exact offerPageTaken (distinct listing List.mem_cons_self) positive
      · rw [ends (by simpa [ofMessage] using none), List.map_nil]

theorem traversalEach {cursor : Option RoomId} (traverses : Traverses cursor listings) :
    ∀ listing ∈ listings, listing.Served ∧ 0 < listing.request.limit := by
  induction listings generalizing cursor with
  | nil => simp
  | cons listing later ih =>
      obtain ⟨served, _, positive, _, rest⟩ := traverses
      exact List.forall_mem_cons.mpr ⟨⟨served, positive⟩, ih rest⟩

theorem endedFinished : Finished (listings.map fun listing => (listing.offers.map OpenOffer.summary, ofMessage listing.page)) ↔
    Exhausted listings := by
  simp [Finished, Exhausted, ofMessage]

theorem handedReturned : handed (listings.map fun listing => (listing.offers.map OpenOffer.summary, ofMessage listing.page)) =
    returned listings := by
  simp [handed, returned, ofMessage, List.flatMap_map]

end Traversals

/- A client that follows the cursors reads the ids in their order, and every offer that is open throughout exactly
once. There are at most as many pages that go on as offers that were open at the start or have been created since. -/
theorem offersPaged {config : LobbyConfig} {start u t : State} {before during : List Fired} {listings : List Listing}
    (started : Started config start) (first : Run config start before u) (run : Run config u during t)
    (readable : ∀ step ∈ before ++ during, step.event.Readable) (asked : (listings.map Listing.step).Sublist during)
    (traverses : Traverses none listings) :
    ((returned listings).map summaryKey).Pairwise (· < ·) ∧
    (∀ listing ∈ listings, listing.page.offers ⊆ listing.offers.map OpenOffer.summary) ∧
    (Exhausted listings → ∀ offer, (∀ listing ∈ listings, offer ∈ listing.offers) →
      offer.summary ∈ returned listings ∧ ((returned listings).map OfferSummary.roomId).count offer.id = 1) ∧
    (¬Exhausted listings → listings.length ≤ u.tables.offers.length + (createdIds during).length) ∧
    ∀ listing ∈ listings, listing.request.limit.toNat ≤ maxOfferPageEntries → ∃ bytes,
      encodeOfferList listing.page = .ok bytes ∧ bytes.length ≤ maxFramePayload ∧ decodeOfferList bytes = .ok listing.page := by
  have opened := (runKnown (startedSettled started).1 (startedTold started) first fun step mem =>
    readable step (List.mem_append_left _ mem)).1
  obtain ⟨last, steps⟩ := runKnown opened.settled opened.told run fun step mem => readable step (List.mem_append_right _ mem)
  have taken : ∀ listing ∈ listings, listing.step ∈ during := fun listing mem => asked.subset (List.mem_map_of_mem mem)
  have follows := traversalFollows traverses (fun listing mem => (steps _ (taken listing mem)).2) fun listing mem =>
    (steps _ (taken listing mem)).1.settled.tidy.offersKeyed
  have rising := follows.rising
  rw [handedReturned] at rising
  have distinct : ((returned listings).map OfferSummary.roomId).Nodup := by
    refine List.Nodup.of_map Vector.toList ?_
    rw [List.map_map]
    exact rising.imp fun less => Std.ne_of_lt less
  have pages : ∀ listing ∈ listings, listing.page = offerPage listing.offers listing.request := fun listing mem =>
    (traversalEach traverses listing mem).1.page (steps _ (taken listing mem)).2
  have listed : ∀ listing ∈ listings, listing.page.offers ⊆ listing.offers.map OpenOffer.summary := by
    intro listing mem
    rw [pages listing mem]
    exact (offerPageTaken (steps _ (taken listing mem)).1.settled.tidy.offersKeyed (traversalEach traverses listing mem).2).there
  refine ⟨rising, listed, ?_, ?_, ?_⟩
  · intro ended offer open_
    have there : offer.summary ∈ returned listings := by
      rw [← handedReturned]
      refine follows.complete (endedFinished.mpr ended) ?_ (by simp [Behind])
      intro pair mem
      obtain ⟨listing, inside, rfl⟩ := List.mem_map.mp mem
      exact List.mem_map_of_mem (open_ listing inside)
    exact ⟨there, List.count_eq_one_of_mem distinct (List.mem_map_of_mem (f := OfferSummary.roomId) there)⟩
  · intro goesOn
    have counted := follows.length fun finished => goesOn (endedFinished.mp finished)
    rw [List.length_map, handedReturned] at counted
    have few : (returned listings).map OfferSummary.roomId ⊆ u.tables.offers.map OpenOffer.id ++ createdIds during := by
      intro id mem
      obtain ⟨summary, told, rfl⟩ := List.mem_map.mp mem
      obtain ⟨listing, inside, here⟩ := List.mem_flatMap.mp told
      obtain ⟨offer, there, rfl⟩ := List.mem_map.mp (listed listing inside here)
      exact (steps _ (taken listing inside)).1.known offer there
    have bound := (distinct.subperm few).length_le
    simp only [List.length_map, List.length_append] at bound
    omega
  · intro listing mem short
    rw [pages listing mem, offerPageFrom]
    refine pageFromSent (by simpa [UInt16.lt_iff_toNat_lt] using (traversalEach traverses listing mem).2) short ?_
    intro summary inside
    obtain ⟨offer, there, rfl⟩ := List.mem_map.mp (leftOffers summary inside)
    exact (steps _ (taken listing mem)).1.told.offers offer there

section Swap
open Hub MediatorSession

def onePage : ListOffersMessage := { limit := 1 }

def swapAsked : List Event := swapOffered ++ [.receives 0 (.listOffers onePage)]

def noDraw : LobbyEnv := ⟨swapEnv, .error (.runtimeError "RAND_bytes failed")⟩

theorem swapAsking : (play swapLobby [] (opened swapFee) swapAsked).map (fun run => (decide (run.2.tasks (.client 0) =
      .serving 0 (.listOffers onePage)), (offerPage run.2.tables.offers onePage).next,
      (offerPage run.2.tables.offers onePage).offers.map OfferSummary.roomId)) = some (true, none, [swapRoom]) ∧
    (encodeCreateOffer ⟨swapCreator.terms, swapCreator.receiveAddressA⟩).isOk = true := by
  decide +kernel

theorem playEvents {config : LobbyConfig} {s t : State} {steps all : List Fired} {events : List Event}
    (played : play config steps s events = some (all, t)) : all.map Fired.event = steps.map Fired.event ++ events := by
  induction events generalizing steps s with
  | nil =>
      cases played
      rw [List.append_nil]
  | cons event later ih =>
      obtain ⟨u, _, rest⟩ := Option.bind_eq_some_iff.mp played
      rw [ih rest]
      simp

theorem swapReadable : ∀ event ∈ swapAsked, event.Readable := by
  have written := swapAsking.2
  cases encoded : encodeCreateOffer ⟨swapCreator.terms, swapCreator.receiveAddressA⟩ with
  | error e =>
      rw [encoded] at written
      cases written
  | ok bytes =>
      have sent : ∃ bytes, decodeCreateOffer bytes = .ok ⟨swapCreator.terms, swapCreator.receiveAddressA⟩ :=
        ⟨bytes, (@Codec.decodes .createOffer _ _ (by simp)).mpr ⟨rfl, encoded⟩⟩
      simp [swapAsked, swapOffered, Event.Readable, sent]

def swapListing (u : State) : Listing where
  step := ⟨u, .acts (.client 0) noDraw, u.put u.tables (.client 0) (.answering 0 (.offerList (offerPage u.tables.offers onePage)))⟩
  client := 0
  request := onePage
  page := offerPage u.tables.offers onePage

-- The offer that was made is on the one page that is asked for.
theorem swapPaged : ∃ steps u t, Run swapLobby (opened swapFee) steps u ∧ Run swapLobby u [(swapListing u).step] t ∧
    Exhausted [swapListing u] ∧ (returned [swapListing u]).map OfferSummary.roomId = [swapRoom] ∧
    ((returned [swapListing u]).map summaryKey).Pairwise (· < ·) := by
  obtain ⟨⟨steps, u⟩, played, facts⟩ := Option.map_eq_some_iff.mp swapAsking.1
  simp only [Prod.mk.injEq, decide_eq_true_eq] at facts
  obtain ⟨serving, ends, shown⟩ := facts
  have ran := playRun .start played
  have run : Run swapLobby u [(swapListing u).step] (swapListing u).step.target := Run.start.step (firesListing serving rfl)
  have readable : ∀ step ∈ steps ++ [(swapListing u).step], step.event.Readable := by
    intro step mem
    rcases List.mem_append.mp mem with earlier | last
    · have events := playEvents played
      rw [List.map_nil, List.nil_append] at events
      exact swapReadable _ (events ▸ List.mem_map_of_mem earlier)
    · rw [List.mem_singleton.mp last]
      exact True.intro
  have served : (swapListing u).Served := ⟨⟨noDraw, rfl⟩, serving, by simp [swapListing, State.put]⟩
  have traverses : Traverses none [swapListing u] := ⟨served, rfl, show 0 < onePage.limit by decide, fun _ => rfl, True.intro⟩
  refine ⟨steps, u, _, ran, run, ⟨_, rfl, ends⟩, ?_, (offersPaged (.opened swapFee) ran run readable (.refl _) traverses).1⟩
  rw [returned, List.flatMap_singleton]
  exact shown

end Swap
end Lobby
end TradeP2P
