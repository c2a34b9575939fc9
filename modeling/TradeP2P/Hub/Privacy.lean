import TradeP2P.Hub.Unseen

/-! Whether the progress of a room stays between its parties and the operator. Two runs of the hub that differ in how far
one room has come are the same to every other client, unless he asks: the room's id was on the list of offers, and
whoever knows it is told. -/
namespace TradeP2P
open Checks Machine Unwinding

namespace Lobby

/-! Runs that differ in the reports, the acknowledgements and the fee of one room. -/

def settles : Delivery.Request → Bool
  | .call (.sent _ _) | .call (.received _ _) | .call (.receiptAck _ _) | .call (.confirmFee _) => true
  | _ => false

def About (s : Tables) (place : Nat) (request : Delivery.Request) : Prop := ∃ room ∈ s.entries[place]?, roomOf request = some room.id

def PartyOf (s : Tables) (place n : Nat) : Prop :=
  ∃ client ∈ s.accepted[n]?, ∃ room ∈ s.entries[place]?, client.id = room.partyA ∨ client.id = room.partyB

inductive Settling (s : Tables) (place : Nat) : Task → Prop where
  | serving (n : Nat) (request : Delivery.Request) (kind : settles request = true) (about : About s place request) :
      Settling s place (.serving n (.room request))
  | room (receivers : Receivers) (thread : Delivery.Thread) : Settling s place (.room place receivers thread)
  | answering (n : Nat) (frame : Outgoing) : Settling s place (.answering n frame)

inductive Inner (place : Nat) (s : State) : Event → Prop where
  | receives (n : Nat) (request : Delivery.Request) (party : PartyOf s.tables place n) (kind : settles request = true)
      (about : About s.tables place request) : Inner place s (.receives n (.room request))
  | confirmsFee (operator : Nat) (room : RoomEntry) (there : s.tables.entries[place]? = some room) :
      Inner place s (.confirmsFee operator room.id)
  | acts (worker : Worker) (env : LobbyEnv) (party : ∀ n, worker = .client n → PartyOf s.tables place n)
      (settling : Settling s.tables place (s.tasks worker)) : Inner place s (.acts worker env)

/- A room has ended once it is off the table, or its trade goes on record. -/
structure Before (place : Nat) (s : State) (event : Event) (t : State) : Prop where
  listed : place < t.tables.entries.length → place ∈ t.tables.rooms
  unrecorded : ∀ worker env receivers rest, event = .acts worker env →
    s.tasks worker ≠ .room place receivers (.telling (.recordTrade :: rest))

/- A client's request for the state of the room is served. -/
def Asks (viewer place : Nat) (s : State) (event : Event) : Prop :=
  ∃ worker env message, event = .acts worker env ∧ s.tasks worker = .serving viewer (.recoveryState message) ∧
    ∃ room ∈ s.tables.entries[place]?, message.roomId = room.id

def settlementRuns (config : LobbyConfig) (place : Nat) (allowed : State → Event → Prop) : System State Event where
  fire := fire config
  inner := Inner place
  meets s event t := Before place s event t ∧ allowed s event

def frames (s : State) (n : Nat) : List Outgoing := (s.tables.accepted[n]?.map Client.outgoing).getD []

/-! What the threads are about. -/

def Task.subject : Task → Option Nat
  | .serving n _ | .answering n _ | .recovering n _ _ _ | .leaving n => some n
  | .idle | .room .. | .removing .. => none

inductive OperatorTask : Task → Prop where
  | idle : OperatorTask .idle
  | serving (roomId : RoomId) : OperatorTask (.serving 0 (.room (.call (.confirmFee roomId))))
  | room (q : Nat) (receivers : Receivers) (thread : Delivery.Thread) : OperatorTask (.room q receivers thread)

/- A thread works for its own client, and none that works on the room works for the viewer. -/
structure Fine (viewer place : Nat) (s : Tables) (worker : Worker) (task : Task) : Prop where
  subject : ∀ k n, worker = .client k → task.subject = some n → n = k
  operator : ∀ k, worker = .operator k → OperatorTask task
  there : ∀ k, worker = .client k → task ≠ .idle → k < s.accepted.length
  called : ∀ n request, worker = .client viewer → task = .serving n (.room request) →
    ∃ client, s.accepted[viewer]? = some client ∧ request.by (.client client.id) = true
  recovering : ∀ n stage response, task = .recovering n place stage response → worker ≠ .client viewer
  room : ∀ receivers thread, task = .room place receivers thread → worker ≠ .client viewer ∧ receivers.Misses viewer
  removing : ∀ q receivers thread rest, task = .removing q receivers thread rest → q ≠ place ∧ place ∉ rest

/- What the threads of others may be at while they differ. -/
inductive Hidden (place : Nat) (s : Tables) : Task → Prop where
  | idle : Hidden place s .idle
  | serving (n : Nat) (request : Delivery.Request) (about : About s place request) : Hidden place s (.serving n (.room request))
  | room (receivers : Receivers) (thread : Delivery.Thread) : Hidden place s (.room place receivers thread)
  | answering (n : Nat) (frame : Outgoing) : Hidden place s (.answering n frame)
  | recovering (n : Nat) (stage : RecoveryStage) (response : RecoveryStateResponseMessage) :
      Hidden place s (.recovering n place stage response)

section Tasks
variable {viewer place n : Nat} {s u : Tables} {worker : Worker} {task : Task} {config : LobbyConfig} {env : LobbyEnv}

theorem fineIdle : Fine viewer place s worker .idle where
  subject _ _ _ none_ := by cases none_
  operator _ _ := .idle
  there _ _ some_ := absurd rfl some_
  called _ _ _ is := by cases is
  recovering _ _ _ is := by cases is
  room _ _ is := by cases is
  removing _ _ _ _ is := by cases is

theorem fineAnswering (there : n < s.accepted.length) (frame : Outgoing) : Fine viewer place s (.client n) (.answering n frame) where
  subject k m own is := by
    cases own
    cases is
    rfl
  operator _ is := by cases is
  there k own _ := by
    cases own
    exact there
  called _ _ _ is := by cases is
  recovering _ _ _ is := by cases is
  room _ _ is := by cases is
  removing _ _ _ _ is := by cases is

theorem Fine.grows (fine : Fine viewer place s worker task) (longer : s.accepted.length ≤ u.accepted.length)
    (same : ∀ client, s.accepted[viewer]? = some client → ∃ client', u.accepted[viewer]? = some client' ∧ client'.id = client.id) :
    Fine viewer place u worker task where
  subject := fine.subject
  operator := fine.operator
  there k own busy := (fine.there k own busy).trans_le longer
  called n request own is := by
    obtain ⟨client, accepted, by_⟩ := fine.called n request own is
    obtain ⟨client', accepted', id⟩ := same client accepted
    exact ⟨client', accepted', id ▸ by_⟩
  recovering := fine.recovering
  room := fine.room
  removing := fine.removing

theorem Fine.client (fine : Fine viewer place s worker task) (other : ¬OperatorTask task) : ∃ k, worker = .client k := by
  cases worker with
  | client k => exact ⟨k, rfl⟩
  | operator k => exact absurd (fine.operator k rfl) other

/- What a thread turns to. -/
inductive Turns (s u : Tables) (task : Task) : Task → Prop where
  | idle : Turns s u task .idle
  | answering (n : Nat) (frame : Outgoing) (subject : task.subject = some n) (busy : ¬OperatorTask task) : Turns s u task (.answering n frame)
  | looking (n q : Nat) (message : RecoveryStateRequestMessage) (stage : RecoveryStage) (response : RecoveryStateResponseMessage)
      (was : task = .serving n (.recoveryState message)) (found : s.room message.roomId = some q) :
      Turns s u task (.recovering n q stage response)
  | recovering (n q : Nat) (stage before : RecoveryStage) (response earlier : RecoveryStateResponseMessage)
      (was : task = .recovering n q before earlier) : Turns s u task (.recovering n q stage response)
  | joined (n q creator : Nat) (message : JoinOfferMessage) (room : RoomEntry) (thread : Delivery.Thread)
      (was : task = .serving n (.joinOffer message)) (inside : creator ∈ s.clients) (there : u.entries[q]? = some room)
      (partyA : room.partyA = s.idOf creator) (partyB : room.partyB = s.idOf n) :
      Turns s u task (.room q ⟨some creator, some n⟩ thread)
  | called (n q : Nat) (request : Delivery.Request) (receivers : Receivers) (thread : Delivery.Thread)
      (was : task = .serving n (.room request)) (found : (roomOf request).bind s.room = some q) : Turns s u task (.room q receivers thread)
  | room (q : Nat) (receivers before : Receivers) (thread earlier : Delivery.Thread) (was : task = .room q before earlier) :
      Turns s u task (.room q receivers thread)
  | leaving (n q : Nat) (receivers : Receivers) (thread : Delivery.Thread) (rest : List Nat) (was : task = .leaving n)
      (inside : ∀ r ∈ q :: rest, r ∈ s.rooms ∧ r ∉ u.rooms) (entries : u.entries = s.entries) :
      Turns s u task (.removing q receivers thread rest)
  | removing (q q' : Nat) (receivers before : Receivers) (thread earlier : Delivery.Thread) (rest rest' : List Nat)
      (was : task = .removing q before earlier rest) (later : q' :: rest' = rest ∨ q' :: rest' = q :: rest) :
      Turns s u task (.removing q' receivers thread rest')

abbrev TurnsTo (task : Task) (s : Tables) (x : TablesM Task) : Prop := Ensures x s (fun next u => Turns s u task next) (fun _ _ => True)

theorem joinTurns (message : JoinOfferMessage) : TurnsTo (.serving n (.joinOffer message)) s (handleJoinOffer config n message) := by
  simp only [TurnsTo, handleJoinOffer, ensuresBind, ensuresGet]
  split
  · exact True.intro
  next offer found =>
    simp only [ensuresBind, ensuresLift, implies_true, and_true]
    intro _ _ _ _
    split
    · exact True.intro
    next creator there =>
      simp only [ensuresBind, ensuresLift, ensuresSet, ensuresPure, rejectedOk, implies_true, and_true]
      intro room opened
      have same := fromOfferSame opened
      simp only [identity, Identity.mk.injEq] at same
      have own : s.idOf creator = offer.creator := by simpa using List.find?_some there
      exact .joined n _ creator message room _ rfl (List.mem_of_find?_eq_some there) (by simp) (same.2.1.trans own.symm) same.2.2

theorem removalTurns {rest : List Nat} {task : Task} (stops : Turns s u task .idle)
    (later : ∀ q rest', q :: rest' = rest → Turns s u task (.removing q {} (.locking .disconnect) rest')) : Turns s u task (removal rest) := by
  cases rest with
  | nil => exact stops
  | cons q rest' => exact later q rest' rfl

theorem roomTurns {q : Nat} {receivers : Receivers} {thread : Delivery.Thread} {k : Receivers × Delivery.Thread → TablesM Task}
    (next : ∀ a u, ∃ next, k a = pure next ∧ Turns s u task next) : TurnsTo task s (runRoom config env q receivers thread >>= k) := by
  rw [TurnsTo, ensuresBind]
  have anything : Ensures (runRoom config env q receivers thread) s (fun _ _ => True) (fun _ _ => True) := by
    unfold Ensures
    split <;> exact True.intro
  refine anything.weaken (fun a u _ _ => ?_) (fun _ _ _ _ => True.intro)
  obtain ⟨next, goesOn, turns⟩ := next a u
  rw [goesOn, ensuresPure]
  exact turns

theorem roomTaskTurns {q : Nat} {receivers : Receivers} {thread : Delivery.Thread} (room : Turns s u task (.room q receivers thread)) :
    Turns s u task (roomTask q receivers thread) := by
  unfold roomTask
  split
  · exact .idle
  · exact room

theorem taskTurns (config : LobbyConfig) (env : LobbyEnv) (task : Task) (s : Tables) : TurnsTo task s (task.run config env) := by
  have busy (n : Nat) (request : Request) (other : ∀ id, request ≠ .room (.call (.confirmFee id))) : ¬OperatorTask (.serving n request) := by
    rintro (_ | id | _)
    exact other id rfl
  cases task with
  | idle => exact .idle
  | answering n frame =>
    simp only [Task.run, answer, TurnsTo, ensuresBind, ensuresLift, ensuresModify, ensuresPure, implies_true, and_true]
    exact fun _ _ => .idle
  | recovering n q stage response =>
    have reads : ¬OperatorTask (.recovering n q stage response) := by rintro (_ | _ | _)
    simp only [Task.run, recover, TurnsTo, ensuresBind, ensuresGet]
    split
    · exact True.intro
    · cases stage with
      | partyB => exact .answering n _ rfl reads
      | _ => exact .recovering n q _ _ _ _ rfl
  | room q receivers thread => exact roomTurns fun a u => ⟨_, rfl, roomTaskTurns (.room q _ _ _ _ rfl)⟩
  | leaving n =>
    refine removalTurns .idle fun q rest same => ?_
    refine .leaving n q _ _ rest rfl (fun r mem => ?_) rfl
    rw [same] at mem
    exact ⟨(List.mem_filter.mp mem).1, fun still => by simpa [mem] using (List.mem_filter.mp still).2⟩
  | removing q receivers thread rest =>
    refine roomTurns fun a u => ⟨_, rfl, ?_⟩
    split
    · exact removalTurns .idle fun q' rest' same => .removing q q' _ _ _ _ rest rest' rfl (.inl same)
    · exact .removing q q _ _ _ _ rest rest rfl (.inr rfl)
  | serving n request =>
    cases request with
    | joinOffer message => exact joinTurns message
    | createOffer message =>
      simp only [Task.run, serve, handleCreateOffer, TurnsTo, ensuresBind, ensuresGet, ensuresLift, ensuresSet, ensuresPure, implies_true,
        and_true]
      exact fun _ _ _ _ _ _ _ _ => .answering n _ rfl (busy n _ fun _ => by simp)
    | listOffers request => exact .answering n _ rfl (busy n _ fun _ => by simp)
    | getCandles request => exact .answering n _ rfl (busy n _ fun _ => by simp)
    | cancelOffer message =>
      simp only [Task.run, serve, handleCancelOffer, TurnsTo, ensuresBind, ensuresGet]
      split
      · exact True.intro
      · simp only [ensuresBind, ensuresLift, ensuresSet, ensuresPure, implies_true, and_true]
        exact fun _ _ => .answering n _ rfl (busy n _ fun _ => by simp)
    | recoveryState message =>
      simp only [Task.run, serve, handleRecoveryStateRequest, TurnsTo, ensuresBind, ensuresGet]
      split
      · exact .answering n _ rfl (busy n _ fun _ => by simp)
      next q found => exact .looking n q message _ _ rfl found
    | room request =>
      simp only [Task.run, serve, handleRoom, TurnsTo, ensuresBind, ensuresGet]
      split
      · rw [ensuresLift]
        refine ⟨fun next ok => ?_, fun _ _ => True.intro⟩
        rw [missingIdle ok]
        exact .idle
      next q found => exact roomTurns fun a u => ⟨_, rfl, roomTaskTurns (.called n q request _ _ rfl found)⟩
    | unreadable e => exact True.intro

/- A thread that comes to the room misses the viewer, but for the one that has just joined him to it. -/
theorem Fine.rooms (config : LobbyConfig) (env : LobbyEnv) (fine : Fine viewer place s worker task) (tidy : Tidy s) (outsider : Outsider viewer place s) :
    Ensures (task.run config env) s (fun next _ => ∀ receivers thread, next = .room place receivers thread →
      (∀ n message, task ≠ .serving n (.joinOffer message)) → worker ≠ .client viewer ∧ receivers.Misses viewer) (fun _ _ => True) := by
  have after {receivers : Receivers} {now : Delivery.Thread} {q : Nat} {found : Receivers × Delivery.Thread}
      (misses : found.1.Misses viewer) (is : roomTask q found.1 found.2 = .room place receivers now) : receivers.Misses viewer := by
    unfold roomTask at is
    split at is
    · cases is
    · cases is
      exact misses
  refine (taskTurns config env task s).weaken (fun next u ran turns receivers thread is stays => ?_) fun _ _ _ _ => True.intro
  cases turns with
  | joined n q creator message room thread was => exact absurd was (stays n message)
  | called n q request receivers thread was found =>
    cases is
    subst was
    have apart : worker ≠ .client viewer := by
      intro own
      obtain ⟨client, accepted, by_⟩ := fine.called n request own rfl
      obtain ⟨roomId, about, there⟩ := Option.bind_eq_some_iff.mp found
      obtain ⟨e, refused⟩ := refusedOutside config.hub env.hub by_ about
      have fails := callRefused config env outsider accepted about there refused
      cases fails.symm.trans ran
    refine ⟨apart, ?_⟩
    have misses : Ensures (handleRoom config env request) s (fun next _ => ∀ r th, next = .room place r th → r.Misses viewer)
        (fun _ _ => True) := by
      simp only [handleRoom, ensuresBind, ensuresGet, found]
      exact (missesRun outsider tidy ⟨by simp, by simp⟩ request.thread).weaken (fun a _ _ misses r th is => after misses is)
        fun _ _ _ _ => True.intro
    have ran : handleRoom config env request s = .ok (.room place receivers thread) u := ran
    rw [Ensures, ran] at misses
    exact misses receivers thread rfl
  | room q receivers before thread earlier was =>
    cases is
    subst was
    obtain ⟨apart, misses⟩ := fine.room before earlier rfl
    refine ⟨apart, ?_⟩
    have misses : Ensures (Task.run config env (.room place before earlier)) s (fun next _ => ∀ r th, next = .room place r th → r.Misses viewer)
        (fun _ _ => True) := by
      rw [Task.run, ensuresBind]
      exact (missesRun outsider tidy misses earlier).weaken (fun a _ _ misses r th is => after misses is)
        fun _ _ _ _ => True.intro
    rw [Ensures, ran] at misses
    exact misses receivers thread rfl
  | _ => cases is

theorem ownSame (ids : u.accepted.map Client.id = s.accepted.map Client.id) {m : Nat} {client : Client} (there : s.accepted[m]? = some client) :
    ∃ client', u.accepted[m]? = some client' ∧ client'.id = client.id := by
  have same : u.accepted[m]?.map Client.id = some client.id := by
    rw [← List.getElem?_map, ids, List.getElem?_map, there]
    rfl
  exact Option.map_eq_some_iff.mp same

theorem idOfThere {m : Nat} (there : m < s.accepted.length) : ∃ client, s.accepted[m]? = some client ∧ client.id = s.idOf m := by
  have accepted := List.getElem?_eq_getElem there
  exact ⟨_, accepted, by rw [Tables.idOf, accepted]; rfl⟩

theorem Fine.next {next : Task} (fine : Fine viewer place s worker task) (turns : Turns s u task next) (tidy : Tidy s)
    (ids : u.accepted.map Client.id = s.accepted.map Client.id) (outsider : Outsider viewer place u)
    (stays : place < u.entries.length → place ∈ u.rooms)
    (discreet : ∀ message, task = .serving viewer (.recoveryState message) → s.room message.roomId ≠ some place)
    (rooms : ∀ receivers thread, next = .room place receivers thread → (∀ n message, task ≠ .serving n (.joinOffer message)) →
      worker ≠ .client viewer ∧ receivers.Misses viewer) : Fine viewer place u worker next := by
  have size : u.accepted.length = s.accepted.length := by simpa using congrArg List.length ids
  have toRoom {q : Nat} {receivers : Receivers} {thread : Delivery.Thread} (there : ∀ k, worker = .client k → k < s.accepted.length)
      (misses : q = place → worker ≠ .client viewer ∧ receivers.Misses viewer) : Fine viewer place u worker (.room q receivers thread) := by
    refine ⟨fun _ _ _ is => (by cases is), fun _ _ => .room _ _ _, fun k own _ => size ▸ there k own, fun _ _ _ is => (by cases is),
      fun _ _ _ is => (by cases is), fun _ _ is => ?_, fun _ _ _ _ is => (by cases is)⟩
    cases is
    exact misses rfl
  have busy (some_ : task ≠ .idle) (k : Nat) (own : worker = .client k) : k < s.accepted.length := fine.there k own some_
  cases turns with
  | idle => exact fineIdle
  | answering n frame subject other =>
    obtain ⟨k, rfl⟩ := fine.client other
    obtain rfl := fine.subject k n rfl subject
    exact fineAnswering (size ▸ fine.there n rfl fun none_ => (by rw [none_] at subject; cases subject)) frame
  | looking n q message stage response was found =>
    subst was
    obtain ⟨k, rfl⟩ := fine.client (by rintro (_ | _ | _))
    obtain rfl := fine.subject k n rfl rfl
    refine ⟨fun k m own is => (by cases own; cases is; rfl), fun _ is => (by cases is), fun k own _ => ?_, fun _ _ _ is => (by cases is),
      fun m stage response is own => ?_, fun _ _ is => (by cases is), fun _ _ _ _ is => (by cases is)⟩
    · rw [size]
      exact fine.there k own (by simp)
    · cases is
      cases own
      exact discreet message rfl found
  | recovering n q stage before response earlier was =>
    subst was
    obtain ⟨k, rfl⟩ := fine.client (by rintro (_ | _ | _))
    obtain rfl := fine.subject k n rfl rfl
    refine ⟨fun k m own is => (by cases own; cases is; rfl), fun _ is => (by cases is), fun k own _ => ?_, fun _ _ _ is => (by cases is),
      fun m stage response is own => ?_, fun _ _ is => (by cases is), fun _ _ _ _ is => (by cases is)⟩
    · rw [size]
      exact fine.there k own (by simp)
    · cases is
      exact fine.recovering n before earlier rfl own
  | joined n q creator message room thread was inside there partyA partyB =>
    subst was
    obtain ⟨k, rfl⟩ := fine.client (by rintro (_ | _ | _))
    obtain rfl := fine.subject k n rfl rfl
    refine toRoom (busy (by simp)) fun here => ?_
    subst here
    have apart {m : Nat} (accepted : m < s.accepted.length) (party : room.partyA = s.idOf m ∨ room.partyB = s.idOf m) : m ≠ viewer := by
      rintro rfl
      obtain ⟨client, found, own⟩ := idOfThere accepted
      obtain ⟨client', found', same⟩ := ownSame ids found
      obtain ⟨notA, notB⟩ := outsider.others client' found' room there
      rw [same, own] at notA notB
      rcases party with isA | isB
      · exact notA isA.symm
      · exact notB isB.symm
    have joiner := apart (fine.there n rfl (by simp)) (.inr partyB)
    have creator := apart (tidy.clientsThere creator inside) (.inl partyA)
    exact ⟨fun own => joiner (by cases own; rfl), fun is => creator (Option.some.inj is), fun is => joiner (Option.some.inj is)⟩
  | called n q request receivers thread was found =>
    refine toRoom (busy (by simp [was])) fun here => ?_
    subst here
    exact rooms receivers thread rfl fun _ _ => (by simp [was])
  | room q receivers before thread earlier was =>
    refine toRoom (busy (by simp [was])) fun here => ?_
    subst here
    exact rooms receivers thread rfl fun _ _ => (by simp [was])
  | leaving n q receivers thread rest was inside entries =>
    subst was
    obtain ⟨k, rfl⟩ := fine.client (by rintro (_ | _ | _))
    have gone (mem : place ∈ q :: rest) : False := by
      obtain ⟨listed, off⟩ := inside place mem
      obtain ⟨room, there, _⟩ := tidy.parties place listed
      exact off (stays (entries ▸ (List.getElem?_eq_some_iff.mp there).1))
    refine ⟨fun _ _ _ is => (by cases is), fun _ is => (by cases is), fun k own _ => size ▸ busy (by simp) k own, fun _ _ _ is => (by cases is),
      fun _ _ _ is => (by cases is), fun _ _ is => (by cases is), fun _ _ _ _ is => ?_⟩
    cases is
    exact ⟨fun here => gone (here ▸ List.mem_cons_self), fun mem => gone (List.mem_cons_of_mem _ mem)⟩
  | removing q q' receivers before thread earlier rest rest' was later =>
    subst was
    obtain ⟨k, rfl⟩ := fine.client (by rintro (_ | _ | _))
    obtain ⟨other, others⟩ := fine.removing q before earlier rest rfl
    refine ⟨fun _ _ _ is => (by cases is), fun _ is => (by cases is), fun k own _ => size ▸ busy (by simp) k own, fun _ _ _ is => (by cases is),
      fun _ _ _ is => (by cases is), fun _ _ is => (by cases is), fun _ _ _ _ is => ?_⟩
    cases is
    rcases later with next | same
    · exact ⟨fun here => others (next ▸ here ▸ List.mem_cons_self), fun mem => others (next ▸ List.mem_cons_of_mem _ mem)⟩
    · cases same
      exact ⟨other, others⟩

end Tasks

/-! One step of a thread. -/
section Steps
variable {viewer place : Nat} {s t u : Tables} {worker : Worker} {task : Task} {config : LobbyConfig} {env : LobbyEnv}

theorem Hidden.seen (seen : Seen viewer place s t) (hidden : Hidden place s task) : Hidden place t task := by
  cases hidden with
  | serving n request about =>
    obtain ⟨room, there, named⟩ := about
    have same := seen.named place
    rw [there] at same
    obtain ⟨room', there', alike⟩ := Option.map_eq_some_iff.mp same.symm
    exact .serving n request ⟨room', there', named.trans (congrArg some (congrArg Identity.id alike).symm)⟩
  | idle => exact .idle
  | room receivers thread => exact .room receivers thread
  | answering n frame => exact .answering n frame
  | recovering n stage response => exact .recovering n stage response

/- A call is about the room if it finds it. -/
theorem aboutFound (tidy : Tidy s) (listed : place < s.entries.length → place ∈ s.rooms) {request : Delivery.Request} :
    About s place request ↔ (roomOf request).bind s.room = some place := by
  constructor
  · rintro ⟨room, there, named⟩
    have inside := listed (List.getElem?_eq_some_iff.mp there).1
    rw [named, Option.bind_some]
    cases found : s.room room.id with
    | none => exact absurd rfl (roomNone.mp found place inside room there)
    | some q =>
      obtain ⟨here, other, there', same⟩ := roomFound found
      by_contra differs
      have : Std.Symm fun p q : Nat => ∀ room other : RoomEntry, s.entries[p]? = some room → s.entries[q]? = some other → room.id ≠ other.id :=
        ⟨fun p q others room other there there' => (others other room there' there).symm⟩
      have apart := tidy.roomsKeyed.forall here inside fun is => differs (by rw [is])
      exact apart other room there' there same
  · intro found
    obtain ⟨id, about, found⟩ := Option.bind_eq_some_iff.mp found
    obtain ⟨_, room, there, named⟩ := roomFound found
    exact ⟨room, there, by rw [about, named]⟩

/- What is not hidden goes on alike in two states that look the same. -/
theorem Seen.shown (seen : Seen viewer place s t) (fine : Fine viewer place s worker task) (tidy : Tidy s)
    (outsider : Outsider viewer place s) (outsider' : Outsider viewer place t)
    (listed : place < s.entries.length → place ∈ s.rooms) (shown : worker = .client viewer ∨ ¬Hidden place s task)
    (leaves : ∀ n, task = .leaving n → ∀ room ∈ s.entries[place]?, place ∈ s.rooms → abandons (s.idOf n) room = false)
    (leaves' : ∀ n, task = .leaving n → ∀ room ∈ t.entries[place]?, place ∈ t.rooms → abandons (t.idOf n) room = false) :
    Twins (Seen viewer place) (task.run config env) (task.run config env) s t := by
  cases task with
  | idle => exact twinsPure seen _
  | answering n frame => exact seen.answers frame
  | recovering n q stage response =>
    refine seen.reads (fun here => ?_) stage response
    subst here
    rcases shown with own | open_
    · exact fine.recovering n stage response rfl own
    · exact open_ (.recovering n stage response)
  | room q receivers thread =>
    have other : q ≠ place := by
      rintro rfl
      rcases shown with own | open_
      · exact (fine.room receivers thread rfl).1 own
      · exact open_ (.room receivers thread)
    exact (seen.runs other receivers thread).bind fun _ _ _ seen => twinsPure seen _
  | leaving n => exact seen.leaves (leaves n rfl) (leaves' n rfl)
  | removing q receivers thread rest =>
    exact (seen.runs (fine.removing q receivers thread rest rfl).1 receivers thread).bind fun _ _ _ seen => twinsPure seen _
  | serving n request =>
    cases request with
    | createOffer message => exact seen.creates message
    | listOffers request => exact seen.lists request
    | joinOffer message => exact seen.joins message
    | cancelOffer message => exact seen.cancels message
    | recoveryState message => exact seen.recovers message
    | getCandles request => exact seen.candles request
    | unreadable e => exact twinsThrow seen _
    | room request =>
      by_cases about : (roomOf request).bind s.room = some place
      · rcases shown with own | open_
        · obtain ⟨client, accepted, by_⟩ := fine.called n request own rfl
          obtain ⟨roomId, names, found⟩ := Option.bind_eq_some_iff.mp about
          obtain ⟨e, refused⟩ := refusedOutside config.hub env.hub by_ names
          have fails := callRefused config env outsider accepted names found refused
          have fails' := callRefused config env outsider' (seen.own ▸ accepted) names (seen.room ▸ found) refused
          have run (x : Tables) : Task.run config env (.serving n (.room request)) x = handleRoom config env request x := rfl
          unfold Twins
          rw [run, run, fails, fails']
          exact ⟨rfl, seen⟩
        · exact absurd (.serving n request ((aboutFound tidy listed).mpr about)) open_
      · exact seen.calls request about

/- What is hidden stays hidden, and the step shows nothing. -/
theorem unseenStep (config : LobbyConfig) (env : LobbyEnv) (fine : Fine viewer place s worker task) (tidy : Tidy s) (outsider : Outsider viewer place s)
    (listed : place < s.entries.length → place ∈ s.rooms) (hidden : Hidden place s task) (apart : worker ≠ .client viewer)
    (unrecorded : ∀ receivers rest, task ≠ .room place receivers (.telling (.recordTrade :: rest))) :
    Ensures (task.run config env) s
      (fun next u => (place < u.entries.length → place ∈ u.rooms) → Seen viewer place s u ∧ Hidden place s next)
      (fun _ u => (place < u.entries.length → place ∈ u.rooms) → Seen viewer place s u) := by
  have room {receivers : Receivers} {thread : Delivery.Thread} (misses : receivers.Misses viewer)
      (quiet : ∀ rest, thread ≠ .telling (.recordTrade :: rest)) (there : place < s.entries.length) :
      Ensures (runRoom config env place receivers thread) s
        (fun _ u => (place < u.entries.length → place ∈ u.rooms) → Seen viewer place s u)
        (fun _ u => (place < u.entries.length → place ∈ u.rooms) → Seen viewer place s u) := by
    have same (u : Tables) (touched : Touched s u) : u.entries.length = s.entries.length := by
      simpa using congrArg List.length touched.entries
    have touched := touchedRoom config env place receivers thread s
    have unseen := unseenRun config env outsider tidy misses quiet
    unfold Ensures at touched unseen ⊢
    split at touched
    next a u ran =>
      rw [ran] at unseen
      exact fun stays => unseen (stays (by rw [same u touched]; exact there))
    next e u ran =>
      rw [ran] at unseen
      exact fun stays => unseen (stays (by rw [same u touched]; exact there))
  have goesOn (a : Receivers × Delivery.Thread) : Hidden place s (roomTask place a.1 a.2) := by
    unfold roomTask
    split
    · exact .idle
    · exact .room _ _
  have others {n : Nat} (subject : task.subject = some n) (busy : ¬OperatorTask task) : n ≠ viewer := by
    obtain ⟨k, rfl⟩ := fine.client busy
    obtain rfl := fine.subject k n rfl subject
    exact fun here => apart (by rw [here])
  cases hidden with
  | idle => exact fun _ => ⟨.refl s, .idle⟩
  | answering n frame =>
    have other := others rfl (by rintro (_ | _ | _))
    simp only [Task.run, answer, ensuresBind, ensuresLift, ensuresModify, ensuresPure]
    exact ⟨fun _ _ _ => ⟨unseenChange other fun _ => rfl, .idle⟩, fun _ _ _ => .refl s⟩
  | recovering n stage response =>
    simp only [Task.run, recover, ensuresBind, ensuresGet]
    split
    · exact fun _ => .refl s
    · cases stage with
      | partyB => exact fun _ => ⟨.refl s, .answering n _⟩
      | _ => exact fun _ => ⟨.refl s, .recovering n _ _⟩
  | room receivers thread =>
    have misses := (fine.room receivers thread rfl).2
    have quiet : ∀ rest, thread ≠ .telling (.recordTrade :: rest) := fun rest is => unrecorded receivers rest (by rw [is])
    by_cases there : place < s.entries.length
    · rw [Task.run, ensuresBind]
      exact (room misses quiet there).weaken (fun a u _ unseen stays => ⟨unseen stays, goesOn a⟩) fun _ _ _ unseen => unseen
    · have none_ : s.entries[place]? = none := List.getElem?_eq_none (not_lt.mp there)
      have fails : Task.run config env (.room place receivers thread) s = .error (.standard (.logicError "no such room")) s := by
        simp only [Task.run, runRoom, bind_run, get_run, none_, throw_run]
      unfold Ensures
      rw [fails]
      exact fun _ => .refl s
  | serving n request about =>
    have found := (aboutFound tidy listed).mp about
    obtain ⟨entry, there, _⟩ := about
    have started (rest : List Delivery.Errand) : request.thread ≠ .telling (.recordTrade :: rest) := by
      cases request <;> simp [Delivery.Request.thread]
    simp only [Task.run, serve, handleRoom, ensuresBind, ensuresGet, found]
    exact (room ⟨by simp, by simp⟩ started (List.getElem?_eq_some_iff.mp there).1).weaken
      (fun a u _ unseen stays => ⟨unseen stays, goesOn a⟩) fun _ _ _ unseen => unseen

end Steps

/-! What a step of the hub leaves as it was: the clients' ids, and the rooms' ids and parties. -/

structure Keeps (s u : Tables) : Prop where
  accepted : ∀ (n : Nat) client, s.accepted[n]? = some client → ∃ client', u.accepted[n]? = some client' ∧ client'.id = client.id
  size : s.accepted.length ≤ u.accepted.length
  entries : ∀ (q : Nat) room, s.entries[q]? = some room → ∃ room', u.entries[q]? = some room' ∧ identity room' = identity room

section Keeps
variable {viewer place : Nat} {s t u : Tables} {env : LobbyEnv} {task : Task} {deal : Option Deal}

theorem keepsRefl : Keeps s s := ⟨fun _ client there => ⟨client, there, rfl⟩, le_rfl, fun _ room there => ⟨room, there, rfl⟩⟩

theorem keepsTouched (touched : Touched s u) : Keeps s u where
  accepted _ _ there := ownSame touched.ids there
  size := by simpa using (congrArg List.length touched.ids).ge
  entries q room there := by
    obtain ⟨room', there', same⟩ := entrySame touched.entries.symm there
    exact ⟨room', there', same⟩

theorem Keeps.trans (first : Keeps s t) (second : Keeps t u) : Keeps s u where
  accepted n client there := by
    obtain ⟨client', there', same⟩ := first.accepted n client there
    obtain ⟨client'', there'', same'⟩ := second.accepted n client' there'
    exact ⟨client'', there'', same'.trans same⟩
  size := first.size.trans second.size
  entries q room there := by
    obtain ⟨room', there', same⟩ := first.entries q room there
    obtain ⟨room'', there'', same'⟩ := second.entries q room' there'
    exact ⟨room'', there'', same'.trans same⟩

theorem Deals.keeps (deals : Deals env task s u deal) : Keeps s u := by
  cases deals with
  | touched same => exact keepsTouched same
  | joined id offer room found named others few =>
    refine ⟨keepsRefl.accepted, le_rfl, fun q entry there => ⟨entry, ?_, rfl⟩⟩
    exact (List.getElem?_append_left (List.getElem?_eq_some_iff.mp there).1).trans there
  | _ => exact ⟨keepsRefl.accepted, le_rfl, keepsRefl.entries⟩

theorem Deals.ids (deals : Deals env task s u deal) : u.accepted.map Client.id = s.accepted.map Client.id := by
  cases deals with
  | touched same => exact same.ids
  | _ => rfl

theorem Outsider.before (outsider : Outsider viewer place u) (keeps : Keeps s u) : Outsider viewer place s where
  others client accepted room there := by
    obtain ⟨client', accepted', id⟩ := keeps.accepted viewer client accepted
    obtain ⟨room', there', same⟩ := keeps.entries place room there
    have apart := outsider.others client' accepted' room' there'
    have partyA : room'.partyA = room.partyA := congrArg Identity.partyA same
    have partyB : room'.partyB = room.partyB := congrArg Identity.partyB same
    rwa [id, partyA, partyB] at apart

theorem Fine.keeps {worker : Worker} (fine : Fine viewer place s worker task) (keeps : Keeps s u) : Fine viewer place u worker task :=
  fine.grows keeps.size (keeps.accepted viewer)

end Keeps

section Fired
variable {config : LobbyConfig} {s u : State} {event : Event}

theorem thrownKeeps {tables : Tables} {worker : Worker} {e : HubError} (thrown : s.thrown tables worker e = some u) :
    Keeps tables u.tables := by
  cases worker with
  | client n =>
    simp only [State.thrown, Option.ite_none_left_eq_some, Option.some.injEq] at thrown
    obtain ⟨_, rfl⟩ := thrown
    exact keepsTouched (touchedCaught n e)
  | operator n =>
    obtain rfl := Option.some.inj thrown
    exact keepsRefl

theorem fireKeeps (fired : fire config s event = some u) : Keeps s.tables u.tables := by
  cases event with
  | connects id =>
    simp only [fire, Option.ite_none_right_eq_some, Option.some.injEq] at fired
    obtain ⟨_, rfl⟩ := fired
    refine ⟨fun n client there => ⟨client, ?_, rfl⟩, by simp, keepsRefl.entries⟩
    exact (List.getElem?_append_left (List.getElem?_eq_some_iff.mp there).1).trans there
  | receives n request | confirmsFee operator roomId =>
    simp only [fire, Option.ite_none_right_eq_some, Option.some.injEq] at fired
    obtain ⟨_, rfl⟩ := fired
    exact keepsRefl
  | leaves n =>
    simp only [fire, Option.ite_none_right_eq_some, Option.some.injEq] at fired
    obtain ⟨_, rfl⟩ := fired
    exact keepsTouched (touchedChange fun _ => rfl)
  | setsFee fee =>
    obtain rfl := Option.some.inj fired
    exact ⟨keepsRefl.accepted, le_rfl, keepsRefl.entries⟩
  | hangsUp n =>
    obtain rfl := Option.some.inj fired
    exact keepsTouched (touchedChange fun _ => rfl)
  | acts worker env =>
    simp only [fire] at fired
    split at fired
    · have served := taskServed config env (s.tasks worker) s.tables
      unfold Served Ensures at served
      split at fired
      next task tables ran =>
        rw [ran] at served
        obtain rfl := Option.some.inj fired
        exact served.1.keeps
      next e tables ran =>
        rw [ran] at served
        exact served.keeps.trans (thrownKeeps fired)
    · contradiction

/- What every state of one run keeps to, before the room's end. -/
structure Stands (viewer place : Nat) (s : State) : Prop where
  settled : Settled s
  listed : place < s.tables.entries.length → place ∈ s.tables.rooms
  fine : Outsider viewer place s.tables → ∀ worker, Fine viewer place s.tables worker (s.tasks worker)

variable {viewer place : Nat}

theorem finePut {tables : Tables} {worker : Worker} {task : Task} (keeps : Keeps s.tables tables)
    (fine : ∀ other, Fine viewer place s.tables other (s.tasks other)) (own : Fine viewer place tables worker task) (other : Worker) :
    Fine viewer place (s.put tables worker task).tables other ((s.put tables worker task).tasks other) := by
  simp only [State.put, Function.update_apply]
  split
  next here =>
    subst here
    exact own
  next => exact (fine other).keeps keeps

/- The task a client's thread begins with. -/
theorem fineServing {n : Nat} {tables : Tables} {request : Request} (there : n < tables.accepted.length)
    (mayCome : request.mayComeFrom (tables.idOf n) = true) : Fine viewer place tables (.client n) (.serving n request) where
  subject k m own is := by
    cases own
    cases is
    rfl
  operator _ is := by cases is
  there k own _ := by
    cases own
    exact there
  called m call own is := by
    cases own
    cases is
    obtain ⟨client, accepted, id⟩ := idOfThere there
    simp only [Request.mayComeFrom, Bool.and_eq_true] at mayCome
    exact ⟨client, accepted, id ▸ mayCome.1⟩
  recovering _ _ _ is := by cases is
  room _ _ is := by cases is
  removing _ _ _ _ is := by cases is

theorem fineConfirming (operator : Nat) (roomId : RoomId) (tables : Tables) :
    Fine viewer place tables (.operator operator) (.serving 0 (.room (.call (.confirmFee roomId)))) where
  subject _ _ own := by cases own
  operator _ _ := .serving roomId
  there _ own := by cases own
  called _ _ own := by cases own
  recovering _ _ _ is := by cases is
  room _ _ is := by cases is
  removing _ _ _ _ is := by cases is

theorem fineLeaving {n : Nat} {tables : Tables} (there : n < tables.accepted.length) :
    Fine viewer place tables (.client n) (.leaving n) where
  subject k m own is := by
    cases own
    cases is
    rfl
  operator _ is := by cases is
  there k own _ := by
    cases own
    exact there
  called _ _ _ is := by cases is
  recovering _ _ _ is := by cases is
  room _ _ is := by cases is
  removing _ _ _ _ is := by cases is

theorem Stands.fires (stands : Stands viewer place s) (fired : fire config s event = some u) (before : Before place s event u)
    (discreet : ¬Asks viewer place s event) : Stands viewer place u where
  settled := (fireStepped stands.settled fired).settled
  listed := before.listed
  fine outsider := by
    have keeps := fireKeeps fired
    have fine := stands.fine (outsider.before keeps)
    have tidy := stands.settled.tidy
    cases event with
    | connects id =>
      simp only [fire, Option.ite_none_right_eq_some, Option.some.injEq] at fired
      obtain ⟨_, rfl⟩ := fired
      exact fun worker => (fine worker).keeps keeps
    | setsFee fee | hangsUp n =>
      obtain rfl := Option.some.inj fired
      exact fun worker => (fine worker).keeps keeps
    | receives n request =>
      simp only [fire, Option.ite_none_right_eq_some, Option.some.injEq] at fired
      obtain ⟨⟨inside, _, _, mayCome⟩, rfl⟩ := fired
      exact finePut keeps fine (fineServing (tidy.clientsThere n inside) mayCome)
    | leaves n =>
      simp only [fire, Option.ite_none_right_eq_some, Option.some.injEq] at fired
      obtain ⟨⟨inside, _⟩, rfl⟩ := fired
      exact finePut keeps fine (fineLeaving ((tidy.clientsThere n inside).trans_le keeps.size))
    | confirmsFee operator roomId =>
      simp only [fire, Option.ite_none_right_eq_some, Option.some.injEq] at fired
      obtain ⟨_, rfl⟩ := fired
      exact finePut keeps fine (fineConfirming operator roomId _)
    | acts worker env =>
      simp only [fire] at fired
      split at fired
      · have served := taskServed config env (s.tasks worker) s.tables
        have turns := taskTurns config env (s.tasks worker) s.tables
        have rooms := (fine worker).rooms config env tidy (outsider.before keeps)
        unfold Served Ensures at served
        unfold TurnsTo Ensures at turns
        unfold Ensures at rooms
        split at fired
        next task tables ran =>
          rw [ran] at served turns rooms
          obtain rfl := Option.some.inj fired
          refine finePut keeps fine ((fine worker).next turns tidy served.1.ids outsider before.listed (fun message is found => ?_) rooms)
          obtain ⟨_, room, there, named⟩ := roomFound found
          exact discreet ⟨worker, env, message, rfl, is, room, there, named.symm⟩
        next e tables ran =>
          have busy : s.tasks worker ≠ .idle := by
            intro idle
            rw [idle] at ran
            cases ran
          cases worker with
          | client n =>
            simp only [State.thrown, Option.ite_none_left_eq_some, Option.some.injEq] at fired
            obtain ⟨_, rfl⟩ := fired
            exact finePut keeps fine (fineAnswering (((fine (.client n)).there n rfl busy).trans_le keeps.size) _)
          | operator n =>
            obtain rfl := Option.some.inj fired
            exact finePut keeps fine fineIdle
      · contradiction

theorem startStands (started : Started config s) : Stands viewer place s where
  settled := (startedSettled started).1
  listed there := by
    cases started with
    | opened fee => cases there
    | reloaded fee file s read keyed few others =>
      simp only [reload, bind_ok, pure_ok] at read
      obtain ⟨rooms, opened, rfl⟩ := read
      exact List.mem_range.mpr there
  fine _ worker := by
    cases started with
    | opened fee => exact fineIdle
    | reloaded fee file s read keyed few others =>
      simp only [reload, bind_ok, pure_ok] at read
      obtain ⟨rooms, opened, rfl⟩ := read
      exact fineIdle

end Fired
end Lobby
end TradeP2P
