import TradeP2P.Hub.Privacy

/-! Two runs of the hub in which the parties of one room and the operator do not do the same, and what another client is
sent in each. -/
namespace TradeP2P
open Checks Machine Unwinding

namespace Lobby

/-! The states that two such runs are in. -/

structure Related (viewer place : Nat) (s t : State) : Prop where
  seen : Seen viewer place s.tables t.tables
  tasks : ∀ worker, s.tasks worker = t.tasks worker ∨
    worker ≠ .client viewer ∧ Hidden place s.tables (s.tasks worker) ∧ Hidden place s.tables (t.tasks worker)

/- A step of which the viewer sees nothing. -/
structure Quiet (viewer place : Nat) (s u : State) (worker : Worker) (next : Task) : Prop where
  apart : worker ≠ .client viewer
  seen : Seen viewer place s.tables u.tables
  tasks : u.tasks = Function.update s.tasks worker next
  hidden : Hidden place s.tables (s.tasks worker)
  stays : Hidden place s.tables next

section Related
variable {viewer place : Nat} {s t u : State} {worker : Worker} {next : Task}

theorem Related.refl (s : State) : Related viewer place s s := ⟨.refl _, fun _ => .inl rfl⟩

theorem Related.symm (related : Related viewer place s t) : Related viewer place t s where
  seen := related.seen.symm
  tasks worker := by
    rcases related.tasks worker with same | ⟨apart, here, there⟩
    · exact .inl same.symm
    · exact .inr ⟨apart, there.seen related.seen, here.seen related.seen⟩

theorem Hidden.keeps {tables tables' : Tables} {task : Task} (keeps : Keeps tables tables') (hidden : Hidden place tables task) :
    Hidden place tables' task := by
  cases hidden with
  | serving n request about =>
    obtain ⟨room, there, named⟩ := about
    obtain ⟨room', there', same⟩ := keeps.entries place room there
    exact .serving n request ⟨room', there', named.trans (congrArg some (congrArg Identity.id same).symm)⟩
  | idle => exact .idle
  | room receivers thread => exact .room receivers thread
  | answering n frame => exact .answering n frame
  | recovering n stage response => exact .recovering n stage response

theorem Related.hidden (related : Related viewer place s t) (hidden : Hidden place s.tables (s.tasks worker)) :
    Hidden place s.tables (t.tasks worker) := by
  rcases related.tasks worker with same | ⟨_, _, there⟩
  · rwa [← same]
  · exact there

theorem Related.quiet (related : Related viewer place s t) (quiet : Quiet viewer place s u worker next) : Related viewer place u t where
  seen := quiet.seen.symm.trans related.seen
  tasks other := by
    rw [quiet.tasks, Function.update_apply]
    split
    next here =>
      subst here
      exact .inr ⟨quiet.apart, quiet.stays.seen quiet.seen, (related.hidden quiet.hidden).seen quiet.seen⟩
    next =>
      rcases related.tasks other with same | ⟨apart, here, there⟩
      · exact .inl same
      · exact .inr ⟨apart, here.seen quiet.seen, there.seen quiet.seen⟩

/- The others are at what they were at, and one goes on alike in both. -/
theorem Related.put (related : Related viewer place s t) {tables tables' : Tables} (keeps : Keeps s.tables tables)
    (seen : Seen viewer place tables tables') (worker : Worker) (next : Task) :
    Related viewer place (s.put tables worker next) (t.put tables' worker next) where
  seen := seen
  tasks other := by
    simp only [State.put, Function.update_apply]
    split
    · exact .inl rfl
    · rcases related.tasks other with same | ⟨apart, here, there⟩
      · exact .inl same
      · exact .inr ⟨apart, here.keeps keeps, there.keeps keeps⟩

theorem Related.tables (related : Related viewer place s t) {tables tables' : Tables} (keeps : Keeps s.tables tables)
    (seen : Seen viewer place tables tables') : Related viewer place { s with tables } { t with tables := tables' } where
  seen := seen
  tasks other := by
    rcases related.tasks other with same | ⟨apart, here, there⟩
    · exact .inl same
    · exact .inr ⟨apart, here.keeps keeps, there.keeps keeps⟩

end Related

/-! What happens in one run only. -/
section Inner
variable {viewer place : Nat} {config : LobbyConfig} {s u : State} {worker : Worker} {env : LobbyEnv}

theorem partyApart (outsider : Outsider viewer place s.tables) {n : Nat} (party : PartyOf s.tables place n) : n ≠ viewer := by
  rintro rfl
  obtain ⟨client, accepted, room, there, isParty⟩ := party
  obtain ⟨notA, notB⟩ := outsider.others client accepted room there
  rcases isParty with isA | isB
  · exact notA isA
  · exact notB isB

theorem hiddenActs (stands : Stands viewer place s) (outsider : Outsider viewer place s.tables) (apart : worker ≠ .client viewer)
    (hidden : Hidden place s.tables (s.tasks worker)) (fired : fire config s (.acts worker env) = some u)
    (before : Before place s (.acts worker env) u) : ∃ next, Quiet viewer place s u worker next := by
  have fine := stands.fine outsider worker
  have unseen := unseenStep config env fine stands.settled.tidy outsider stands.listed hidden apart
    fun receivers rest => before.unrecorded worker env receivers rest rfl
  simp only [fire] at fired
  split at fired
  · unfold Ensures at unseen
    split at fired
    next task tables ran =>
      rw [ran] at unseen
      obtain rfl := Option.some.inj fired
      obtain ⟨seen, stays⟩ := unseen before.listed
      exact ⟨task, apart, seen, rfl, hidden, stays⟩
    next e tables ran =>
      rw [ran] at unseen
      cases worker with
      | client n =>
        simp only [State.thrown, Option.ite_none_left_eq_some, Option.some.injEq] at fired
        obtain ⟨_, rfl⟩ := fired
        have other : n ≠ viewer := fun here => apart (by rw [here])
        have counted : Seen viewer place tables (caught n e tables) := by
          cases e with
          | benignRejection text => exact .refl tables
          | standard e => exact unseenChange other fun _ => rfl
        have rooms := (touchedCaught n e : Touched tables _)
        have listed : place < tables.entries.length → place ∈ tables.rooms := fun there =>
          rooms.rooms.subset (before.listed (by simpa [State.put, counted.size] using there))
        exact ⟨refusal n e, apart, (unseen listed).trans counted, rfl, hidden, .answering n _⟩
      | operator n =>
        obtain rfl := Option.some.inj fired
        exact ⟨.idle, apart, unseen before.listed, rfl, hidden, .idle⟩
  · contradiction

theorem innerQuiet {event : Event} (stands : Stands viewer place s) (outsider : Outsider viewer place s.tables) (inner : Inner place s event)
    (fired : fire config s event = some u) (before : Before place s event u) : ∃ worker next, Quiet viewer place s u worker next := by
  cases inner with
  | receives n request party kind about =>
    simp only [fire, Option.ite_none_right_eq_some, Option.some.injEq] at fired
    obtain ⟨⟨_, idle, _⟩, rfl⟩ := fired
    have apart : Worker.client n ≠ .client viewer := fun is => partyApart outsider party (Worker.client.inj is)
    exact ⟨.client n, .serving n (.room request), apart, .refl _, rfl, idle ▸ .idle, .serving n request about⟩
  | confirmsFee operator room there =>
    simp only [fire, Option.ite_none_right_eq_some, Option.some.injEq] at fired
    obtain ⟨idle, rfl⟩ := fired
    exact ⟨.operator operator, _, (by simp), .refl _, rfl, idle ▸ .idle, .serving 0 _ ⟨room, there, rfl⟩⟩
  | acts worker env party settling =>
    have apart : worker ≠ .client viewer := fun is => partyApart outsider (party viewer is) rfl
    have hidden : Hidden place s.tables (s.tasks worker) := by
      generalize s.tasks worker = task at settling
      cases settling with
      | serving n request kind about => exact .serving n request about
      | room receivers thread => exact .room receivers thread
      | answering n frame => exact .answering n frame
    exact ⟨worker, hiddenActs stands outsider apart hidden fired before⟩

end Inner

/-! What happens in both. -/
section Both
variable {viewer place : Nat} {config : LobbyConfig} {s t s' t' : State} {event : Event}

/- Who leaves was no party to the room, or it would have ended. -/
theorem leavesOpen {worker : Worker} {env : LobbyEnv} {n : Nat} (leaving : s.tasks worker = .leaving n)
    (fired : fire config s (.acts worker env) = some s') (before : Before place s (.acts worker env) s') :
    ∀ room ∈ s.tables.entries[place]?, place ∈ s.tables.rooms → abandons (s.tables.idOf n) room = false := by
  intro room there inside
  simp only [fire, leaving, Task.run, removeClient, bind_run, get_run, set_run, pure_run, Option.ite_none_right_eq_some,
    Option.some.injEq] at fired
  obtain ⟨_, rfl⟩ := fired
  by_contra leaves
  rw [Bool.not_eq_false] at leaves
  have still := before.listed (List.getElem?_eq_some_iff.mp there).1
  have closed : place ∈ s.tables.rooms.filter fun place => s.tables.entries[place]?.any (abandons (s.tables.idOf n)) :=
    List.mem_filter.mpr ⟨inside, by rw [Option.mem_def.mp there]; exact leaves⟩
  simp only [State.put, List.mem_filter, decide_eq_true_eq] at still
  exact still.2 (List.mem_filter.mp closed)

theorem shownActs {worker : Worker} {env : LobbyEnv} (related : Related viewer place s t) (same : s.tasks worker = t.tasks worker)
    (keeps : Keeps s.tables s'.tables)
    (twins : Twins (Seen viewer place) ((s.tasks worker).run config env) ((s.tasks worker).run config env) s.tables t.tables)
    (fired : fire config s (.acts worker env) = some s') (fired' : fire config t (.acts worker env) = some t') :
    Related viewer place s' t' := by
  simp only [fire, ← same] at fired fired'
  unfold Twins at twins
  split at fired
  · split at fired'
    · split at twins
      next task tables task' tables' ran ran' =>
        obtain ⟨rfl, seen⟩ := twins
        rw [ran] at fired
        rw [ran'] at fired'
        obtain rfl := Option.some.inj fired
        obtain rfl := Option.some.inj fired'
        exact related.put keeps seen worker task
      next e tables e' tables' ran ran' =>
        obtain ⟨rfl, seen⟩ := twins
        rw [ran] at fired
        rw [ran'] at fired'
        cases worker with
        | client n =>
          simp only [State.thrown, Option.ite_none_left_eq_some, Option.some.injEq] at fired fired'
          obtain ⟨_, rfl⟩ := fired
          obtain ⟨_, rfl⟩ := fired'
          exact related.put keeps (seen.caught n e) _ _
        | operator n =>
          obtain rfl := Option.some.inj fired
          obtain rfl := Option.some.inj fired'
          exact related.put keeps seen _ _
      next => exact twins.elim
    · contradiction
  · contradiction

theorem shown (stands : Stands viewer place s) (stands' : Stands viewer place t) (outsider : Outsider viewer place s.tables)
    (outsider' : Outsider viewer place t.tables) (related : Related viewer place s t) (fired : fire config s event = some s')
    (before : Before place s event s') (fired' : fire config t event = some t') (before' : Before place t event t') :
    Related viewer place s' t' := by
  have keeps := fireKeeps fired
  have seen := related.seen
  cases event with
  | connects id =>
    simp only [fire, Option.ite_none_right_eq_some, Option.some.injEq] at fired fired'
    obtain ⟨_, rfl⟩ := fired
    obtain ⟨_, rfl⟩ := fired'
    have size : s.tables.accepted.length = t.tables.accepted.length := by simpa using congrArg List.length seen.ids
    refine related.tables keeps { seen with clients := ?_, ids := ?_, own := ?_ }
    · dsimp only
      rw [seen.clients, size]
    · dsimp only
      rw [List.map_append, List.map_append, seen.ids, seen.fee]
    · dsimp only
      rw [List.getElem?_append, List.getElem?_append, size, seen.own, seen.fee]
  | setsFee fee =>
    obtain rfl := Option.some.inj fired
    obtain rfl := Option.some.inj fired'
    exact related.tables keeps { seen with fee := rfl }
  | hangsUp n =>
    obtain rfl := Option.some.inj fired
    obtain rfl := Option.some.inj fired'
    exact related.tables keeps (seen.change n (fun _ => rfl) (fun _ => rfl) fun _ => rfl)
  | receives n request | confirmsFee operator roomId =>
    simp only [fire, Option.ite_none_right_eq_some, Option.some.injEq] at fired fired'
    obtain ⟨_, rfl⟩ := fired
    obtain ⟨_, rfl⟩ := fired'
    exact related.put keeps seen _ _
  | leaves n =>
    simp only [fire, Option.ite_none_right_eq_some, Option.some.injEq] at fired fired'
    obtain ⟨_, rfl⟩ := fired
    obtain ⟨_, rfl⟩ := fired'
    exact related.put keeps (seen.change n (fun _ => rfl) (fun _ => rfl) fun _ => rfl) _ _
  | acts worker env =>
    by_cases unseen : worker ≠ .client viewer ∧ Hidden place s.tables (s.tasks worker)
    · obtain ⟨apart, hidden⟩ := unseen
      obtain ⟨next, quiet⟩ := hiddenActs stands outsider apart hidden fired before
      obtain ⟨next', quiet'⟩ := hiddenActs stands' outsider' apart ((related.hidden hidden).seen seen) fired' before'
      exact ((related.quiet quiet).symm.quiet quiet').symm
    · have same : s.tasks worker = t.tasks worker := by
        rcases related.tasks worker with same | ⟨apart, hidden, _⟩
        · exact same
        · exact absurd ⟨apart, hidden⟩ unseen
      have open_ : worker = .client viewer ∨ ¬Hidden place s.tables (s.tasks worker) := by
        by_contra closed
        rw [not_or, not_not] at closed
        exact unseen closed
      exact shownActs related same keeps (seen.shown (stands.fine outsider worker) stands.settled.tidy outsider outsider' stands.listed open_
        (fun n leaving => leavesOpen leaving fired before) fun n leaving => leavesOpen (same ▸ leaving) fired' before') fired fired'

end Both

/-! The two runs, from their start. -/
section Runs
variable {viewer place : Nat} {config : LobbyConfig} {start s t : State}

theorem Seen.outsider {tables tables' : Tables} (seen : Seen viewer place tables tables') (outsider : Outsider viewer place tables) :
    Outsider viewer place tables' where
  others client accepted room there := by
    have named := seen.named place
    rw [Option.mem_def.mp there] at named
    obtain ⟨room', there', same⟩ := Option.map_eq_some_iff.mp named
    have apart := outsider.others client (by rw [seen.own]; exact accepted) room' there'
    have partyA : room'.partyA = room.partyA := congrArg Identity.partyA same
    have partyB : room'.partyB = room.partyB := congrArg Identity.partyB same
    rwa [partyA, partyB] at apart

structure Private (viewer place : Nat) (s t : State) : Prop where
  stands : Stands viewer place s
  stands' : Stands viewer place t
  outsider : Outsider viewer place s.tables ↔ Outsider viewer place t.tables
  related : Outsider viewer place s.tables → Related viewer place s t

theorem Private.symm (kept : Private viewer place s t) : Private viewer place t s :=
  ⟨kept.stands', kept.stands, kept.outsider.symm, fun outsider => (kept.related (kept.outsider.mpr outsider)).symm⟩

theorem alikePrivate (started : Started config start)
    (alike : Alike (settlementRuns config place fun s event => ¬Asks viewer place s event) start s t) : Private viewer place s t := by
  refine alike.related (fun _ _ => Private.symm) ?_ (fun s t event s' kept inner fired met => ?_)
    fun s t event s' t' kept fired met fired' met' => ?_
  · exact ⟨startStands started, startStands started, Iff.rfl, fun _ => .refl start⟩
  · have steps (outsider : Outsider viewer place s.tables) : Related viewer place s' t := by
      obtain ⟨worker, next, quiet⟩ := innerQuiet kept.stands outsider inner fired met.1
      exact (kept.related outsider).quiet quiet
    have earlier (outsider : Outsider viewer place s'.tables) : Outsider viewer place s.tables := outsider.before (fireKeeps fired)
    refine ⟨kept.stands.fires fired met.1 met.2, kept.stands', ⟨fun outsider => kept.outsider.mp (earlier outsider), fun outsider => ?_⟩,
      fun outsider => steps (earlier outsider)⟩
    exact (steps (kept.outsider.mpr outsider)).seen.symm.outsider outsider
  · have steps (outsider : Outsider viewer place s.tables) : Related viewer place s' t' :=
      shown kept.stands kept.stands' outsider (kept.outsider.mp outsider) (kept.related outsider) fired met.1 fired' met'.1
    have earlier (outsider : Outsider viewer place s'.tables) : Outsider viewer place s.tables := outsider.before (fireKeeps fired)
    refine ⟨kept.stands.fires fired met.1 met.2, kept.stands'.fires fired' met'.1 met'.2, ⟨fun outsider => ?_, fun outsider => ?_⟩,
      fun outsider => steps (earlier outsider)⟩
    · exact (steps (earlier outsider)).seen.outsider outsider
    · exact (steps (kept.outsider.mpr (outsider.before (fireKeeps fired')))).seen.symm.outsider outsider

/- Of two runs that differ in the reports, the acknowledgements and the fee of one room, a client who is no party to it is sent
the same, as long as he does not ask for the room's state. -/
theorem settlementPrivate (started : Started config start)
    (alike : Alike (settlementRuns config place fun s event => ¬Asks viewer place s event) start s t)
    (outsider : Outsider viewer place s.tables) : frames s viewer = frames t viewer := by
  rw [frames, frames, ((alikePrivate started alike).related outsider).seen.own]

end Runs

/-! A test of what a step of these runs is asked. -/

def isParty (s : Tables) (place n : Nat) : Bool :=
  s.accepted[n]?.any fun client => s.entries[place]?.any fun room => client.id = room.partyA ∨ client.id = room.partyB

def isAbout (s : Tables) (place : Nat) (request : Delivery.Request) : Bool :=
  s.entries[place]?.any fun room => roomOf request = some room.id

def isSettling (s : Tables) (place : Nat) : Task → Bool
  | .serving _ (.room request) => settles request && isAbout s place request
  | .room q _ _ => q = place
  | .answering .. => true
  | _ => false

def isInner (place : Nat) (s : State) : Event → Bool
  | .receives n (.room request) => isParty s.tables place n && settles request && isAbout s.tables place request
  | .acts (.client n) _ => isParty s.tables place n && isSettling s.tables place (s.tasks (.client n))
  | _ => false

def records (place : Nat) : Task → Bool
  | .room q _ (.telling (.recordTrade :: _)) => q = place
  | _ => false

def asks (viewer place : Nat) (s : Tables) : Task → Bool
  | .serving n (.recoveryState message) => n = viewer && s.entries[place]?.any fun room => message.roomId = room.id
  | _ => false

def isBefore (viewer place : Nat) (mayAsk : Bool) (s : State) (event : Event) (t : State) : Bool :=
  (t.tables.entries.length ≤ place || place ∈ t.tables.rooms) &&
    match event with
    | .acts worker _ => !records place (s.tasks worker) && (mayAsk || !asks viewer place s.tables (s.tasks worker))
    | _ => true

section Test
variable {viewer place n : Nat} {s t : State} {tables : Tables} {event : Event} {task : Task} {request : Delivery.Request}

theorem partyIs (is : isParty tables place n = true) : PartyOf tables place n := by
  simpa [isParty, PartyOf, Option.any_eq_true] using is

theorem aboutIs (is : isAbout tables place request = true) : About tables place request := by
  simpa [isAbout, About, Option.any_eq_true] using is

theorem settlingIs (is : isSettling tables place task = true) : Settling tables place task := by
  cases task with
  | serving n request =>
    cases request with
    | room request =>
      simp only [isSettling, Bool.and_eq_true] at is
      exact .serving n request is.1 (aboutIs is.2)
    | _ => contradiction
  | room q receivers thread =>
    simp only [isSettling, decide_eq_true_eq] at is
    exact is ▸ .room receivers thread
  | answering n frame => exact .answering n frame
  | _ => contradiction

theorem innerIs (is : isInner place s event = true) : Inner place s event := by
  cases event with
  | receives n request =>
    cases request with
    | room request =>
      simp only [isInner, Bool.and_eq_true] at is
      exact .receives n request (partyIs is.1.1) is.1.2 (aboutIs is.2)
    | _ => contradiction
  | acts worker env =>
    cases worker with
    | client n =>
      simp only [isInner, Bool.and_eq_true] at is
      refine .acts (.client n) env (fun m own => ?_) (settlingIs is.2)
      cases own
      exact partyIs is.1
    | operator n => contradiction
  | _ => contradiction

theorem beforeIs {mayAsk : Bool} (is : isBefore viewer place mayAsk s event t = true) :
    Before place s event t ∧ (mayAsk = false → ¬Asks viewer place s event) := by
  simp only [isBefore, Bool.and_eq_true, Bool.or_eq_true, decide_eq_true_eq] at is
  refine ⟨⟨fun there => is.1.resolve_left (Nat.not_le.mpr there), ?_⟩, ?_⟩
  · rintro worker env receivers rest rfl at_
    simp [at_, records] at is
  · rintro never ⟨worker, env, message, rfl, serving, room, there, named⟩
    simp [serving, asks, never, Option.mem_def.mp there, named, records] at is

end Test

def settlementTest (config : LobbyConfig) (viewer place : Nat) :
    Test (settlementRuns config place fun s event => ¬Asks viewer place s event) where
  inner := isInner place
  meets := isBefore viewer place false
  innerSound _ _ := innerIs
  meetsSound _ _ _ is := ⟨(beforeIs is).1, (beforeIs is).2 rfl⟩

def openTest (config : LobbyConfig) (place : Nat) : Test (settlementRuns config place fun _ _ => True) where
  inner := isInner place
  meets := isBefore 0 place true
  innerSound _ _ := innerIs
  meetsSound _ _ _ is := ⟨(beforeIs is).1, True.intro⟩

section Swap
open Hub MediatorSession

def swapViewer : ClientId := Vector.replicate 16 0x0c

def swapActs (n : Nat) : Event := .acts (.client n) ⟨swapEnv, .error (.runtimeError "RAND_bytes failed")⟩

-- The one of the parties that is to pay reports it in the second run only.
def swapPaidOnce : List (Move Event) :=
  (swapOffered ++ swapTaken ++ [Event.connects swapViewer]).map Move.both ++
    (Event.receives 0 (.room (.call (.sent swapClientA ⟨swapRoom, 0, .a⟩))) :: List.replicate 5 (swapActs 0)).map Move.right

def swapAsks (id : RoomId) : List (Move Event) :=
  (Event.receives 2 (.recoveryState ⟨id⟩) :: List.replicate 6 (swapActs 2)).map Move.both

def paidLess (runs : State × State) : Bool :=
  !isParty runs.1.tables 0 2 && runs.1.tables.entries.map (·.session.state) ≠ runs.2.tables.entries.map (·.session.state)

theorem swapLooksOn :
    ((settlementTest swapLobby 2 0).play (opened swapFee, opened swapFee)
      (swapPaidOnce ++ swapAsks (Vector.replicate 32 2))).any paidLess = true ∧
    ((openTest swapLobby 0).play (opened swapFee, opened swapFee) (swapPaidOnce ++ swapAsks swapRoom)).any
      (fun runs => paidLess runs && frames runs.1 2 ≠ frames runs.2 2) = true := by
  decide +kernel

theorem paidOutside {s t : State} (less : paidLess (s, t) = true) : Outsider 2 0 s.tables ∧
    s.tables.entries.map (·.session.state) ≠ t.tables.entries.map (·.session.state) := by
  simp only [paidLess, Bool.and_eq_true, Bool.not_eq_true', decide_eq_true_eq] at less
  refine ⟨⟨fun client accepted room there => ?_⟩, less.2⟩
  have outside := less.1
  rw [isParty, Option.mem_def.mp accepted, Option.mem_def.mp there] at outside
  simpa [not_or] using outside

theorem settlementLeaks : ¬∀ (config : LobbyConfig) (start s t : State) (viewer place : Nat), Started config start →
    Alike (settlementRuns config place fun _ _ => True) start s t → Outsider viewer place s.tables → frames s viewer = frames t viewer := by
  intro alike
  obtain ⟨⟨s, t⟩, played, told⟩ := (Option.any_eq_true _ _).mp swapLooksOn.2
  rw [Bool.and_eq_true, decide_eq_true_eq] at told
  exact told.2 (alike swapLobby (opened swapFee) s t 2 0 (.opened swapFee) (Test.playAlike .start played) (paidOutside told.1).1)

theorem swapSettlementPrivate : ∃ s t, Started swapLobby (opened swapFee) ∧
    Alike (settlementRuns swapLobby 0 fun s event => ¬Asks 2 0 s event) (opened swapFee) s t ∧ Outsider 2 0 s.tables ∧
    s.tables.entries.map (·.session.state) ≠ t.tables.entries.map (·.session.state) ∧ frames s 2 = frames t 2 := by
  obtain ⟨⟨s, t⟩, played, told⟩ := (Option.any_eq_true _ _).mp swapLooksOn.1
  have alike := Test.playAlike .start played
  exact ⟨s, t, .opened swapFee, alike, (paidOutside told).1, (paidOutside told).2,
    settlementPrivate (.opened swapFee) alike (paidOutside told).1⟩

end Swap
end Lobby
end TradeP2P
