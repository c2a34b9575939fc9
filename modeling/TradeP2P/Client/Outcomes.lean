import TradeP2P.Client.RoomView
import TradeP2P.Identity.SingleUse

/-! What a client reports to its own history about a counterparty it recognised. The mediator sends what it likes, in
any order; the user may ask for recognition at any time. -/
namespace TradeP2P.RoomOutcome
open Wire (Bytes ascii)
open Machine

abbrev Fingerprint := Vector UInt8 32

inductive RecognitionStatus where | none | challengeSent | recognized | declined | failed
  deriving DecidableEq, Repr

inductive RecognitionOutcome where | successful | incomplete
  deriving DecidableEq, Repr

/- Of a room's record, what recognition and the report of its outcome read and write. -/
structure RoomView where
  status : RoomStatus := .active
  recognitionStatus : RecognitionStatus := .none
  recognizedFingerprint : Option Fingerprint := none
  deriving DecidableEq, Repr

structure State where
  rooms : RoomId → Option RoomView := fun _ => none
  tracker : RecognitionChallengeTracker := {}
  connected : Bool := true

/- The frames, as far as these fields can tell them apart. `mentions` is any other frame that makes a record of the
room it names where there is none: Sent, TradeEphemeralKey, ReceiptAckRequired, FeeConfirmationPending, ReceiptIssued. -/
inductive MediatorFrame where
  | tradeReady (roomId : RoomId)
  | turn (roomId : RoomId)
  | complete (roomId : RoomId)
  | abort (roomId : RoomId)
  | recognitionResponse (message : RecognitionResponseMessage)
  | recognitionChallenge (roomId : RoomId) (canAnswer : Bool)
  | mentions (roomId : RoomId)
  | other
  deriving DecidableEq, Repr

inductive Event where
  | recognize (env : RecognitionEnv) (roomId : RoomId) (suiteId : UInt16)
  | frame (env : RecognitionEnv) (frame : MediatorFrame)

/- A call of the handler. It is given the fingerprint and the outcome; the room is the one they come from. -/
structure Report where
  roomId : RoomId
  fingerprint : Fingerprint
  outcome : RecognitionOutcome
  deriving DecidableEq, Repr

namespace State

def room (s : State) (roomId : RoomId) : RoomView := (s.rooms roomId).getD {}

def put (s : State) (roomId : RoomId) (room : RoomView) : State := { s with rooms := Function.update s.rooms roomId (some room) }

-- The fingerprint that is shown is cleared; the one that is reported stays.
def recognize (mediatorId : Bytes) (env : RecognitionEnv) (roomId : RoomId) (suiteId : UInt16) (s : State) : State :=
  match s.rooms roomId with
  | some room =>
      if room.status = .active then
        match RecognitionChallengeTracker.issue env mediatorId roomId 0 suiteId s.tracker with
        | .ok _ tracker => { s with tracker }.put roomId { room with recognitionStatus := .challengeSent }
        | .error _ tracker => { s with tracker }
      else s
  | none => s

/- The end of a room, by either frame. -/
def ends (s : State) (roomId : RoomId) (status : RoomStatus) (outcome : RecognitionOutcome) : State × Option Report :=
  let room := { s.room roomId with status }
  (s.put roomId room, room.recognizedFingerprint.map fun fingerprint => ⟨roomId, fingerprint, outcome⟩)

-- What the verification throws ends the connection.
def handleRecognitionResponse (crypto : Crypto) (mediatorId : Bytes) (env : RecognitionEnv) (message : RecognitionResponseMessage)
    (s : State) : State :=
  match RecognitionChallengeTracker.consume crypto env mediatorId message 0 s.tracker with
  | .ok none tracker => { s with tracker }.put message.roomId { s.room message.roomId with recognitionStatus := .failed }
  | .ok (some fingerprint) tracker => { s with tracker }.put message.roomId
      { s.room message.roomId with recognitionStatus := .recognized, recognizedFingerprint := some fingerprint }
  | .error _ tracker => { s with tracker, connected := false }

def handleFrame (crypto : Crypto) (mediatorId : Bytes) (env : RecognitionEnv) (s : State) : MediatorFrame → State × Option Report
  | .tradeReady roomId => (s.put roomId {}, none)
  | .turn roomId => (s.put roomId { s.room roomId with status := .active }, none)
  | .complete roomId => s.ends roomId .complete .successful
  | .abort roomId => s.ends roomId .aborted .incomplete
  | .recognitionResponse message => (s.handleRecognitionResponse crypto mediatorId env message, none)
  | .recognitionChallenge roomId canAnswer =>
      (s.put roomId (if canAnswer then s.room roomId else { s.room roomId with recognitionStatus := .declined }), none)
  | .mentions roomId => (s.put roomId (s.room roomId), none)
  | .other => (s, none)

def fire (crypto : Crypto) (mediatorId : Bytes) (s : State) : Event → State × Option Report
  | .recognize env roomId suiteId => (s.recognize mediatorId env roomId suiteId, none)
  | .frame env frame => if s.connected then s.handleFrame crypto mediatorId env frame else (s, none)

end State

/-! A connection, from its first frame. The rooms are gone, and challenges of earlier connections may be out. -/

structure Step where
  before : State
  event : Event
  report : Option Report

section Runs
variable (crypto : Crypto) (mediatorId : Bytes)

def extend (ran : List Step × State) (event : Event) : List Step × State :=
  (ran.1 ++ [⟨ran.2, event, (ran.2.fire crypto mediatorId event).2⟩], (ran.2.fire crypto mediatorId event).1)

def run (outstanding : List RecognitionChallengeFields) (events : List Event) : List Step × State :=
  events.foldl (extend crypto mediatorId) ([], { tracker := ⟨outstanding⟩ })

/- The step has sent this challenge. -/
def Step.Issues (step : Step) (challenge : RecognitionChallengeFields) : Prop := ∃ env roomId suiteId tracker,
  step.event = .recognize env roomId suiteId ∧
  RecognitionChallengeTracker.issue env mediatorId roomId 0 suiteId step.before.tracker = .ok challenge tracker

def Issued (outstanding : List RecognitionChallengeFields) (steps : List Step) (challenge : RecognitionChallengeFields) : Prop :=
  challenge ∈ outstanding ∨ ∃ step ∈ steps, step.Issues mediatorId challenge

/- The key with this fingerprint was proved in that room: a response named the room and an outstanding challenge of this
client for it, and its signature verified. -/
def Proved (outstanding : List RecognitionChallengeFields) (steps : List Step) (roomId : RoomId) (fingerprint : Fingerprint) : Prop :=
  ∃ step ∈ steps, ∃ env message challenge, step.event = .frame env (.recognitionResponse message) ∧ message.roomId = roomId ∧
    challenge ∈ step.before.tracker.outstanding ∧ Issued mediatorId outstanding steps challenge ∧ challenge.roomId = roomId ∧
    challenge.mediatorId = mediatorId ∧ challenge.nonce = message.nonce ∧ challenge.suiteId = message.suiteId ∧
    env.nowUnixSeconds ≤ challenge.expiresAt ∧ Answers crypto challenge message fingerprint

def reports (steps : List Step) : List Report := steps.filterMap Step.report

end Runs
/-! What the calls of the tracker come to. -/
section Tracker
open RecognitionChallengeTracker (Returned event moves)
variable {crypto : Crypto} {mediatorId : Bytes} {env : RecognitionEnv} {tracker t : RecognitionChallengeTracker}
  {challenge : RecognitionChallengeFields}

theorem issueEvent (crypto : Crypto) {roomId : RoomId} {suiteId : UInt16}
    (ran : RecognitionChallengeTracker.issue env mediatorId roomId 0 suiteId tracker = .ok challenge t) :
    event crypto tracker env (.issue mediatorId roomId 0 suiteId) =
      ⟨tracker.outstanding, env, .issue mediatorId roomId 0 suiteId, .ok (.issued challenge), t.outstanding⟩ := by
  simp [event, RecognitionChallengeTracker.perform, bind_run, pure_run, ran]

theorem issueRefused (crypto : Crypto) {roomId : RoomId} {suiteId : UInt16} {e : Error}
    (ran : RecognitionChallengeTracker.issue env mediatorId roomId 0 suiteId tracker = .error e t) :
    event crypto tracker env (.issue mediatorId roomId 0 suiteId) =
      ⟨tracker.outstanding, env, .issue mediatorId roomId 0 suiteId, .error e, t.outstanding⟩ := by
  simp [event, RecognitionChallengeTracker.perform, bind_run, ran]

theorem consumeEvent {message : RecognitionResponseMessage} {fingerprint : Option Fingerprint}
    (ran : RecognitionChallengeTracker.consume crypto env mediatorId message 0 tracker = .ok fingerprint t) :
    event crypto tracker env (.consume mediatorId message 0) =
      ⟨tracker.outstanding, env, .consume mediatorId message 0, .ok (.consumed fingerprint), t.outstanding⟩ := by
  simp [event, RecognitionChallengeTracker.perform, bind_run, pure_run, ran]

theorem consumeThrew {message : RecognitionResponseMessage} {e : Error}
    (ran : RecognitionChallengeTracker.consume crypto env mediatorId message 0 tracker = .error e t) :
    event crypto tracker env (.consume mediatorId message 0) =
      ⟨tracker.outstanding, env, .consume mediatorId message 0, .error e, t.outstanding⟩ := by
  simp [event, RecognitionChallengeTracker.perform, bind_run, ran]

/- A challenge that is out was out before, or has just been issued. -/
theorem outBefore {call : RecognitionChallengeTracker.Call} {ran : RecognitionChallengeTracker.Event} (is : event crypto tracker env call = ran)
    (out : challenge ∈ ran.after) : challenge ∈ ran.before ∨ ran.issues = some challenge := by
  subst is
  have counts := (moves crypto tracker env call).counts challenge
  have some_ := List.count_pos_iff.mpr out
  by_cases before : challenge ∈ (event crypto tracker env call).before
  · exact .inl before
  · refine .inr ?_
    rw [List.count_eq_zero_of_not_mem before] at counts
    have issued : 0 < (event crypto tracker env call).issues.toList.count challenge := by omega
    exact Option.mem_toList.mp (List.count_pos_iff.mp issued)

theorem consumedOut {message : RecognitionResponseMessage} {result : Except Error Returned}
    (is : event crypto tracker env (.consume mediatorId message 0) =
      ⟨tracker.outstanding, env, .consume mediatorId message 0, result, t.outstanding⟩) (out : challenge ∈ t.outstanding) :
    challenge ∈ tracker.outstanding := by
  have unissued := (moves crypto tracker env (.consume mediatorId message 0)).consumeIssuesNone (by rw [is])
  have kept := outBefore is out
  rw [is] at unissued
  rw [unissued] at kept
  rcases kept with before | issued
  · exact before
  · cases issued

end Tracker

/-! What a step can do to the rooms and to the challenges. -/
section Steps
variable {crypto : Crypto} {mediatorId : Bytes} {s : State} {event : Event} {roomId : RoomId} {room : RoomView}

theorem putRoom (other : RoomId) (view : RoomView) : (s.put other view).rooms roomId = if roomId = other then some view else s.rooms roomId :=
  Function.update_apply ..

/- The room is over, and its counterparty was recognised. -/
def Over (room : RoomView) : Prop := room.status ≠ .active ∧ room.recognizedFingerprint.isSome

instance overDecidable (room : RoomView) : Decidable (Over room) := inferInstanceAs (Decidable (_ ∧ _))

/- The frames that make a room anew, open it again or end it. -/
def MediatorFrame.turns : MediatorFrame → Option RoomId
  | .tradeReady roomId => some roomId
  | .turn roomId => some roomId
  | .complete roomId => some roomId
  | .abort roomId => some roomId
  | _ => none

/- None of these frames comes for a room that is over. -/
def LeavesOver (s : State) : Event → Prop
  | .recognize _ _ _ => True
  | .frame _ frame => ∀ roomId, frame.turns = some roomId → ∀ room, s.rooms roomId = some room → ¬Over room

def HoldsKey (s : State) (roomId : RoomId) (fingerprint : Fingerprint) : Prop :=
  ∃ room, s.rooms roomId = some room ∧ room.recognizedFingerprint = some fingerprint

theorem roomHolds {fingerprint : Fingerprint} (known : (s.room roomId).recognizedFingerprint = some fingerprint) : HoldsKey s roomId fingerprint := by
  unfold State.room at known
  cases there : s.rooms roomId with
  | none =>
      rw [there] at known
      cases known
  | some room =>
      rw [there] at known
      exact ⟨room, there, known⟩

/- A record that was put for a room has the key the room had, or none. -/
theorem putHolds {other : RoomId} {view : RoomView} {fingerprint : Fingerprint} (holds : HoldsKey (s.put other view) roomId fingerprint)
    (same : view.recognizedFingerprint = some fingerprint → HoldsKey s other fingerprint) : HoldsKey s roomId fingerprint := by
  obtain ⟨room, there, known⟩ := holds
  rw [putRoom] at there
  split at there
  · rename_i here
    obtain rfl := Option.some.inj there
    exact here ▸ same known
  · exact ⟨room, there, known⟩

/- A key is in a room's record since before, or since the response that has just come. -/
theorem fireHolds {fingerprint : Fingerprint} (holds : HoldsKey (s.fire crypto mediatorId event).1 roomId fingerprint) :
    HoldsKey s roomId fingerprint ∨ ∃ env message tracker, event = .frame env (.recognitionResponse message) ∧ message.roomId = roomId ∧
      RecognitionChallengeTracker.consume crypto env mediatorId message 0 s.tracker = .ok (some fingerprint) tracker := by
  cases event with
  | recognize env other suiteId =>
      refine .inl ?_
      simp only [State.fire, State.recognize] at holds
      split at holds
      · rename_i room there
        split at holds
        · split at holds
          · exact putHolds holds fun known => ⟨room, there, known⟩
          · exact holds
        · exact holds
      · exact holds
  | frame env frame =>
      simp only [State.fire] at holds
      split at holds
      · cases frame with
        | tradeReady other => exact .inl (putHolds holds fun known => (by cases known))
        | turn other => exact .inl (putHolds holds roomHolds)
        | complete other => exact .inl (putHolds holds roomHolds)
        | abort other => exact .inl (putHolds holds roomHolds)
        | recognitionChallenge other canAnswer =>
            refine .inl (putHolds holds fun known => roomHolds ?_)
            cases canAnswer <;> exact known
        | mentions other => exact .inl (putHolds holds roomHolds)
        | other => exact .inl holds
        | recognitionResponse message =>
            simp only [State.handleFrame, State.handleRecognitionResponse] at holds
            split at holds
            · exact .inl (putHolds (s := { s with tracker := _ }) holds roomHolds)
            · rename_i proved tracker ran
              by_cases here : roomId = message.roomId
              · refine .inr ⟨env, message, tracker, rfl, here.symm, ?_⟩
                obtain ⟨room, there, known⟩ := holds
                rw [putRoom, if_pos here] at there
                obtain rfl := Option.some.inj there
                rw [ran, Option.some.inj known]
              · refine .inl ?_
                obtain ⟨room, there, known⟩ := holds
                rw [putRoom, if_neg here] at there
                exact ⟨room, there, known⟩
            · exact .inl holds
      · exact .inl holds

/- What is reported is the key in the room's record, and the room is over then. -/
theorem fireReports {report : Report} (reports : (s.fire crypto mediatorId event).2 = some report) :
    HoldsKey s report.roomId report.fingerprint ∧ (∃ env frame, event = .frame env frame ∧ frame.turns = some report.roomId) ∧
      ∃ room, (s.fire crypto mediatorId event).1.rooms report.roomId = some room ∧ Over room := by
  have ended {other : RoomId} {status : RoomStatus} {outcome : RecognitionOutcome} (reports : (s.ends other status outcome).2 = some report)
      (final : status ≠ .active) : report.roomId = other ∧ HoldsKey s other report.fingerprint ∧
        ∃ room, (s.ends other status outcome).1.rooms other = some room ∧ Over room := by
    simp only [State.ends, Option.map_eq_some_iff] at reports
    obtain ⟨fingerprint, known, rfl⟩ := reports
    refine ⟨rfl, roomHolds known, { s.room other with status }, ?_, final, ?_⟩
    · exact (putRoom other _).trans (if_pos rfl)
    · exact Option.isSome_iff_exists.mpr ⟨fingerprint, known⟩
  cases event with
  | recognize env other suiteId => cases reports
  | frame env frame =>
      simp only [State.fire] at reports ⊢
      split at reports
      · rename_i open_
        rw [if_pos open_]
        cases frame with
        | complete other =>
            obtain ⟨same, holds, final⟩ := ended reports (by decide)
            rw [same]
            exact ⟨holds, ⟨env, _, rfl, rfl⟩, final⟩
        | abort other =>
            obtain ⟨same, holds, final⟩ := ended reports (by decide)
            rw [same]
            exact ⟨holds, ⟨env, _, rfl, rfl⟩, final⟩
        | tradeReady other => cases reports
        | turn other => cases reports
        | recognitionResponse message => cases reports
        | recognitionChallenge other canAnswer => cases reports
        | mentions other => cases reports
        | other => cases reports
      · cases reports

def IsOver (s : State) (roomId : RoomId) : Prop := ∃ room, s.rooms roomId = some room ∧ Over room

theorem putOver {other : RoomId} {view : RoomView} (final : IsOver s roomId) (same : roomId = other → Over view) :
    IsOver (s.put other view) roomId := by
  by_cases here : roomId = other
  · exact ⟨view, (putRoom other view).trans (if_pos here), same here⟩
  · obtain ⟨room, there, isOver⟩ := final
    exact ⟨room, (putRoom other view).trans ((if_neg here).trans there), isOver⟩

theorem roomOver {room : RoomView} (there : s.rooms roomId = some room) : s.room roomId = room := by
  rw [State.room, there, Option.getD_some]

/- A room that is over stays over, where no frame opens it again. -/
theorem fireOver (leaves : LeavesOver s event) (final : IsOver s roomId) : IsOver (s.fire crypto mediatorId event).1 roomId := by
  obtain ⟨room, there, final, recognized⟩ := final
  have isOver : IsOver s roomId := ⟨room, there, final, recognized⟩
  have view : s.room roomId = room := roomOver there
  cases event with
  | recognize env other suiteId =>
      simp only [State.fire, State.recognize]
      split
      · rename_i asked found
        split
        · rename_i active
          split
          · refine putOver (s := { s with tracker := _ }) isOver fun here => ?_
            rw [← here, there] at found
            exact absurd ((Option.some.inj found) ▸ active) final
          · exact isOver
        · exact isOver
      · exact isOver
  | frame env frame =>
      have apart {other : RoomId} (turns : frame.turns = some other) : roomId ≠ other := by
        rintro rfl
        exact leaves roomId turns room there ⟨final, recognized⟩
      simp only [State.fire]
      split
      · cases frame with
        | tradeReady other => exact putOver isOver fun here => absurd here (apart rfl)
        | turn other => exact putOver isOver fun here => absurd here (apart rfl)
        | complete other => exact putOver isOver fun here => absurd here (apart rfl)
        | abort other => exact putOver isOver fun here => absurd here (apart rfl)
        | recognitionChallenge other canAnswer =>
            refine putOver isOver fun here => ?_
            subst here
            cases canAnswer <;> exact view ▸ ⟨final, recognized⟩
        | mentions other =>
            refine putOver isOver fun here => ?_
            subst here
            exact view ▸ ⟨final, recognized⟩
        | other => exact isOver
        | recognitionResponse message =>
            simp only [State.handleFrame, State.handleRecognitionResponse]
            split
            · refine putOver (s := { s with tracker := _ }) isOver fun here => ?_
              subst here
              exact view ▸ ⟨final, recognized⟩
            · refine putOver (s := { s with tracker := _ }) isOver fun here => ?_
              subst here
              exact ⟨view ▸ final, rfl⟩
            · exact isOver
      · exact isOver

end Steps
/-! Runs. -/
section History
variable {crypto : Crypto} {mediatorId : Bytes} {outstanding : List RecognitionChallengeFields} {events : List Event} {event : Event}
  {steps : List Step} {s : State} {roomId : RoomId} {fingerprint : Fingerprint}

theorem Issued.later {challenge : RecognitionChallengeFields} (issued : Issued mediatorId outstanding steps challenge) (more : List Step) :
    Issued mediatorId outstanding (steps ++ more) challenge := by
  rcases issued with start | ⟨step, mem, sent⟩
  · exact .inl start
  · exact .inr ⟨step, List.mem_append_left _ mem, sent⟩

theorem Proved.later (proved : Proved crypto mediatorId outstanding steps roomId fingerprint) (more : List Step) :
    Proved crypto mediatorId outstanding (steps ++ more) roomId fingerprint := by
  obtain ⟨step, mem, env, message, challenge, is, room, out, issued, rest⟩ := proved
  exact ⟨step, List.mem_append_left _ mem, env, message, challenge, is, room, out, issued.later more, rest⟩

/- What the log says of the state. -/
structure Logged (crypto : Crypto) (mediatorId : Bytes) (outstanding : List RecognitionChallengeFields) (steps : List Step) (s : State) : Prop where
  out : ∀ challenge ∈ s.tracker.outstanding, Issued mediatorId outstanding steps challenge
  known : ∀ roomId fingerprint, HoldsKey s roomId fingerprint → Proved crypto mediatorId outstanding steps roomId fingerprint
  proved : ∀ front step back report, steps = front ++ step :: back → step.report = some report →
    Proved crypto mediatorId outstanding front report.roomId report.fingerprint

theorem startLogged : Logged crypto mediatorId outstanding [] { tracker := ⟨outstanding⟩ } where
  out _ mem := .inl mem
  known roomId fingerprint holds := by
    obtain ⟨room, there, _⟩ := holds
    cases there
  proved front step back report none_ := by simp at none_

/- After a step the challenges that are out were out before, or it has issued them. -/
theorem fireOut {challenge : RecognitionChallengeFields} (out : challenge ∈ (s.fire crypto mediatorId event).1.tracker.outstanding) :
    challenge ∈ s.tracker.outstanding ∨ (Step.mk s event (s.fire crypto mediatorId event).2).Issues mediatorId challenge := by
  cases event with
  | recognize env other suiteId =>
      simp only [State.fire, State.recognize] at out
      split at out
      · split at out
        · split at out
          · rename_i sent tracker ran
            rcases outBefore (issueEvent crypto ran) out with before | issued
            · exact .inl before
            · obtain rfl : sent = challenge := Option.some.inj issued
              exact .inr ⟨env, other, suiteId, tracker, rfl, ran⟩
          · rename_i e tracker ran
            rcases outBefore (issueRefused crypto ran) out with before | issued
            · exact .inl before
            · cases issued
        · exact .inl out
      · exact .inl out
  | frame env frame =>
      refine .inl ?_
      simp only [State.fire] at out
      split at out
      · cases frame with
        | recognitionResponse message =>
            simp only [State.handleFrame, State.handleRecognitionResponse] at out
            split at out
            · rename_i ran
              exact consumedOut (consumeEvent ran) out
            · rename_i ran
              exact consumedOut (consumeEvent ran) out
            · rename_i ran
              exact consumedOut (consumeThrew ran) out
        | tradeReady other => exact out
        | turn other => exact out
        | complete other => exact out
        | abort other => exact out
        | recognitionChallenge other canAnswer => exact out
        | mentions other => exact out
        | other => exact out
      · exact out

theorem Logged.next (logged : Logged crypto mediatorId outstanding steps s) (event : Event) :
    Logged crypto mediatorId outstanding (steps ++ [⟨s, event, (s.fire crypto mediatorId event).2⟩]) (s.fire crypto mediatorId event).1 := by
  refine ⟨fun challenge mem => ?_, fun roomId fingerprint holds => ?_, fun front step back report split_ reported => ?_⟩
  · rcases fireOut mem with before | sent
    · exact (logged.out challenge before).later _
    · exact .inr ⟨_, List.mem_append_right _ List.mem_cons_self, sent⟩
  · rcases fireHolds holds with before | ⟨env, message, tracker, is, room, ran⟩
    · exact (logged.known roomId fingerprint before).later _
    · have move := RecognitionChallengeTracker.moves crypto s.tracker env (.consume mediatorId message 0)
      rw [consumeEvent ran] at move
      have answered := move.answers (by rfl : _ = Except.ok (RecognitionChallengeTracker.Returned.consumed (some fingerprint)))
      obtain ⟨challenge, _, _, _, same, _, out, nonce, forRoom, forMediator, suite, answers, intime⟩ := answered
      injection same with sameMediator sameMessage sameNow
      subst sameMediator sameMessage sameNow
      exact ⟨_, List.mem_append_right _ List.mem_cons_self, env, message, challenge, is, room, out,
        (logged.out challenge out).later _, forRoom.symm.trans room, forMediator.symm, nonce.symm, suite.symm, intime, answers⟩
  · rcases List.append_eq_append_iff.mp split_ with ⟨more, rfl, last⟩ | ⟨more, rfl, last⟩
    · cases more with
      | nil =>
          obtain ⟨rfl, _⟩ := List.cons.inj last
          rw [List.append_nil]
          exact logged.known _ _ (fireReports reported).1
      | cons first more => simp at last
    · cases more with
      | nil =>
          obtain ⟨rfl, _⟩ := List.cons.inj last
          rw [List.append_nil] at logged
          exact logged.known _ _ (fireReports reported).1
      | cons first more =>
          obtain ⟨rfl, rfl⟩ := List.cons.inj last
          exact logged.proved front step more report rfl reported

/- Where no room that is over is touched again: a room that was reported is over, and was reported once. -/
structure Settled (steps : List Step) (s : State) : Prop where
  allOver : ∀ report ∈ reports steps, IsOver s report.roomId
  once : ∀ roomId, (reports steps).countP (fun report => report.roomId = roomId) ≤ 1

theorem Settled.next (settled : Settled steps s) (leaves : LeavesOver s event) :
    Settled (steps ++ [⟨s, event, (s.fire crypto mediatorId event).2⟩]) (s.fire crypto mediatorId event).1 := by
  cases reported : (s.fire crypto mediatorId event).2 with
  | none =>
      have same : reports (steps ++ [⟨s, event, none⟩]) = reports steps := by simp [reports]
      rw [← reported] at same ⊢
      exact ⟨fun report mem => fireOver leaves (settled.allOver report (same ▸ mem)), fun roomId => same ▸ settled.once roomId⟩
  | some report =>
      obtain ⟨_, ⟨env, frame, is, turns⟩, final⟩ := fireReports reported
      -- A room that was reported before is over, and the frame would have left it alone.
      have fresh : (reports steps).countP (fun other => other.roomId = report.roomId) = 0 := by
        refine List.countP_eq_zero.mpr fun other mem same => ?_
        obtain ⟨room, there, isOver⟩ := settled.allOver other mem
        subst is
        exact leaves _ turns room (of_decide_eq_true same ▸ there) isOver
      have added : reports (steps ++ [⟨s, event, some report⟩]) = reports steps ++ [report] := by simp [reports]
      refine ⟨fun other mem => ?_, fun roomId => ?_⟩
      · rw [added] at mem
        rcases List.mem_append.mp mem with old | new
        · exact fireOver leaves (settled.allOver other old)
        · obtain rfl := List.mem_singleton.mp new
          exact final
      · rw [added, List.countP_append, List.countP_singleton]
        by_cases here : report.roomId = roomId
        · rw [← here, fresh]
          simp
        · rw [if_neg (by simpa using here)]
          exact settled.once roomId

/- One record for each trade. -/
structure OneRecord (crypto : Crypto) (mediatorId : Bytes) (outstanding : List RecognitionChallengeFields) (steps : List Step) : Prop where
  once : ∀ roomId, (reports steps).countP (fun report => report.roomId = roomId) ≤ 1
  proved : ∀ front step back report, steps = front ++ step :: back → step.report = some report →
    Proved crypto mediatorId outstanding front report.roomId report.fingerprint
  agree : ∀ report ∈ reports steps, ∀ other ∈ reports steps, other.roomId = report.roomId → other.outcome = report.outcome

theorem agreeOnce {all : List Report} (once : ∀ roomId, all.countP (fun report => report.roomId = roomId) ≤ 1) {report other : Report}
    (mem : report ∈ all) (memOther : other ∈ all) (same : other.roomId = report.roomId) : other = report := by
  have few := once report.roomId
  rw [List.countP_eq_length_filter] at few
  have inside : report ∈ all.filter fun r => r.roomId = report.roomId := List.mem_filter.mpr ⟨mem, by simp⟩
  have insideOther : other ∈ all.filter fun r => r.roomId = report.roomId := List.mem_filter.mpr ⟨memOther, by simpa using same⟩
  obtain ⟨only, is⟩ := List.length_eq_one_iff.mp (le_antisymm few (List.length_pos_of_mem inside))
  rw [is, List.mem_singleton] at inside insideOther
  exact insideOther.trans inside.symm

theorem runSnoc (event : Event) : run crypto mediatorId outstanding (events ++ [event]) =
    extend crypto mediatorId (run crypto mediatorId outstanding events) event := by
  rw [run, List.foldl_append]
  rfl

theorem runLogged (events : List Event) :
    Logged crypto mediatorId outstanding (run crypto mediatorId outstanding events).1 (run crypto mediatorId outstanding events).2 := by
  induction events using List.reverseRecOn with
  | nil => exact startLogged
  | append_singleton events event ih =>
      rw [runSnoc]
      exact ih.next event

theorem runSettled (leaves : ∀ step ∈ (run crypto mediatorId outstanding events).1, LeavesOver step.before step.event) :
    Settled (run crypto mediatorId outstanding events).1 (run crypto mediatorId outstanding events).2 := by
  induction events using List.reverseRecOn with
  | nil => exact ⟨fun report mem => (by cases mem), fun _ => Nat.zero_le _⟩
  | append_singleton events event ih =>
      rw [runSnoc] at leaves ⊢
      have earlier := ih fun step mem => leaves step (List.mem_append_left _ mem)
      exact earlier.next (leaves _ (List.mem_append_right _ List.mem_cons_self))

end History

theorem recordedOnce (crypto : Crypto) (mediatorId : Bytes) (outstanding : List RecognitionChallengeFields) (events : List Event)
    (leaves : ∀ step ∈ (run crypto mediatorId outstanding events).1, LeavesOver step.before step.event) :
    OneRecord crypto mediatorId outstanding (run crypto mediatorId outstanding events).1 := by
  have settled := runSettled leaves
  refine ⟨settled.once, (runLogged events).proved, fun report mem other memOther same => ?_⟩
  rw [agreeOnce settled.once mem memOther same]

/-! A trade with a counterparty that proves a key, and the same trade ended twice. -/
section Examples
open RecognitionChallengeTracker (strayChallenge strayCrypto strayResponse strayFingerprint)

def tradeRoom : RoomId := Vector.replicate 32 8

def tradeEnv (now : UInt64) : RecognitionEnv := ⟨now, .ok (Vector.replicate 32 0x2a)⟩

def recognizedTrade : List Event :=
  [.frame (tradeEnv 1000) (.tradeReady tradeRoom), .recognize (tradeEnv 1000) tradeRoom recognitionSuiteEd25519V1,
   .frame (tradeEnv 1010) (.recognitionResponse (strayResponse 8)), .frame (tradeEnv 1020) (.complete tradeRoom)]

def endedTwice : List Event := recognizedTrade ++ [.frame (tradeEnv 1030) (.abort tradeRoom)]

def leavesOver (s : State) : Event → Bool
  | .recognize _ _ _ => true
  | .frame _ frame => match frame.turns with
    | some roomId => ((s.rooms roomId).map fun room => decide (¬Over room)).getD true
    | none => true

theorem leavesOverMeans {s : State} {event : Event} (leaves : leavesOver s event = true) : LeavesOver s event := by
  cases event with
  | recognize env roomId suiteId => trivial
  | frame env frame =>
      intro roomId turns room there
      simp only [leavesOver, turns, there, Option.map_some, Option.getD_some, decide_eq_true_eq] at leaves
      exact leaves

theorem tradeRuns :
    ((run strayCrypto (ascii "mediator-a") [] recognizedTrade).1.all fun step => leavesOver step.before step.event) = true ∧
    reports (run strayCrypto (ascii "mediator-a") [] recognizedTrade).1 = [⟨tradeRoom, strayFingerprint, .successful⟩] ∧
    reports (run strayCrypto (ascii "mediator-a") [] endedTwice).1 =
      [⟨tradeRoom, strayFingerprint, .successful⟩, ⟨tradeRoom, strayFingerprint, .incomplete⟩] := by decide +kernel

theorem tradeRecorded : OneRecord strayCrypto (ascii "mediator-a") [] (run strayCrypto (ascii "mediator-a") [] recognizedTrade).1 ∧
    reports (run strayCrypto (ascii "mediator-a") [] recognizedTrade).1 = [⟨tradeRoom, strayFingerprint, .successful⟩] :=
  ⟨recordedOnce strayCrypto (ascii "mediator-a") [] recognizedTrade fun step mem => leavesOverMeans (List.all_eq_true.mp tradeRuns.1 step mem),
    tradeRuns.2.1⟩

theorem endedTwiceReported : ¬OneRecord strayCrypto (ascii "mediator-a") [] (run strayCrypto (ascii "mediator-a") [] endedTwice).1 := by
  intro record
  have same := record.agree ⟨tradeRoom, strayFingerprint, .successful⟩ (by rw [tradeRuns.2.2]; exact List.mem_cons_self)
    ⟨tradeRoom, strayFingerprint, .incomplete⟩ (by rw [tradeRuns.2.2]; exact List.mem_cons_of_mem _ List.mem_cons_self) rfl
  cases same

end Examples
end TradeP2P.RoomOutcome
