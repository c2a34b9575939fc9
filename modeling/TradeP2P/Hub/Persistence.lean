import TradeP2P.Hub.Occupancy
import TradeP2P.Lib.Keyed

/-! The records of the rooms, that a restart begins with. A section writes the record of its room while the
room is active, and the thread that closes a room takes the record away later, with no lock held in between. -/
namespace TradeP2P
open Checks Machine

namespace Hub

def Effect.records : Effect → Bool
  | .persisted _ | .unpersisted => true
  | _ => false

end Hub

namespace Delivery
open Hub
open MediatorSession (Operation Step)

/- The receipt a section has to issue. -/
def Locked.issues (hub : HubConfig) (room : RoomEntry) : Locked → Option ReceiptStage
  | .sent party message =>
      if room.active ∧ (next MediatorSession.perform room.session (.senderReportedSent party message)).state = .complete then
        some .settlementCompleted
      else none
  | .received party message =>
      if room.active ∧ (next MediatorSession.perform room.session (.receiverReportedReceived party message)).state = .complete then
        some .settlementCompleted
      else none
  | .receiptAck party message =>
      if room.active ∧ room.session.state = .waitingForFinalReceiptAck ∧
          message.stage = ReceiptStage.penultimateObligationsComplete.toByte ∧ (verifyAcknowledgement hub room party message).isOk ∧
          (next MediatorSession.perform room.session (.acknowledgeFinalReceipt party)).state ≠ .waitingForFinalReceiptAck then
        some .penultimateObligationsComplete
      else none
  | .confirmFee =>
      if room.active ∧ room.session.state = .waitingForFeeConfirmation then some .settlementCompleted else none
  | _ => none

-- Keys were announced, and the draw and the signatures succeed.
def Issuable (hub : HubConfig) (env : HubEnv) (room : RoomEntry) (stage : ReceiptStage) : Prop :=
  ∃ receipt, receiptFor hub env room stage (stage = .settlementCompleted) = .ok receipt

/-! What a step of a thread does to the record of its room. -/

-- Nothing that comes before the record is taken away can throw.
def clears : List Errand → Prop
  | .unpersist :: _ => True
  | .recordTrade :: rest => clears rest
  | .tell _ frame :: rest => frame.encodes = .ok () ∧ clears rest
  | _ => False

def Thread.clears : Thread → Prop
  | .telling errands => Delivery.clears errands
  | _ => False

-- Only a room that was closed is taken out of the tables.
def Thread.suits (room : RoomEntry) : Thread → Prop
  | .starting (.disconnect _) => False
  | .telling errands => ∀ errand ∈ errands, errand = .unpersist ∨ errand = .erase → room.active = false
  | _ => True

structure Silent (s t : Room) : Prop where
  effects : ∃ new, t.effects = s.effects ++ new ∧ ∀ effect ∈ new, Effect.records effect = false

inductive Logs (now : UInt64) (s t : Room) (next : Thread) : Prop where
  | quiet (session : t.entry.session = s.entry.session) (active : t.entry.active = s.entry.active) (silent : Silent s t)
  | written (before : s.entry.active = true) (after : t.entry.active = true) (front : List Effect)
      (effects : t.effects = s.effects ++ front ++ [.persisted (persistedRoomSnapshot t.entry now)])
      (silent : ∀ effect ∈ front, Effect.records effect = false)
  | closed (before : s.entry.active = true) (after : t.entry.active = false) (silent : Silent s t) (clears : next.clears)
  | removed (inactive : s.entry.active = false) (entry : t.entry = s.entry) (effects : t.effects = s.effects ++ [.unpersisted])

structure Logged (now : UInt64) (s t : Room) (next : Thread) : Prop where
  logs : Logs now s t next
  listed : t.listed = s.listed ∨ s.entry.active = false
  suits : next.suits t.entry

-- What a section does from here on, to the room it began with.
def Keeps (now : UInt64) (s : Room) (x : HubM Thread) (room : Room) : Prop :=
  Ensures x room (fun next t => Logged now s t next) (fun _ t => Logged now s t idle)

section Sections
variable {α : Type} {hub : HubConfig} {env : HubEnv} {now : UInt64} {s room : Room} {next : Thread}

theorem silentSame (effects : room.effects = s.effects) : Silent s room := ⟨[], by simp [effects], by simp⟩

theorem idleSuits (entry : RoomEntry) : idle.suits entry := by simp [Thread.suits]

theorem loggedStill (suits : next.suits s.entry) : Logged now s s next :=
  ⟨.quiet rfl rfl (silentSame rfl), .inl rfl, suits⟩

theorem keepsActive {k : Unit → HubM Thread} (rest : s.entry.active = true → Keeps now s (k ()) s) :
    Keeps now s (requireActive >>= k) s := by
  simp only [Keeps, requireActive, ensuresBind, ensuresGet, ensuresLift, throwIf_ok, not_not]
  exact ⟨fun _ active => rest active, fun _ _ => loggedStill (idleSuits _)⟩

theorem keepsGet {k : Room → HubM Thread} (rest : Keeps now s (k room) room) :
    Keeps now s (do let room ← get; k room) room :=
  rest

theorem keepsChecked {x : Except HubError α} {k : α → HubM Thread} (rest : ∀ a, x = .ok a → Keeps now s (k a) s) :
    Keeps now s (liftM x >>= k) s := by
  rw [Keeps, ensuresBind, ensuresLift]
  exact ⟨rest, fun _ _ => loggedStill (idleSuits _)⟩

theorem keepsSession (op : Operation) {k : Unit → HubM Thread}
    (rest : ∀ session, Step s.entry.session op session → Machine.next MediatorSession.perform s.entry.session op = session →
      Keeps now s (k ()) { s with entry := { s.entry with session } }) :
    Keeps now s (onSession (MediatorSession.perform op) >>= k) s := by
  rw [Keeps, ensuresBind]
  unfold Ensures onSession
  cases performed : MediatorSession.perform op s.entry.session with
  | ok u session => exact rest session (MediatorSession.acceptsIff.mp performed) (by rw [Machine.next, performed])
  | error e session =>
      obtain rfl := MediatorSession.performAtomic _ _ _ _ performed
      exact loggedStill (idleSuits _)

theorem keepsTurn {k : TurnMessage → HubM Thread} (due : ∃ turn, room.entry.session.currentTurn = .ok turn)
    (rest : ∀ turn, Keeps now s (k turn) room) : Keeps now s (currentTurn >>= k) room := by
  obtain ⟨turn, due⟩ := due
  simp only [Keeps, currentTurn, ensuresBind, ensuresGet, ensuresLift, rejectedOk]
  refine ⟨fun turn _ => rest turn, fun e failed => ?_⟩
  rw [due] at failed
  contradiction

/- The record that is written is that of the room as the section leaves it. -/
theorem keepsUpsert {k : Unit → HubM Thread} (persists : hub.persists = true) (before : s.entry.active = true)
    (after : room.entry.active = true) (listed : room.listed = s.listed) (silent : Silent s room)
    (rest : ∀ t, t.entry = room.entry → (∀ next : Thread, next.suits room.entry → Logged env.now s t next) →
      Keeps env.now s (k ()) t) :
    Keeps env.now s (persistRoomUpsert hub env >>= k) room := by
  obtain ⟨front, effects, quiet⟩ := silent.effects
  have logged (next : Thread) (suits : next.suits room.entry) : Logged env.now s
      { room with effects := room.effects ++ [.persisted (persistedRoomSnapshot room.entry env.now)] } next :=
    ⟨.written before after front (by rw [effects]) quiet, .inl listed, suits⟩
  simp only [Keeps, persistRoomUpsert, persists, if_true, emit, ensuresBind, ensuresGet, ensuresModify]
  cases env.persistFault with
  | some e => exact logged idle (idleSuits _)
  | none => exact rest _ rfl logged

theorem keepsPersisted (persists : hub.persists = true) (before : s.entry.active = true) (after : room.entry.active = true)
    (listed : room.listed = s.listed) (silent : Silent s room) (suits : next.suits room.entry) :
    Keeps env.now s (do persistRoomUpsert hub env; return next) room :=
  keepsUpsert persists before after listed silent fun _ _ logged => logged next suits

theorem keepsSettled {k : IssuedReceipt → HubM Thread} (issuable : Issuable hub env s.entry .settlementCompleted)
    (session : MediatorSession) (same : MediatorSession.SameTerms s.entry.session session)
    (rest : ∀ receipt, Keeps now s (k receipt) { s with entry := { s.entry with session, active := false }
                                                        effects := s.effects ++ [.issued receipt] }) :
    Keeps now s (settle hub env >>= k) { s with entry := { s.entry with session } } := by
  obtain ⟨receipt, issued⟩ := issuable
  have built : receiptFor hub env { s.entry with session, active := false } .settlementCompleted true = .ok receipt := by
    rw [← issued]
    simp only [receiptFor, previousStageHash, same.creator, decide_true]
  rw [Keeps, ensuresBind]
  simp only [settle, issueReceipt, onEntry, emit, ensuresBind, ensuresModify, ensuresGet, ensuresLift, rejectedOk]
  refine ⟨fun receipt _ => rest receipt, fun e failed => ?_⟩
  rw [built] at failed
  contradiction

theorem keepsGated {k : IssuedReceipt → HubM Thread} (issuable : Issuable hub env s.entry .penultimateObligationsComplete)
    (session : MediatorSession) (same : MediatorSession.SameTerms s.entry.session session)
    (rest : ∀ receipt, Keeps now s (k receipt) { s with entry := { s.entry with session, finalAckReceipt := some receipt }
                                                        effects := s.effects ++ [.issued receipt] }) :
    Keeps now s (issueReceipt hub env .penultimateObligationsComplete false >>= k) { s with entry := { s.entry with session } } := by
  obtain ⟨receipt, issued⟩ := issuable
  have built : receiptFor hub env { s.entry with session } .penultimateObligationsComplete false = .ok receipt := by
    rw [← issued]
    simp [receiptFor, previousStageHash, same.creator]
  rw [Keeps, ensuresBind]
  simp only [issueReceipt, onEntry, emit, ensuresBind, ensuresModify, ensuresGet, ensuresLift, rejectedOk, if_true]
  refine ⟨fun receipt _ => rest receipt, fun e failed => ?_⟩
  rw [built] at failed
  contradiction

theorem loggedClosed {errands : List Errand} (before : s.entry.active = true) (after : room.entry.active = false)
    (listed : room.listed = s.listed) (silent : Silent s room) (clearing : Delivery.clears errands) :
    Logged now s room (.telling errands) :=
  ⟨.closed before after silent clearing, .inl listed, fun _ _ _ => after⟩

theorem completionClears (receipt : IssuedReceipt) (roomId : RoomId) : Delivery.clears (completion receipt roomId) := trivial

/- A room is closed with the trade, or by an abort. -/
theorem keepsCompleted {errands : IssuedReceipt → List Errand} (before : s.entry.active = true)
    (issuable : Issuable hub env s.entry .settlementCompleted) (session : MediatorSession)
    (same : MediatorSession.SameTerms s.entry.session session) (clearing : ∀ receipt, Delivery.clears (errands receipt)) :
    Keeps now s (do let receipt ← settle hub env; return .telling (errands receipt)) { s with entry := { s.entry with session } } :=
  keepsSettled issuable session same fun receipt =>
    loggedClosed before rfl rfl ⟨[.issued receipt], rfl, by simp [Effect.records]⟩ (clearing receipt)

theorem keepsDeactivated {reason : Wire.Bytes} {errands : List Errand} (before : s.entry.active = true)
    (clearing : Delivery.clears errands) : Keeps now s (do deactivate reason; return .telling errands) s := by
  have closed (session : MediatorSession) : Logged now s { s with entry := { s.entry with active := false, session } }
      (.telling errands) :=
    loggedClosed before rfl rfl (silentSame rfl) clearing
  simp only [Keeps, deactivate, onEntry, ensuresBind, ensuresModify, ensuresGet, ensuresIte, ensuresPure]
  constructor
  · intro goesOn
    have aborts : MediatorSession.abort reason s.entry.session = .ok () (s.entry.session.abortedWith reason) :=
      MediatorSession.abortStep.mpr (.aborted reason goesOn.1)
    unfold Ensures onSession
    simp only [aborts]
    exact closed _
  · intro _
    exact closed _

/- What a section may rely on. -/
structure Sound (room : RoomEntry) : Prop where
  fit : Fit room.session.creator.terms.firstSender room
  named : validateRoomId room.session.roomId = .ok ()

theorem dueAt {session session' : MediatorSession} {op : Operation} (valid : ValidTerms session.creator.terms)
    (on : session.OnTrack) (step : Step session op session')
    (waiting : session'.state = .waitingForSent ∨ session'.state = .waitingForFeeSent) :
    ∃ turn, session'.currentTurn = .ok turn := by
  rcases waiting with waiting | waiting
  · obtain ⟨turn, due, _⟩ := MediatorSession.tranchePlace (step.same.creator ▸ valid) (step.onTrack on) (.inl waiting)
    exact ⟨turn, due⟩
  · exact ⟨_, MediatorSession.turnAtFee waiting⟩

theorem sentKeeps (sound : Sound s.entry) (persists : hub.persists = true) (party : Party) (message : RoundSignalMessage)
    (issuable : ∀ stage ∈ (Locked.sent party message).issues hub s.entry, Issuable hub env s.entry stage) :
    Keeps env.now s (handleSent hub env party message) s := by
  refine keepsActive fun active => keepsSession (.senderReportedSent party message) fun session step reached => ?_
  have on := sound.fit.track active
  refine keepsGet ?_
  dsimp only
  rcases step.sentPlace on with state | state | state | ⟨state, _⟩ <;> simp only [state]
  · refine keepsCompleted active (issuable _ ?_) session step.same fun receipt => completionClears receipt _
    simp [Locked.issues, active, reached, state]
  · have suits (entry : RoomEntry) : (Thread.telling [.lookUp (.told (.feeConfirmationPending s.entry.id))]).suits entry := by
      simp [Thread.suits]
    exact keepsPersisted persists active active rfl (silentSame rfl) (suits { s.entry with
      session, feeConfirmationPendingSince := some env.now })
  · refine keepsTurn (dueAt sound.fit.valid on step (.inl state)) fun turn => ?_
    exact keepsPersisted persists active active rfl (silentSame rfl) (by simp [Thread.suits])
  · refine keepsUpsert persists active active rfl (silentSame rfl) fun t same logged => ?_
    rw [Keeps, ensuresIte]
    exact ⟨fun _ => logged _ (by simp [Thread.suits]), fun _ => logged _ trivial⟩

theorem receivedKeeps (sound : Sound s.entry) (persists : hub.persists = true) (party : Party) (message : RoundSignalMessage)
    (issuable : ∀ stage ∈ (Locked.received party message).issues hub s.entry, Issuable hub env s.entry stage) :
    Keeps env.now s (handleReceived hub env party message) s := by
  refine keepsActive fun active => keepsSession (.receiverReportedReceived party message) fun session step reached => ?_
  have on := sound.fit.track active
  have named : (RoomFrame.told (.received message)).encodes = .ok () := by
    cases step with
    | received party waiting sender => exact sound.named
  refine keepsGet ?_
  dsimp only
  split
  · rename_i state
    refine keepsCompleted active (issuable _ ?_) session step.same fun receipt => ?_
    · simp [Locked.issues, active, reached, show session.state = .complete from state]
    · split
      · exact ⟨named, completionClears receipt _⟩
      · exact completionClears receipt _
  · refine keepsPersisted persists active active rfl (silentSame rfl) ?_
    split <;> simp [Thread.suits]
  · rename_i unfinished shut
    refine keepsTurn (dueAt sound.fit.valid on step ?_) fun turn => ?_
    · cases step with
      | received party waiting sender =>
          obtain ⟨more, leg, _⟩ := MediatorSession.onTranche on (.inr waiting)
          have arrived := (MediatorSession.advancedReaches more leg).state
          unfold MediatorSession.arrival at arrived
          split_ifs at arrived
          · exact absurd arrived shut
          · exact .inr arrived
          · exact absurd arrived unfinished
          · exact .inl arrived
    · refine keepsPersisted persists active active rfl (silentSame rfl) ?_
      split <;> simp [Thread.suits]

theorem tradeEphemeralKeyKeeps (clientId : ClientId) (party : Party) (message : TradeEphemeralKeyMessage) :
    Keeps env.now s (handleTradeEphemeralKey clientId party message) s := by
  have same := announceSession s.entry message.ephemeralPublicKey message.ephemeralPublicKeyMldsa65 party
  simp only [Keeps, handleTradeEphemeralKey, onEntry, ensuresBind, ensuresModify, ensuresPure]
  exact ⟨.quiet same.1 same.2 (silentSame rfl), .inl rfl, trivial⟩

theorem receiptAckKeeps (sound : Sound s.entry) (persists : hub.persists = true) (party : Party) (message : ReceiptAckMessage)
    (issuable : ∀ stage ∈ (Locked.receiptAck party message).issues hub s.entry, Issuable hub env s.entry stage) :
    Keeps env.now s (handleReceiptAck hub env party message) s := by
  refine keepsActive fun active => ?_
  show Keeps env.now s (liftM _ >>= _) s
  refine keepsChecked fun _ waits => keepsChecked fun _ stage => keepsChecked fun _ verified => ?_
  refine keepsSession (.acknowledgeFinalReceipt party) fun session step reached => ?_
  have on := sound.fit.track active
  show Keeps env.now s (ite _ _ _) _
  rw [Keeps, ensuresIte]
  refine ⟨fun opens => ?_, fun _ => keepsPersisted persists active active rfl (silentSame rfl) (by simp [Thread.suits])⟩
  simp only [throwIf_ok, not_not] at waits stage
  have issuing : Issuable hub env s.entry .penultimateObligationsComplete := by
    refine issuable _ ?_
    simp only [Locked.issues, active, waits, stage, verified, reached]
    simpa [Except.isOk, Except.toBool] using opens
  have waiting : session.state = .waitingForSent ∨ session.state = .waitingForFeeSent := by
    cases step with
    | acknowledged party waiting first =>
        unfold MediatorSession.acknowledged at opens ⊢
        split_ifs at opens ⊢
        · exact .inr rfl
        · exact .inl rfl
        · exact absurd (by cases party <;> exact waits) opens
  refine keepsGated issuing session step.same fun receipt => keepsTurn (dueAt sound.fit.valid on step waiting) fun turn => ?_
  exact keepsPersisted persists active active rfl ⟨[.issued receipt], rfl, by simp [Effect.records]⟩ (by simp [Thread.suits])

theorem abortKeeps (reason : Wire.Bytes) : Keeps now s (abortRoom reason) s := by
  show Keeps now s (ite _ _ _) s
  rw [Keeps, ensuresIte]
  exact ⟨fun active => keepsDeactivated active trivial, fun _ => loggedStill (idleSuits _)⟩

theorem disconnectKeeps : Keeps now s removeClient s := by
  show Keeps now s (ite _ _ _) s
  rw [Keeps, ensuresIte]
  exact ⟨fun active => keepsDeactivated active trivial, fun _ => loggedStill (idleSuits _)⟩

theorem confirmFeeKeeps (issuable : ∀ stage ∈ Locked.confirmFee.issues hub s.entry, Issuable hub env s.entry stage) :
    Keeps env.now s (tryConfirmFeeLocked hub env) s := by
  show Keeps env.now s (ite _ _ _) s
  rw [Keeps, ensuresIte]
  refine ⟨fun confirms => ?_, fun _ => loggedStill (idleSuits _)⟩
  refine keepsSession .confirmFeeReceived fun session step _ => ?_
  exact keepsCompleted confirms.1 (issuable _ (by simp [Locked.issues, confirms])) session step.same
    fun receipt => completionClears receipt _

theorem lockedKeeps (sound : Sound s.entry) (persists : hub.persists = true) (locked : Locked)
    (issuable : ∀ stage ∈ locked.issues hub s.entry, Issuable hub env s.entry stage) :
    Keeps env.now s (locked.run hub env) s := by
  cases locked with
  | sent party message => exact sentKeeps sound persists party message issuable
  | received party message => exact receivedKeeps sound persists party message issuable
  | tradeEphemeralKey clientId party message => exact tradeEphemeralKeyKeeps clientId party message
  | receiptAck party message => exact receiptAckKeeps sound persists party message issuable
  | abort reason => exact abortKeeps reason
  | confirmFee => exact confirmFeeKeeps issuable
  | disconnect => exact disconnectKeeps

theorem disconnectCloses : Ensures removeClient s (fun _ t => t.entry.active = false) (fun _ t => t.entry.active = false) := by
  show Ensures (ite _ _ _) s _ _
  rw [ensuresIte]
  refine ⟨fun _ => ?_, fun inactive => Bool.eq_false_iff.mpr inactive⟩
  simp only [deactivate, onEntry, ensuresBind, ensuresModify, ensuresGet, ensuresIte, ensuresPure]
  refine ⟨fun _ => ?_, fun _ => trivial⟩
  unfold Ensures onSession
  cases MediatorSession.abort (Wire.ascii "peer disconnected") s.entry.session <;> rfl

end Sections

/-! One step of a thread. -/

structure Steps (now : UInt64) (s : Shared) (thread : Thread) (t : Shared) (next : Thread) : Prop where
  logged : Logged now s.room t.room next
  clears : thread.clears → t.room.effects = s.room.effects ++ [.unpersisted] ∨ next.clears
  closes : thread = .locking .disconnect → t.room.entry.active = false
  upserts : thread = .persisting → ¬Silent s.room t.room
  entry : t.room.entry = s.room.entry ∨ ∃ locked, thread = .locking locked

/- A step is in order when its room is open for the record it writes, and a receipt it has to issue can be issued. -/
structure Ready (hub : HubConfig) (env : HubEnv) (room : RoomEntry) (thread : Thread) : Prop where
  stillOpen : thread = .persisting → room.active = true
  issues : ∀ locked, thread = .locking locked → ∀ stage ∈ locked.issues hub room, Issuable hub env room stage

section Threads
variable {hub : HubConfig} {env : HubEnv} {now : UInt64} {s t : Shared} {thread next : Thread}

def Proceeds (now : UInt64) (s : Shared) (thread : Thread) (x : SharedM Thread) : Prop :=
  Ensures x s (fun next t => Steps now s thread t next) (fun _ t => Steps now s thread t idle)

/- A step that leaves the room as it is. -/
theorem stepsStill (room : t.room = s.room) (suits : next.suits s.room.entry) (clears : thread.clears → next.clears)
    (waits : thread ≠ .locking .disconnect := by simp) (writes : thread ≠ .persisting := by simp) :
    Steps now s thread t next where
  logged := by
    rw [room]
    exact loggedStill suits
  clears clear := .inr (clears clear)
  closes is := absurd is waits
  upserts is := absurd is writes
  entry := .inl (by rw [room])

theorem restSuits {entry : RoomEntry} {errand : Errand} {rest more : List Errand} (suits : (Thread.telling (errand :: rest)).suits entry)
    (new : ∀ errand ∈ more, errand ≠ .unpersist ∧ errand ≠ .erase) : (Thread.telling (more ++ rest)).suits entry := by
  intro other mem ends
  rcases List.mem_append.mp mem with first | later
  · rcases ends with is | is
    · exact absurd is (new other first).1
    · exact absurd is (new other first).2
  · exact suits other (List.mem_cons_of_mem _ later) ends

theorem errandSteps (persists : hub.persists = true) (errand : Errand) (rest : List Errand)
    (suits : (Thread.telling (errand :: rest)).suits s.room.entry) :
    Proceeds env.now s (.telling (errand :: rest)) ((Thread.telling (errand :: rest)).run hub env) := by
  have goesOn : (Thread.telling ([] ++ rest)).suits s.room.entry := restSuits suits (by simp)
  show Proceeds env.now s _ (errand.run hub env >>= fun more => pure (.telling (more ++ rest)))
  cases errand with
  | recordTrade =>
      simp only [Proceeds, Errand.run, recordCompletedTrade, ensuresBind, ensuresOnRoom, ensuresGet, emit, ensuresModify, ensuresPure]
      exact ⟨⟨.quiet rfl rfl ⟨_, rfl, by simp [Effect.records]⟩, .inl rfl, goesOn⟩, fun clear => .inr clear, by simp, by simp, .inl rfl⟩
  | unpersist =>
      have inactive := suits .unpersist List.mem_cons_self (.inl rfl)
      simp only [Proceeds, Errand.run, persistRoomRemove, persists, if_true, ensuresBind, ensuresOnRoom, emit, ensuresModify]
      cases env.removeFault with
      | some e => exact ⟨⟨.removed inactive rfl rfl, .inl rfl, idleSuits _⟩, fun _ => .inl rfl, by simp, by simp, .inl rfl⟩
      | none => exact ⟨⟨.removed inactive rfl rfl, .inl rfl, goesOn⟩, fun _ => .inl rfl, by simp, by simp, .inl rfl⟩
  | erase =>
      have inactive := suits .erase List.mem_cons_self (.inr rfl)
      simp only [Proceeds, Errand.run, eraseRoom, ensuresBind, ensuresOnRoom, emit, ensuresModify, ensuresPure]
      exact ⟨⟨.quiet rfl rfl ⟨_, rfl, by simp [Effect.records]⟩, .inr inactive, goesOn⟩, False.elim, by simp, by simp, .inl rfl⟩
  | lookUp frame =>
      simp only [Proceeds, Errand.run, ensuresBind, ensuresLift, ensuresGet, ensuresPure]
      refine ⟨fun _ _ => stepsStill rfl (restSuits suits ?_) False.elim, fun _ _ => stepsStill rfl (idleSuits _) False.elim⟩
      split <;> split <;> simp
  | tell party frame =>
      simp only [Proceeds, Errand.run, ensuresBind, ensuresLift, ensuresEnqueue, ensuresPure]
      refine ⟨fun _ _ => stepsStill ?_ goesOn And.right, fun e failed => stepsStill rfl (idleSuits _) fun clear => ?_⟩
      · split <;> rfl
      · rw [clear.1] at failed
        contradiction
  | put party frame =>
      simp only [Proceeds, Errand.run, ensuresBind, ensuresEnqueue, ensuresPure]
      refine stepsStill ?_ goesOn False.elim
      split <;> rfl

/- A section that finds the room, before it is locked. -/
theorem foundSteps (thread : Thread) (clientId : ClientId) (roomId : RoomId) {k : Party → SharedM Thread}
    (finds : ∀ party, ∃ next : Thread, k party = pure next ∧ next.suits s.room.entry) (clears : ¬thread.clears)
    (waits : thread ≠ .locking .disconnect) (writes : thread ≠ .persisting) :
    Proceeds now s thread (onRoom (findRoomFor clientId roomId) >>= k) := by
  simp only [Proceeds, findRoomFor, ensuresBind, ensuresOnRoom, ensuresGet, ensuresLift]
  refine ⟨fun _ _ => ⟨fun party _ => ?_, fun _ _ => ?_⟩, fun _ _ => ?_⟩
  · obtain ⟨next, goesOn, suits⟩ := finds party
    rw [goesOn]
    exact stepsStill rfl suits (fun clear => absurd clear clears) waits writes
  · exact stepsStill rfl (idleSuits _) (fun clear => absurd clear clears) waits writes
  · exact stepsStill rfl (idleSuits _) (fun clear => absurd clear clears) waits writes

theorem startSteps (call : Hub.Call) (suits : (Thread.starting call).suits s.room.entry) :
    Proceeds now s (.starting call) (start call) := by
  cases call with
  | disconnect clientId => exact suits.elim
  | tradeEphemeralKey clientId message =>
      simp only [Proceeds, start, ensuresBind (x := liftM _), ensuresLift]
      refine ⟨fun _ _ => ⟨fun _ _ => ?_, fun _ _ => stepsStill rfl (idleSuits _) False.elim⟩,
        fun _ _ => stepsStill rfl (idleSuits _) False.elim⟩
      exact foundSteps _ _ _ (fun party => ⟨_, rfl, trivial⟩) id (by simp) (by simp)
  | confirmFee roomId =>
      simp only [Proceeds, start, ensuresBind, ensuresGet, ensuresPure]
      refine stepsStill rfl ?_ False.elim
      split
      · trivial
      · exact idleSuits _
  | _ => exact foundSteps _ _ _ (fun party => ⟨_, rfl, trivial⟩) id (by simp) (by simp)

theorem threadSteps (persists : hub.persists = true) (sound : Sound s.room.entry) (suits : thread.suits s.room.entry)
    (ready : Ready hub env s.room.entry thread) : Proceeds env.now s thread (thread.run hub env) := by
  cases thread with
  | starting call => exact startSteps call suits
  | relaying clientId message => exact foundSteps _ _ _ (fun party => ⟨_, rfl, trivial⟩) id (by simp) (by simp)
  | handingOn party message =>
      simp only [Proceeds, Thread.run, ensuresBind, ensuresGet, ensuresLift, ensuresPure]
      exact ⟨fun _ _ => stepsStill rfl (by simp [Thread.suits]) False.elim, fun _ _ => stepsStill rfl (idleSuits _) False.elim⟩
  | locking locked =>
      simp only [Proceeds, Thread.run, ensuresBind, ensuresGet, ensuresOnRoom]
      have keeps : Keeps env.now s.room (locked.run hub { env with connected := s.registered }) s.room :=
        lockedKeeps sound persists locked (ready.issues locked rfl)
      have closes := @disconnectCloses s.room
      unfold Ensures at closes
      refine keeps.weaken (fun next t ran logged => ?_) (fun e t ran logged => ?_)
      · refine ⟨logged, False.elim, fun is => ?_, by simp, .inr ⟨locked, rfl⟩⟩
        cases is
        rwa [show removeClient s.room = .ok next t from ran] at closes
      · refine ⟨logged, False.elim, fun is => ?_, by simp, .inr ⟨locked, rfl⟩⟩
        cases is
        rwa [show removeClient s.room = .error e t from ran] at closes
  | telling errands =>
      cases errands with
      | nil => exact stepsStill rfl (idleSuits _) False.elim
      | cons errand rest => exact errandSteps persists errand rest suits
  | persisting =>
      have active := ready.stillOpen rfl
      have wrote (next : Thread) (suits : next.suits s.room.entry) : Steps env.now s .persisting { s with
          room := { s.room with effects := s.room.effects ++ [.persisted (persistedRoomSnapshot s.room.entry env.now)] } } next := by
        refine ⟨⟨.written active active [] (by simp) (by simp), .inl rfl, suits⟩, False.elim, by simp, fun _ silent => ?_, .inl rfl⟩
        obtain ⟨new, effects, quiet⟩ := silent.effects
        obtain rfl := List.append_cancel_left effects
        simp [Effect.records] at quiet
      simp only [Proceeds, Thread.run, persistRoomUpsert, persists, if_true, emit, ensuresBind, ensuresOnRoom, ensuresGet,
        ensuresModify]
      cases env.persistFault with
      | some e => exact wrote idle (idleSuits _)
      | none => exact wrote _ trivial
  | announcing =>
      simp only [Proceeds, Thread.run, ensuresBind, ensuresGet, ensuresLift, ensuresPure]
      exact ⟨fun _ _ => ⟨fun _ _ => stepsStill rfl trivial False.elim, fun _ _ => stepsStill rfl (idleSuits _) False.elim⟩,
        fun _ _ => stepsStill rfl (idleSuits _) False.elim⟩
  | announced waiting =>
      cases waiting with
      | nil =>
          simp only [Proceeds, Thread.run, currentTurn, ensuresBind, ensuresOnRoom, ensuresGet, ensuresLift, ensuresPure]
          exact ⟨fun _ _ => stepsStill rfl (by simp [Thread.suits]) False.elim, fun _ _ => stepsStill rfl (idleSuits _) False.elim⟩
      | cons now later =>
          simp only [Proceeds, Thread.run, ensuresBind, ensuresLift, ensuresEnqueue, ensuresPure]
          refine ⟨fun _ _ => stepsStill ?_ trivial False.elim, fun _ _ => stepsStill rfl (idleSuits _) False.elim⟩
          split <;> rfl

theorem Changed.sound {e e' : RoomEntry} (changed : Changed e.session.creator.terms.firstSender e e' next) (sound : Sound e) :
    Sound e' := by
  have fit := changed.fit sound.fit
  refine ⟨by rwa [fit.sender], ?_⟩
  cases changed with
  | still session active new =>
      rw [session]
      exact sound.named
  | moved op step =>
      rw [step.same.roomId]
      exact sound.named
  | closed before after same =>
      rw [same.roomId]
      exact sound.named

theorem threadSound (persists : hub.persists = true) (sound : Sound s.room.entry) (suits : thread.suits s.room.entry)
    (ready : Ready hub env s.room.entry thread) :
    Ensures (thread.run hub env) s (fun next t => Steps env.now s thread t next ∧ Sound t.room.entry)
      (fun _ t => Steps env.now s thread t idle ∧ Sound t.room.entry) := by
  have steps := threadSteps persists sound suits ready
  cases thread with
  | locking locked =>
      have ends : Ends s.room.entry.session.creator.terms.firstSender s.room.entry
          (locked.run hub { env with connected := s.registered }) s.room := lockedEnds sound.fit locked
      have moved : Ensures ((Thread.locking locked).run hub env) s (fun _ t => Sound t.room.entry) (fun _ t => Sound t.room.entry) := by
        simp only [Thread.run, ensuresBind, ensuresGet, ensuresOnRoom]
        exact ends.weaken (fun _ _ _ changed => changed.1.sound sound) (fun _ _ _ changed => changed.sound sound)
      unfold Ensures at moved
      refine steps.weaken (fun next t ran step => ⟨step, ?_⟩) (fun e t ran step => ⟨step, ?_⟩) <;> rwa [ran] at moved
  | _ =>
      refine steps.weaken (fun next t _ step => ⟨step, ?_⟩) (fun e t _ step => ⟨step, ?_⟩) <;>
        · rcases step.entry with same | ⟨locked, is⟩
          · rwa [same]
          · contradiction

end Threads

end Delivery

namespace Lobby
open Hub
open Delivery (Thread Sound Ready Steps Logs Silent)

/-! The threads that are at work on a room. -/

-- A room that a removal has yet to come to is locked next.
def Task.Holds : Task → Nat → Thread → Prop
  | .room place _ thread, q, held => q = place ∧ held = thread
  | .removing place _ thread rest, q, held => q = place ∧ held = thread ∨ q ∈ rest ∧ held = .locking .disconnect
  | _, _, _ => False

def Busy (s : State) (place : Nat) : Prop := place ∈ s.tables.rooms ∨ ∃ worker thread, (s.tasks worker).Holds place thread

/- A step is in order when what it does with a room is, and when the id it draws for an offer is that of no
room that is still worked on. -/
structure Orderly (config : LobbyConfig) (s : State) (worker : Worker) (env : LobbyEnv) : Prop where
  ready : ∀ place thread room, (s.tasks worker).Holds place thread → s.tables.entries[place]? = some room →
    Ready config.hub env.hub room thread
  unused : ∀ n message id, s.tasks worker = .serving n (.createOffer message) → env.drawn = .ok id →
    ∀ place room, s.tables.entries[place]? = some room → room.id = id → ¬Busy s place

def Fired.Orderly (config : LobbyConfig) (step : Fired) : Prop :=
  ∀ worker env, step.event = .acts worker env → Lobby.Orderly config step.source worker env

/- The records are those of the rooms in the table that are active, as their sessions stand. -/
structure Recorded (s : Tables) : Prop where
  backed : ∀ id record, s.persisted id = some record → ∃ place ∈ s.rooms, ∃ room, s.entries[place]? = some room ∧ room.id = id ∧
    room.active = true ∧ record = persistedRoomSnapshot room record.updatedAt
  there : ∀ place ∈ s.rooms, ∀ room, s.entries[place]? = some room → room.active = true →
    ∃ record, s.persisted room.id = some record ∧ record = persistedRoomSnapshot room record.updatedAt

/- A record that a step writes is that of a room that is active before and after. -/
def Fired.WritesOpen (step : Fired) : Prop :=
  ∀ id record, step.target.tables.persisted id = some record → step.source.tables.persisted id = some record ∨
    ∃ (place : Nat) (room after : RoomEntry), step.source.tables.entries[place]? = some room ∧ room.id = id ∧ room.active = true ∧
      step.target.tables.entries[place]? = some after ∧ after.active = true ∧ record = persistedRoomSnapshot after record.updatedAt

/- What a room's step does to the records. -/
inductive Marks (room after : RoomEntry) (next : Thread) (before kept : RoomId → Option PersistedRoom) : Prop where
  | quiet (session : after.session = room.session) (active : after.active = room.active) (same : kept = before)
  | written (now : UInt64) (open_ : room.active = true) (still : after.active = true)
      (record : kept = Function.update before room.id (some (persistedRoomSnapshot after now)))
  | closed (open_ : room.active = true) (shut : after.active = false) (same : kept = before) (clears : next.clears)
  | removed (inactive : room.active = false) (entry : after = room) (record : kept = Function.update before room.id none)

section Records
variable {s : Tables} {now : UInt64} {id : RoomId}

theorem recordSilent {effects : List Effect} (silent : ∀ effect ∈ effects, Effect.records effect = false) :
    (effects.foldl (Tables.record now id) s).persisted = s.persisted := by
  induction effects generalizing s with
  | nil => rfl
  | cons effect rest ih =>
      have first : (Tables.record now id s effect).persisted = s.persisted := by
        have quiet := silent effect List.mem_cons_self
        cases effect <;> first | rfl | contradiction
      rw [List.foldl_cons, ih fun other mem => silent other (List.mem_cons_of_mem _ mem), first]

theorem stepMarks {place : Nat} {room : RoomEntry} {given : Receivers} {thread next : Thread} {after : Delivery.Shared}
    (named : after.room.entry.id = room.id) (steps : Steps now (s.view place room given) thread after next)
    (receivers : Receivers) :
    Marks room after.room.entry next s.persisted (s.written place receivers now after).persisted := by
  have silent (quiet : Silent (s.view place room given).room after.room) :
      (s.written place receivers now after).persisted = s.persisted := by
    obtain ⟨new, effects, quiet⟩ := quiet.effects
    simp only [Tables.written, deliverPersisted, effects]
    exact recordSilent quiet
  cases steps.logged.logs with
  | quiet session active quiet => exact .quiet session active (silent quiet)
  | written before still front effects quiet =>
      refine .written now before still ?_
      simp only [Tables.written, deliverPersisted, effects, Tables.view, List.nil_append, List.foldl_append, List.foldl_cons,
        List.foldl_nil, Tables.record]
      rw [recordSilent quiet, persistedRoomSnapshot, named]
  | closed before shut quiet clears => exact .closed before shut (silent quiet) clears
  | removed inactive entry effects =>
      refine .removed inactive entry ?_
      simp only [Tables.written, deliverPersisted, effects, Tables.view, List.nil_append, List.foldl_cons, List.foldl_nil,
        Tables.record, named]

end Records

/-! The invariant. -/

structure Mirrored (s : State) : Prop where
  within : ∀ place, Busy s place → place < s.tables.entries.length
  sound : ∀ (place : Nat) (room : RoomEntry), s.tables.entries[place]? = some room → Sound room
  suits : ∀ worker place thread, (s.tasks worker).Holds place thread → ∀ room : RoomEntry, s.tables.entries[place]? = some room →
    thread.suits room
  requests : ∀ worker n id, s.tasks worker ≠ .serving n (.room (.call (.disconnect id)))
  leavers : ∀ worker, (s.tasks worker).leaves = true → ∃ n, worker = .client n
  apart : ∀ (p q : Nat) (room other : RoomEntry), s.tables.entries[p]? = some room → s.tables.entries[q]? = some other →
    Busy s p → Busy s q → room.id = other.id → p = q
  offered : ∀ offer ∈ s.tables.offers, ∀ (place : Nat) (room : RoomEntry), s.tables.entries[place]? = some room →
    room.id = offer.id → ¬Busy s place
  backed : ∀ id record, s.tables.persisted id = some record → ∃ (place : Nat) (room : RoomEntry),
    s.tables.entries[place]? = some room ∧ room.id = id ∧
      (room.active = true ∧ record = persistedRoomSnapshot room record.updatedAt ∨
        room.active = false ∧ ∃ worker thread, (s.tasks worker).Holds place thread ∧ thread.clears)
  there : ∀ (place : Nat) (room : RoomEntry), s.tables.entries[place]? = some room → room.active = true →
    place ∈ s.tables.rooms ∨ ∃ worker, (s.tasks worker).Holds place (.locking .disconnect)
  upserted : ∀ (place : Nat) (room : RoomEntry), s.tables.entries[place]? = some room → room.active = true →
    (∃ record, s.tables.persisted room.id = some record) ∨ ∃ worker, (s.tasks worker).Holds place .persisting

/- A worker's step on a room. -/
structure Works (s t : State) (worker : Worker) (place : Nat) (room after : RoomEntry) (thread next : Thread) : Prop where
  there : s.tables.entries[place]? = some room
  entries : t.tables.entries = s.tables.entries.set place after
  same : identity after = identity room
  sound : Sound after
  fewer : ∀ q ∈ t.tables.rooms, q ∈ s.tables.rooms
  listed : ∀ q ∈ s.tables.rooms, q ≠ place ∨ room.active = true → q ∈ t.tables.rooms
  offers : t.tables.offers = s.tables.offers
  marks : Marks room after next s.tables.persisted t.tables.persisted
  suits : next.suits after
  clears : thread.clears → t.tables.persisted = Function.update s.tables.persisted room.id none ∨ next.clears
  closes : thread = .locking .disconnect → after.active = false
  upserts : thread = .persisting → ∃ record, t.tables.persisted room.id = some record
  busy : Busy s place
  others : ∀ other, other ≠ worker → t.tasks other = s.tasks other
  news : ∀ q held, (t.tasks worker).Holds q held → q = place ∧ held = next ∨ (s.tasks worker).Holds q held
  keeps : ∀ q held, (s.tasks worker).Holds q held → q = place ∧ held = thread ∨ (t.tasks worker).Holds q held
  goesOn : next.clears → (t.tasks worker).Holds place next

section Works
variable {s t : State} {worker : Worker} {place : Nat} {room after : RoomEntry} {thread next : Thread}

theorem Works.held (works : Works s t worker place room after thread next) {other : Worker} {q : Nat} {held : Thread}
    (holds : (t.tasks other).Holds q held) : q = place ∧ held = next ∨ (s.tasks other).Holds q held := by
  by_cases own : other = worker
  · rw [own] at holds ⊢
    exact works.news q held holds
  · rw [works.others other own] at holds
    exact .inr holds

theorem Works.kept (works : Works s t worker place room after thread next) {other : Worker} {q : Nat} {held : Thread}
    (holds : (s.tasks other).Holds q held) : q = place ∧ held = thread ∨ (t.tasks other).Holds q held := by
  by_cases own : other = worker
  · rw [own] at holds ⊢
    exact works.keeps q held holds
  · rw [works.others other own]
    exact .inr holds

theorem Works.wasBusy (works : Works s t worker place room after thread next) {q : Nat} (busy : Busy t q) : Busy s q := by
  rcases busy with listed | ⟨other, held, holds⟩
  · exact .inl (works.fewer q listed)
  · rcases works.held holds with ⟨rfl, _⟩ | before
    · exact works.busy
    · exact .inr ⟨other, held, before⟩

theorem Works.entry (works : Works s t worker place room after thread next) {q : Nat} {entry : RoomEntry}
    (found : t.tables.entries[q]? = some entry) : q = place ∧ entry = after ∨ q ≠ place ∧ s.tables.entries[q]? = some entry := by
  rw [works.entries, List.getElem?_set] at found
  split at found
  · rename_i here
    split at found
    · exact .inl ⟨here.symm, (Option.some.inj found).symm⟩
    · contradiction
  · rename_i elsewhere
    exact .inr ⟨Ne.symm elsewhere, found⟩

theorem Works.here (works : Works s t worker place room after thread next) : t.tables.entries[place]? = some after := by
  rw [works.entries, List.getElem?_set_self (List.getElem?_eq_some_iff.mp works.there).1]

theorem Works.elsewhere (works : Works s t worker place room after thread next) {q : Nat} (other : q ≠ place) :
    t.tables.entries[q]? = s.tables.entries[q]? := by
  rw [works.entries, List.getElem?_set_ne (Ne.symm other)]

-- Who it is, and whether it may still be written, only goes one way.
theorem Marks.shut {before kept : RoomId → Option PersistedRoom} (marks : Marks room after next before kept)
    (inactive : room.active = false) : after.active = false := by
  cases marks with
  | quiet session active same => rw [active, inactive]
  | written now open_ => simp [inactive] at open_
  | closed open_ => simp [inactive] at open_
  | removed inactive entry record => rw [entry, inactive]

theorem suitsShut {entry : RoomEntry} (suits : thread.suits room) (shut : room.active = false → entry.active = false) :
    thread.suits entry := by
  cases thread with
  | starting call => cases call <;> exact suits
  | telling errands => exact fun errand mem ends => shut (suits errand mem ends)
  | _ => exact suits

theorem Marks.elsewhere {before kept : RoomId → Option PersistedRoom} (marks : Marks room after next before kept) {id : RoomId}
    (other : id ≠ room.id) : kept id = before id := by
  cases marks with
  | quiet session active same => rw [same]
  | written now open_ still record => rw [record, Function.update_of_ne other]
  | closed open_ shut same => rw [same]
  | removed inactive entry record => rw [record, Function.update_of_ne other]

theorem Mirrored.activeBusy (mirrored : Mirrored s) {q : Nat} {other : RoomEntry} (found : s.tables.entries[q]? = some other)
    (active : other.active = true) : Busy s q := by
  rcases mirrored.there q other found active with listed | ⟨holder, holds⟩
  · exact .inl listed
  · exact .inr ⟨holder, _, holds⟩

theorem Works.named (works : Works s t worker place room after thread next) : after.id = room.id := congrArg Identity.id works.same

-- A record says nothing of the room that a step which leaves the session can change.
theorem Works.snapshot (works : Works s t worker place room after thread next) (session : after.session = room.session)
    (now : UInt64) : persistedRoomSnapshot after now = persistedRoomSnapshot room now := by
  have partyA : after.partyA = room.partyA := congrArg Identity.partyA works.same
  have partyB : after.partyB = room.partyB := congrArg Identity.partyB works.same
  simp only [persistedRoomSnapshot, works.named, partyA, partyB, session]

def Backed (s : State) (id : RoomId) (record : PersistedRoom) (place : Nat) (room : RoomEntry) : Prop :=
  s.tables.entries[place]? = some room ∧ room.id = id ∧
    (room.active = true ∧ record = persistedRoomSnapshot room record.updatedAt ∨
      room.active = false ∧ ∃ worker thread, (s.tasks worker).Holds place thread ∧ thread.clears)

theorem Works.backedElsewhere (works : Works s t worker place room after thread next) {id : RoomId} {record : PersistedRoom} {q : Nat}
    {entry : RoomEntry} (backed : Backed s id record q entry) (differs : q ≠ place) : Backed t id record q entry := by
  obtain ⟨found, named, stands⟩ := backed
  refine ⟨(works.elsewhere differs).trans found, named, stands.imp_right fun closed => ⟨closed.1, ?_⟩⟩
  obtain ⟨_, holder, held, holds, clearing⟩ := closed
  rcases works.kept holds with ⟨here, _⟩ | still
  · exact absurd here differs
  · exact ⟨holder, held, still, clearing⟩

variable (mirrored : Mirrored s) (works : Works s t worker place room after thread next)
include mirrored works

-- Another room that is worked on has another id.
theorem Works.unlike {q : Nat} {other : RoomEntry} (found : s.tables.entries[q]? = some other) (busy : Busy s q)
    (differs : q ≠ place) : other.id ≠ room.id :=
  fun same => differs (mirrored.apart q place other room found works.there busy works.busy same)

theorem Works.suited (other : Worker) (q : Nat) (held : Thread) (holds : (t.tasks other).Holds q held) (entry : RoomEntry)
    (found : t.tables.entries[q]? = some entry) : held.suits entry := by
  rcases works.held holds with ⟨rfl, rfl⟩ | before
  · obtain rfl := Option.some.inj (works.here.symm.trans found)
    exact works.suits
  · rcases works.entry found with ⟨rfl, rfl⟩ | ⟨_, old⟩
    · exact suitsShut (mirrored.suits other q held before room works.there) works.marks.shut
    · exact mirrored.suits other q held before entry old

theorem Works.listedStill (q : Nat) (entry : RoomEntry) (found : t.tables.entries[q]? = some entry) (active : entry.active = true) :
    q ∈ t.tables.rooms ∨ ∃ holder, (t.tasks holder).Holds q (.locking .disconnect) := by
  have before : ∃ old, s.tables.entries[q]? = some old ∧ old.active = true := by
    rcases works.entry found with ⟨rfl, rfl⟩ | ⟨_, old⟩
    · refine ⟨room, works.there, ?_⟩
      by_contra inactive
      simp [works.marks.shut (Bool.eq_false_iff.mpr inactive)] at active
    · exact ⟨entry, old, active⟩
  obtain ⟨old, was, open_⟩ := before
  rcases mirrored.there q old was open_ with listed | ⟨holder, holds⟩
  · refine .inl (works.listed q listed ?_)
    by_cases here : q = place
    · rw [here, works.there] at was
      obtain rfl := Option.some.inj was
      exact .inr open_
    · exact .inl here
  · rcases works.kept holds with ⟨rfl, closing⟩ | still
    · obtain rfl := Option.some.inj (works.here.symm.trans found)
      simp [works.closes closing.symm] at active
    · exact .inr ⟨holder, still⟩

theorem Works.upsertedStill (q : Nat) (entry : RoomEntry) (found : t.tables.entries[q]? = some entry) (active : entry.active = true) :
    (∃ record, t.tables.persisted entry.id = some record) ∨ ∃ holder, (t.tasks holder).Holds q .persisting := by
  rcases works.entry found with ⟨rfl, rfl⟩ | ⟨differs, old⟩
  · rw [works.named]
    cases works.marks with
    | quiet session same kept =>
        rcases mirrored.upserted q room works.there (same.symm.trans active) with recorded | ⟨holder, holds⟩
        · rw [kept]
          exact .inl recorded
        · rcases works.kept holds with ⟨_, writes⟩ | still
          · exact .inl (works.upserts writes.symm)
          · exact .inr ⟨holder, still⟩
    | written now open_ still record =>
        rw [record, Function.update_self]
        exact .inl ⟨_, rfl⟩
    | closed open_ shut => simp [shut] at active
    | removed inactive same => simp [same, inactive] at active
  · have other := works.unlike mirrored old (mirrored.activeBusy old active) differs
    rw [works.marks.elsewhere other]
    rcases mirrored.upserted q entry old active with recorded | ⟨holder, holds⟩
    · exact .inl recorded
    · rcases works.kept holds with ⟨here, _⟩ | still
      · exact absurd here differs
      · exact .inr ⟨holder, still⟩

theorem Works.backedStill (id : RoomId) (record : PersistedRoom) (recorded : t.tables.persisted id = some record) :
    ∃ q entry, Backed t id record q entry := by
  have carried (before : s.tables.persisted id = some record) (there : ∀ stands : room.active = true ∧
        record = persistedRoomSnapshot room record.updatedAt ∨ room.active = false ∧ ∃ holder held, (s.tasks holder).Holds place held ∧
        held.clears, room.id = id → Backed t id record place after) : ∃ q entry, Backed t id record q entry := by
    obtain ⟨q, entry, found, named, stands⟩ := mirrored.backed id record before
    by_cases here : q = place
    · rw [here] at found stands
      obtain rfl := Option.some.inj (works.there.symm.trans found)
      exact ⟨place, after, there stands named⟩
    · exact ⟨q, entry, works.backedElsewhere ⟨found, named, stands⟩ here⟩
  cases marks : works.marks with
  | quiet session active kept =>
      rw [kept] at recorded
      refine carried recorded fun stands named => ⟨works.here, works.named.trans named, ?_⟩
      rcases stands with ⟨open_, snapshot⟩ | ⟨shut, holder, held, holds, clearing⟩
      · exact .inl ⟨active.trans open_, by rwa [works.snapshot session]⟩
      · refine .inr ⟨active.trans shut, ?_⟩
        rcases works.kept holds with ⟨_, rfl⟩ | still
        · rcases works.clears clearing with gone | goesOn
          · rw [← kept, gone, ← named, Function.update_self] at recorded
            contradiction
          · exact ⟨worker, next, works.goesOn goesOn, goesOn⟩
        · exact ⟨holder, held, still, clearing⟩
  | written now open_ still written =>
      by_cases own : id = room.id
      · rw [written, own, Function.update_self] at recorded
        obtain rfl := Option.some.inj recorded
        exact ⟨place, after, works.here, works.named.trans own.symm, .inl ⟨still, rfl⟩⟩
      · rw [written, Function.update_of_ne own] at recorded
        exact carried recorded fun _ named => absurd named.symm own
  | closed open_ shut kept clearing =>
      rw [kept] at recorded
      exact carried recorded fun _ named =>
        ⟨works.here, works.named.trans named, .inr ⟨shut, worker, next, works.goesOn clearing, clearing⟩⟩
  | removed inactive entry removed =>
      by_cases own : id = room.id
      · rw [removed, own, Function.update_self] at recorded
        contradiction
      · rw [removed, Function.update_of_ne own] at recorded
        exact carried recorded fun _ named => absurd named.symm own

theorem Works.mirrors (requests : ∀ n id, t.tasks worker ≠ .serving n (.room (.call (.disconnect id))))
    (leavers : (t.tasks worker).leaves = true → ∃ n, worker = .client n) : Mirrored t where
  within q busy := by
    rw [works.entries, List.length_set]
    exact mirrored.within q (works.wasBusy busy)
  sound q entry found := by
    rcases works.entry found with ⟨rfl, rfl⟩ | ⟨_, old⟩
    · exact works.sound
    · exact mirrored.sound q entry old
  suits := works.suited mirrored
  requests other n id := by
    by_cases own : other = worker
    · rw [own]
      exact requests n id
    · rw [works.others other own]
      exact mirrored.requests other n id
  leavers other leaving := by
    by_cases own : other = worker
    · rw [own] at leaving ⊢
      exact leavers leaving
    · rw [works.others other own] at leaving
      exact mirrored.leavers other leaving
  apart p q entry other found found' busy busy' same := by
    have id {q : Nat} {entry : RoomEntry} (found : t.tables.entries[q]? = some entry) :
        ∃ old, s.tables.entries[q]? = some old ∧ old.id = entry.id := by
      rcases works.entry found with ⟨rfl, rfl⟩ | ⟨_, old⟩
      · exact ⟨room, works.there, works.named.symm⟩
      · exact ⟨entry, old, rfl⟩
    obtain ⟨old, was, named⟩ := id found
    obtain ⟨old', was', named'⟩ := id found'
    exact mirrored.apart p q old old' was was' (works.wasBusy busy) (works.wasBusy busy') (named.trans (same.trans named'.symm))
  offered offer mem q entry found same busy := by
    rw [works.offers] at mem
    rcases works.entry found with ⟨rfl, rfl⟩ | ⟨_, old⟩
    · exact mirrored.offered offer mem q room works.there (works.named.symm.trans same) works.busy
    · exact mirrored.offered offer mem q entry old same (works.wasBusy busy)
  backed := works.backedStill mirrored
  there := works.listedStill mirrored
  upserted := works.upsertedStill mirrored

end Works

/-! The steps that are on no room. -/

section Others
variable {s t : State}

theorem busyIff (rooms : t.tables.rooms = s.tables.rooms) (held : ∀ worker q thread, (t.tasks worker).Holds q thread ↔
    (s.tasks worker).Holds q thread) (place : Nat) : Busy t place ↔ Busy s place := by
  simp only [Busy, rooms, held]

-- Only the offers and the connections changed.
structure Calm (s t : State) : Prop where
  entries : t.tables.entries = s.tables.entries
  rooms : t.tables.rooms = s.tables.rooms
  persisted : t.tables.persisted = s.tables.persisted
  held : ∀ worker q thread, (t.tasks worker).Holds q thread ↔ (s.tasks worker).Holds q thread
  requests : ∀ worker n id, t.tasks worker ≠ .serving n (.room (.call (.disconnect id)))
  leavers : ∀ worker, (t.tasks worker).leaves = true → ∃ n, worker = .client n

theorem Mirrored.calm (mirrored : Mirrored s) (calm : Calm s t) (offered : ∀ offer ∈ t.tables.offers, offer ∈ s.tables.offers ∨
    ∀ (place : Nat) (room : RoomEntry), s.tables.entries[place]? = some room → room.id = offer.id → ¬Busy s place) : Mirrored t where
  within place busy := by
    rw [calm.entries]
    exact mirrored.within place ((busyIff calm.rooms calm.held place).mp busy)
  sound := by
    rw [calm.entries]
    exact mirrored.sound
  suits := by
    simp only [calm.entries, calm.held]
    exact mirrored.suits
  requests := calm.requests
  leavers := calm.leavers
  apart := by
    simp only [calm.entries, busyIff calm.rooms calm.held]
    exact mirrored.apart
  offered offer mem place room found same busy := by
    rw [calm.entries] at found
    rw [busyIff calm.rooms calm.held] at busy
    rcases offered offer mem with old | new
    · exact mirrored.offered offer old place room found same busy
    · exact new place room found same busy
  backed := by
    simp only [calm.entries, calm.persisted, calm.held]
    exact mirrored.backed
  there := by
    simp only [calm.entries, calm.rooms, calm.held]
    exact mirrored.there
  upserted := by
    simp only [calm.entries, calm.persisted, calm.held]
    exact mirrored.upserted

-- What a task that is new to its worker adds to what is held.
theorem heldNew {worker : Worker} {task : Task} (free : ∀ q thread, ¬(s.tasks worker).Holds q thread)
    (tasks : t.tasks = Function.update s.tasks worker task) {other : Worker} {q : Nat} {thread : Thread} :
    (t.tasks other).Holds q thread ↔ other = worker ∧ task.Holds q thread ∨ (s.tasks other).Holds q thread := by
  by_cases own : other = worker
  · rw [tasks, own, Function.update_self]
    simp [free]
  · rw [tasks, Function.update_of_ne own]
    simp [own]

/- An offer becomes a room, which the thread that took it goes on with. -/
theorem Mirrored.joins (mirrored : Mirrored s) {worker : Worker} {offer : OpenOffer} {room : RoomEntry} {receivers : Receivers}
    (free : ∀ q thread, ¬(s.tasks worker).Holds q thread) (mem : offer ∈ s.tables.offers) (sound : Sound room)
    (named : room.id = offer.id) (active : room.active = true)
    (entries : t.tables.entries = s.tables.entries ++ [room]) (rooms : t.tables.rooms = s.tables.rooms ++ [s.tables.entries.length])
    (offers : t.tables.offers = s.tables.offers.filter fun other => other.id ≠ offer.id)
    (persisted : t.tables.persisted = s.tables.persisted)
    (tasks : t.tasks = Function.update s.tasks worker (.room s.tables.entries.length receivers .persisting)) : Mirrored t := by
  have held {other : Worker} {q : Nat} {thread : Thread} : (t.tasks other).Holds q thread ↔
      other = worker ∧ (q = s.tables.entries.length ∧ thread = .persisting) ∨ (s.tasks other).Holds q thread :=
    heldNew free tasks
  have fresh : ¬Busy s s.tables.entries.length := fun busy => absurd (mirrored.within _ busy) (lt_irrefl _)
  have busy {q : Nat} (busy : Busy t q) : q = s.tables.entries.length ∨ Busy s q := by
    rcases busy with listed | ⟨other, thread, holds⟩
    · rw [rooms, List.mem_append, List.mem_singleton] at listed
      exact listed.symm.imp_right .inl
    · exact (held.mp holds).imp (fun new => new.2.1) fun old => .inr ⟨other, thread, old⟩
  have entry {q : Nat} {entry : RoomEntry} (found : t.tables.entries[q]? = some entry) :
      q = s.tables.entries.length ∧ entry = room ∨ s.tables.entries[q]? = some entry := by
    rw [entries, List.getElem?_append] at found
    split at found
    · exact .inr found
    · rename_i last
      obtain ⟨here, rfl⟩ := List.getElem?_eq_some_iff.mp found
      rw [List.length_singleton] at here
      exact .inl ⟨by omega, by simp⟩
  have kept {q : Nat} {entry : RoomEntry} (found : s.tables.entries[q]? = some entry) : t.tables.entries[q]? = some entry := by
    rw [entries, List.getElem?_append_left (List.getElem?_eq_some_iff.mp found).1, found]
  have old {q : Nat} {entry : RoomEntry} (found : s.tables.entries[q]? = some entry) : q ≠ s.tables.entries.length :=
    ((List.getElem?_eq_some_iff.mp found).1).ne
  have apart {q : Nat} {other : RoomEntry} (found : s.tables.entries[q]? = some other) (busy : Busy s q) : other.id ≠ room.id :=
    fun same => mirrored.offered offer mem q other found (same.trans named) busy
  constructor
  · intro q held
    rw [entries, List.length_append, List.length_singleton]
    rcases busy held with rfl | old
    · exact Nat.lt_succ_self _
    · exact Nat.lt_succ_of_lt (mirrored.within q old)
  · intro q other found
    rcases entry found with ⟨_, rfl⟩ | old
    · exact sound
    · exact mirrored.sound q other old
  · intro other q thread holds entry' found
    rcases held.mp holds with ⟨_, _, rfl⟩ | before
    · trivial
    · rcases entry found with ⟨rfl, _⟩ | old
      · exact absurd (.inr ⟨other, thread, before⟩) fresh
      · exact mirrored.suits other q thread before entry' old
  · intro other n id
    rw [tasks]
    by_cases own : other = worker
    · simp [own]
    · rw [Function.update_of_ne own]
      exact mirrored.requests other n id
  · intro other leaving
    rw [tasks] at leaving
    by_cases own : other = worker
    · simp [own, Task.leaves] at leaving
    · rw [Function.update_of_ne own] at leaving
      exact mirrored.leavers other leaving
  · intro p q entry₁ entry₂ found₁ found₂ busy₁ busy₂ same
    rcases entry found₁ with ⟨rfl, rfl⟩ | old₁ <;> rcases entry found₂ with ⟨rfl, rfl⟩ | old₂
    · rfl
    · exact absurd same.symm (apart old₂ ((busy busy₂).resolve_left (old old₂)))
    · exact absurd same (apart old₁ ((busy busy₁).resolve_left (old old₁)))
    · exact mirrored.apart p q entry₁ entry₂ old₁ old₂ ((busy busy₁).resolve_left (old old₁))
        ((busy busy₂).resolve_left (old old₂)) same
  · intro other there q entry' found same held'
    rw [offers, List.mem_filter, decide_eq_true_eq] at there
    rcases entry found with ⟨_, rfl⟩ | before
    · exact there.2 (same.symm.trans named)
    · exact mirrored.offered other there.1 q entry' before same ((busy held').resolve_left (old before))
  · intro id record recorded
    rw [persisted] at recorded
    obtain ⟨q, entry', found, same, stands⟩ := mirrored.backed id record recorded
    refine ⟨q, entry', kept found, same, stands.imp_right fun closed => ⟨closed.1, ?_⟩⟩
    obtain ⟨_, holder, thread, holds, clearing⟩ := closed
    exact ⟨holder, thread, held.mpr (.inr holds), clearing⟩
  · intro q entry' found open_
    rw [rooms]
    rcases entry found with ⟨rfl, _⟩ | before
    · exact .inl (List.mem_append_right _ (List.mem_singleton_self _))
    · exact (mirrored.there q entry' before open_).imp (List.mem_append_left _) fun ⟨holder, holds⟩ => ⟨holder, held.mpr (.inr holds)⟩
  · intro q entry' found open_
    rw [persisted]
    rcases entry found with ⟨rfl, _⟩ | before
    · exact .inr ⟨worker, held.mpr (.inl ⟨rfl, rfl, rfl⟩)⟩
    · exact (mirrored.upserted q entry' before open_).imp_right fun ⟨holder, holds⟩ => ⟨holder, held.mpr (.inr holds)⟩

theorem removalHolds {affected : List Nat} {q : Nat} {thread : Thread} :
    (removal affected).Holds q thread ↔ q ∈ affected ∧ thread = .locking .disconnect := by
  cases affected with
  | nil => simp [removal, Task.Holds]
  | cons place rest => simp [removal, Task.Holds, or_and_right]

/- A client is removed, and its rooms with it. -/
theorem Mirrored.leaves (mirrored : Mirrored s) {n : Nat} {affected : List Nat} (listed : ∀ place ∈ affected, place ∈ s.tables.rooms)
    (free : ∀ q thread, ¬(s.tasks (.client n)).Holds q thread) (entries : t.tables.entries = s.tables.entries)
    (rooms : t.tables.rooms = s.tables.rooms.filter fun place => place ∉ affected)
    (offers : ∀ offer ∈ t.tables.offers, offer ∈ s.tables.offers) (persisted : t.tables.persisted = s.tables.persisted)
    (tasks : t.tasks = Function.update s.tasks (.client n) (removal affected)) : Mirrored t := by
  have held {other : Worker} {q : Nat} {thread : Thread} : (t.tasks other).Holds q thread ↔
      other = .client n ∧ (q ∈ affected ∧ thread = .locking .disconnect) ∨ (s.tasks other).Holds q thread := by
    rw [heldNew free tasks, removalHolds]
  have busy {q : Nat} (busy : Busy t q) : Busy s q := by
    rcases busy with there | ⟨other, thread, holds⟩
    · rw [rooms] at there
      exact .inl (List.mem_filter.mp there).1
    · rcases held.mp holds with new | old
      · exact .inl (listed q new.2.1)
      · exact .inr ⟨other, thread, old⟩
  constructor
  · intro q held'
    rw [entries]
    exact mirrored.within q (busy held')
  · rw [entries]
    exact mirrored.sound
  · intro other q thread holds entry found
    rw [entries] at found
    rcases held.mp holds with ⟨_, _, rfl⟩ | before
    · trivial
    · exact mirrored.suits other q thread before entry found
  · intro other m id
    rw [tasks]
    by_cases own : other = .client n
    · rw [own, Function.update_self]
      cases affected <;> simp [removal]
    · rw [Function.update_of_ne own]
      exact mirrored.requests other m id
  · intro other leaving
    rw [tasks] at leaving
    by_cases own : other = .client n
    · exact ⟨n, own⟩
    · rw [Function.update_of_ne own] at leaving
      exact mirrored.leavers other leaving
  · intro p q entry₁ entry₂ found₁ found₂ busy₁ busy₂ same
    rw [entries] at found₁ found₂
    exact mirrored.apart p q entry₁ entry₂ found₁ found₂ (busy busy₁) (busy busy₂) same
  · intro offer mem q entry found same held'
    rw [entries] at found
    exact mirrored.offered offer (offers offer mem) q entry found same (busy held')
  · intro id record recorded
    rw [persisted] at recorded
    obtain ⟨q, entry, found, same, stands⟩ := mirrored.backed id record recorded
    refine ⟨q, entry, entries ▸ found, same, stands.imp_right fun closed => ⟨closed.1, ?_⟩⟩
    obtain ⟨_, holder, thread, holds, clearing⟩ := closed
    exact ⟨holder, thread, held.mpr (.inr holds), clearing⟩
  · intro q entry found open_
    rw [entries] at found
    rw [rooms]
    rcases mirrored.there q entry found open_ with there | ⟨holder, holds⟩
    · by_cases gone : q ∈ affected
      · exact .inr ⟨.client n, held.mpr (.inl ⟨rfl, gone, rfl⟩)⟩
      · exact .inl (List.mem_filter.mpr ⟨there, by simpa using gone⟩)
    · exact .inr ⟨holder, held.mpr (.inr holds)⟩
  · intro q entry found open_
    rw [entries] at found
    rw [persisted]
    exact (mirrored.upserted q entry found open_).imp_right fun ⟨holder, holds⟩ => ⟨holder, held.mpr (.inr holds)⟩

end Others

/-! One step of the hub. -/

structure SameRooms (s t : Tables) : Prop where
  entries : t.entries = s.entries
  rooms : t.rooms = s.rooms
  offers : t.offers = s.offers
  persisted : t.persisted = s.persisted

-- A worker goes on with its room from thread to next, and with nothing else.
structure Continues (s t : State) (worker : Worker) (place : Nat) (thread next : Thread) : Prop where
  others : ∀ other, other ≠ worker → t.tasks other = s.tasks other
  news : ∀ q held, (t.tasks worker).Holds q held → q = place ∧ held = next ∨ (s.tasks worker).Holds q held
  keeps : ∀ q held, (s.tasks worker).Holds q held → q = place ∧ held = thread ∨ (t.tasks worker).Holds q held
  goesOn : next.clears → (t.tasks worker).Holds place next

section Rooms
variable {config : LobbyConfig} {env : LobbyEnv} {s t : State} {worker : Worker} {place : Nat} {room : RoomEntry} {thread next : Thread}

theorem putOwn (tables : Tables) (task : Task) : (s.put tables worker task).tasks worker = task := Function.update_self ..

theorem sameRoomsRefl (s : Tables) : SameRooms s s := ⟨rfl, rfl, rfl, rfl⟩

theorem sameRoomsCaught (n : Nat) (e : HubError) (s : Tables) : SameRooms s (caught n e s) := by
  cases e <;> exact ⟨rfl, rfl, rfl, rfl⟩

theorem stepWorks {given receivers : Receivers} {after : Delivery.Shared} (there : s.tables.entries[place]? = some room)
    (ready : Ready config.hub env.hub room thread) (busy : Busy s place)
    (steps : Steps env.hub.now (s.tables.view place room given) thread after next) (sound : Sound after.room.entry)
    (same : Delivery.SameShared (s.tables.view place room given) after)
    (written : SameRooms (s.tables.written place receivers env.hub.now after) t.tables)
    (continues : Continues s t worker place thread next) : Works s t worker place room after.room.entry thread next := by
  have alike : identity after.room.entry = identity room := by
    have id := same.id
    have partyA := same.partyA
    have partyB := same.partyB
    simp only [Tables.view] at id partyA partyB
    rw [identity, identity, id, partyA, partyB]
  have named : after.room.entry.id = room.id := congrArg Identity.id alike
  have marks := stepMarks named steps receivers
  rw [← written.persisted] at marks
  have rooms := written.rooms.trans (writtenRooms place receivers after)
  refine { there, same := alike, sound, marks, busy, suits := steps.logged.suits, closes := steps.closes,
           entries := written.entries.trans (writtenEntries place receivers after),
           offers := written.offers.trans (writtenOffers place receivers after),
           others := continues.others, news := continues.news, keeps := continues.keeps, goesOn := continues.goesOn,
           fewer := ?_, listed := ?_, clears := ?_, upserts := ?_ }
  · intro q mem
    rw [rooms] at mem
    split at mem
    · exact mem
    · exact (List.mem_filter.mp mem).1
  · intro q mem stays
    rw [rooms]
    split
    · exact mem
    · rename_i dropped
      refine List.mem_filter.mpr ⟨mem, decide_eq_true fun here => ?_⟩
      rcases stays with other | active
      · exact other here
      · rcases steps.logged.listed with listed | inactive
        · exact dropped (listed.trans (decide_eq_true (here ▸ mem)))
        · simp [Tables.view, active] at inactive
  · intro clearing
    rcases steps.clears clearing with gone | goesOn
    · refine .inl ?_
      rw [written.persisted]
      simp only [Tables.written, deliverPersisted, gone, Tables.view, List.nil_append, List.foldl_cons, List.foldl_nil,
        Tables.record, named]
    · exact .inr goesOn
  · intro writes
    have active := ready.stillOpen writes
    cases steps.logged.logs with
    | quiet session active silent => exact absurd silent (steps.upserts writes)
    | closed before shut silent clears => exact absurd silent (steps.upserts writes)
    | removed inactive entry effects => simp [Tables.view, active] at inactive
    | written before still front effects quiet =>
        rw [written.persisted]
        simp only [Tables.written, deliverPersisted, effects, Tables.view, List.nil_append, List.foldl_append, List.foldl_cons,
          List.foldl_nil, Tables.record, persistedRoomSnapshot, named, Function.update_self]
        exact ⟨_, rfl⟩

theorem roomWorks (mirrored : Mirrored s) (persists : config.hub.persists = true) (there : s.tables.entries[place]? = some room)
    (suits : thread.suits room) (ready : Ready config.hub env.hub room thread) (busy : Busy s place) (receivers : Receivers)
    (worker : Worker) : Ensures (runRoom config env place receivers thread) s.tables
      (fun a tables => ∀ t, SameRooms tables t.tables → Continues s t worker place thread a.2 →
        ∃ after, Works s t worker place room after thread a.2)
      (fun _ tables => ∀ t, SameRooms tables t.tables → Continues s t worker place thread Delivery.idle →
        ∃ after, Works s t worker place room after thread Delivery.idle) := by
  rw [runRoom, ensuresBind, ensuresGet]
  simp only [there]
  generalize (if looksUp thread then s.tables.receivers room else receivers) = given
  have same := Delivery.sameThread config.hub env.hub thread (s.tables.view place room given)
  have steps := @Delivery.threadSound config.hub env.hub (s.tables.view place room given) thread persists
    (mirrored.sound place room there) suits ready
  unfold Ensures at same steps
  split
  · rename_i next after ran
    rw [ran] at same steps
    exact fun t written continues => ⟨_, stepWorks there ready busy steps.1 steps.2 same written continues⟩
  · rename_i e after ran
    rw [ran] at same steps
    exact fun t written continues => ⟨_, stepWorks there ready busy steps.1 steps.2 same written continues⟩

-- What a step leaves: the invariant, and the records of rooms that are open.
structure Leaves (s t : State) : Prop where
  mirrored : Mirrored t
  writes : ∀ id record, t.tables.persisted id = some record → s.tables.persisted id = some record ∨
    ∃ (place : Nat) (room after : RoomEntry), s.tables.entries[place]? = some room ∧ room.id = id ∧ room.active = true ∧
      t.tables.entries[place]? = some after ∧ after.active = true ∧ record = persistedRoomSnapshot after record.updatedAt

theorem Works.leaves {after : RoomEntry} (works : Works s t worker place room after thread next) (mirrored : Mirrored s)
    (requests : ∀ n id, t.tasks worker ≠ .serving n (.room (.call (.disconnect id))))
    (leavers : (t.tasks worker).leaves = true → ∃ n, worker = .client n) : Leaves s t where
  mirrored := works.mirrors mirrored requests leavers
  writes id record recorded := by
    by_cases own : id = room.id
    · cases works.marks with
      | quiet session active kept => exact .inl (by rwa [kept] at recorded)
      | closed open_ shut kept => exact .inl (by rwa [kept] at recorded)
      | removed inactive entry removed =>
          rw [removed, own, Function.update_self] at recorded
          contradiction
      | written now open_ still written =>
          rw [written, own, Function.update_self] at recorded
          obtain rfl := Option.some.inj recorded
          exact .inr ⟨place, room, after, works.there, own.symm, open_, works.here, still, rfl⟩
    · rw [works.marks.elsewhere own] at recorded
      exact .inl recorded

theorem Calm.leaves (calm : Calm s t) (mirrored : Mirrored s) (offered : ∀ offer ∈ t.tables.offers, offer ∈ s.tables.offers ∨
    ∀ (place : Nat) (room : RoomEntry), s.tables.entries[place]? = some room → room.id = offer.id → ¬Busy s place) : Leaves s t where
  mirrored := mirrored.calm calm offered
  writes id record recorded := .inl (by rwa [calm.persisted] at recorded)

-- A task that is on no room.
def Task.Free (task : Task) : Prop := (∀ q thread, ¬task.Holds q thread) ∧
  ∀ n id, task ≠ .serving n (.room (.call (.disconnect id)))

theorem Mirrored.puts (mirrored : Mirrored s) {tables : Tables} {task : Task} (was : ∀ q thread, ¬(s.tasks worker).Holds q thread)
    (free : task.Free) (leaving : task.leaves = true → ∃ n, worker = .client n) (entries : tables.entries = s.tables.entries)
    (rooms : tables.rooms = s.tables.rooms) (persisted : tables.persisted = s.tables.persisted) : Calm s (s.put tables worker task) where
  entries := entries
  rooms := rooms
  persisted := persisted
  held other q thread := by
    by_cases own : other = worker
    · simp [State.put, own, free.1, was]
    · simp [State.put, Function.update_of_ne own]
  requests other n id := by
    by_cases own : other = worker
    · simpa [State.put, own] using free.2 n id
    · simpa [State.put, Function.update_of_ne own] using mirrored.requests other n id
  leavers other leaves := by
    by_cases own : other = worker
    · simp only [State.put, own, Function.update_self] at leaves ⊢
      exact leaving leaves
    · simp only [State.put, Function.update_of_ne own] at leaves
      exact mirrored.leavers other leaves

theorem Mirrored.moves (mirrored : Mirrored s) {tables : Tables} {task : Task} (was : ∀ q thread, ¬(s.tasks worker).Holds q thread)
    (free : task.Free) (leaving : task.leaves = true → ∃ n, worker = .client n) (entries : tables.entries = s.tables.entries)
    (rooms : tables.rooms = s.tables.rooms) (persisted : tables.persisted = s.tables.persisted)
    (offered : ∀ offer ∈ tables.offers, offer ∈ s.tables.offers ∨ ∀ (place : Nat) (room : RoomEntry),
      s.tables.entries[place]? = some room → room.id = offer.id → ¬Busy s place) : Leaves s (s.put tables worker task) :=
  (mirrored.puts was free leaving entries rooms persisted).leaves mirrored offered

/- What comes of the section a worker runs, whether it returns or throws. -/
def Acts (s : State) (worker : Worker) (x : TablesM Task) : Prop :=
  Ensures x s.tables (fun task tables => Leaves s (s.put tables worker task))
    (fun e tables => ∀ t, s.thrown tables worker e = some t → Leaves s t)

-- After a throw the worker is on no room, and a removal is not gone on with.
theorem thrownTask {tables : Tables} {e : HubError} (thrown : s.thrown tables worker e = some t) :
    ∃ after task, t = s.put after worker task ∧ SameRooms tables after ∧ task.Free ∧ task.leaves = false ∧
      (∀ n, worker = .client n → (s.tasks worker).leaves = false) := by
  cases worker with
  | client n =>
      simp only [State.thrown, Option.ite_none_left_eq_some, Option.some.injEq] at thrown
      obtain ⟨stays, rfl⟩ := thrown
      exact ⟨_, _, rfl, sameRoomsCaught n e tables, ⟨fun _ _ => id, by simp [refusal]⟩, rfl, fun _ _ => by simpa using stays⟩
  | operator n =>
      obtain rfl := Option.some.inj thrown
      exact ⟨_, _, rfl, sameRoomsRefl tables, ⟨fun _ _ => id, by simp⟩, rfl, by simp⟩

theorem Mirrored.reads (mirrored : Mirrored s) {x : TablesM Task} (was : ∀ q thread, ¬(s.tasks worker).Holds q thread)
    (reads : Ensures x s.tables (fun task tables => SameRooms s.tables tables ∧ task.Free ∧ task.leaves = false)
      (fun _ tables => SameRooms s.tables tables)) : Acts s worker x := by
  refine reads.weaken (fun task tables _ kept => ?_) (fun e tables _ kept t thrown => ?_)
  · obtain ⟨same, free, stays⟩ := kept
    refine mirrored.moves was free (by simp [stays]) same.entries same.rooms same.persisted fun offer mem => .inl ?_
    exact same.offers ▸ mem
  · obtain ⟨after, task, rfl, caught, free, stays, _⟩ := thrownTask thrown
    refine mirrored.moves was free (by simp [stays]) (caught.entries.trans kept.entries) (caught.rooms.trans kept.rooms)
      (caught.persisted.trans kept.persisted) fun offer mem => .inl ?_
    exact (caught.offers.trans kept.offers) ▸ mem

/- A section on a room. -/
theorem Mirrored.acts (mirrored : Mirrored s) (persists : config.hub.persists = true) (there : s.tables.entries[place]? = some room)
    (suits : thread.suits room) (ready : Ready config.hub env.hub room thread) (busy : Busy s place) (receivers : Receivers)
    (follows : Receivers × Thread → Task) (free : ∀ a n id, follows a ≠ .serving n (.room (.call (.disconnect id))))
    (leaving : ∀ a, (follows a).leaves = true → ∃ n, worker = .client n)
    (goesOn : ∀ a tables, Continues s (s.put tables worker (follows a)) worker place thread a.2)
    (gives : (∀ n, worker = .client n → (s.tasks worker).leaves = false) → ∀ q held, (s.tasks worker).Holds q held →
      q = place ∧ held = thread) :
    Acts s worker (runRoom config env place receivers thread >>= fun a => pure (follows a)) := by
  rw [Acts, ensuresBind]
  refine (roomWorks mirrored persists there suits ready busy receivers worker).weaken
    (fun a tables _ works => ?_) (fun e tables _ works t thrown => ?_)
  · obtain ⟨after, works⟩ := works (s.put tables worker (follows a)) (sameRoomsRefl tables) (goesOn a tables)
    refine works.leaves mirrored ?_ ?_
    · simpa [State.put] using free a
    · simpa [State.put] using leaving a
  · obtain ⟨caught, task, rfl, same, idle, stays, left⟩ := thrownTask thrown
    obtain ⟨after, works⟩ := works (s.put caught worker task) same
      ⟨fun other own => Function.update_of_ne own .., fun q held holds => by simp [State.put, idle.1] at holds,
        fun q held holds => .inl (gives left q held holds), False.elim⟩
    refine works.leaves mirrored ?_ ?_
    · simpa [State.put] using idle.2
    · simp [State.put, stays]

theorem roomTaskHolds {receivers : Receivers} {q : Nat} {held : Thread} :
    (roomTask place receivers next).Holds q held ↔ next ≠ Delivery.idle ∧ q = place ∧ held = next := by
  unfold roomTask
  split <;> simp_all [Task.Holds]

theorem clearsBusy (clears : next.clears) : next ≠ Delivery.idle := by
  intro rest
  rw [rest] at clears
  exact clears

theorem roomActs (mirrored : Mirrored s) (persists : config.hub.persists = true) (orderly : Orderly config s worker env)
    {receivers : Receivers} (at_ : s.tasks worker = .room place receivers thread) :
    Acts s worker ((Task.room place receivers thread).run config env) := by
  have holds : (s.tasks worker).Holds place thread := by
    rw [at_]
    exact ⟨rfl, rfl⟩
  have busy : Busy s place := .inr ⟨worker, thread, holds⟩
  obtain ⟨room, there⟩ : ∃ room, s.tables.entries[place]? = some room :=
    ⟨_, List.getElem?_eq_getElem (mirrored.within place busy)⟩
  refine mirrored.acts persists there (mirrored.suits worker place thread holds room there)
    (orderly.ready place thread room holds there) busy receivers (fun a => roomTask place a.1 a.2) ?_ ?_ ?_ ?_
  · intro a n id
    unfold roomTask
    split <;> simp
  · intro a leaves
    unfold roomTask at leaves
    split at leaves <;> simp [Task.leaves] at leaves
  · intro a tables
    refine ⟨fun other own => Function.update_of_ne own .., fun q held holds => ?_, fun q held holds => ?_, fun clears => ?_⟩
    · rw [putOwn, roomTaskHolds] at holds
      exact .inl holds.2
    · rw [at_] at holds
      exact .inl holds
    · rw [putOwn, roomTaskHolds]
      exact ⟨clearsBusy clears, rfl, rfl⟩
  · intro _ q held holds
    rw [at_] at holds
    exact holds

theorem removingActs (mirrored : Mirrored s) (persists : config.hub.persists = true) (orderly : Orderly config s worker env)
    {receivers : Receivers} {rest : List Nat} (at_ : s.tasks worker = .removing place receivers thread rest) :
    Acts s worker ((Task.removing place receivers thread rest).run config env) := by
  have holds : (s.tasks worker).Holds place thread := by
    rw [at_]
    exact .inl ⟨rfl, rfl⟩
  have busy : Busy s place := .inr ⟨worker, thread, holds⟩
  obtain ⟨room, there⟩ : ∃ room, s.tables.entries[place]? = some room :=
    ⟨_, List.getElem?_eq_getElem (mirrored.within place busy)⟩
  have client := mirrored.leavers worker (by rw [at_]; rfl)
  have after {a : Receivers × Thread} {q : Nat} {held : Thread} :
      (if a.2 = Delivery.idle then removal rest else .removing place a.1 a.2 rest : Task).Holds q held ↔
        (a.2 ≠ Delivery.idle ∧ q = place ∧ held = a.2) ∨ q ∈ rest ∧ held = .locking .disconnect := by
    split
    · rename_i done
      simp [removalHolds, done]
    · rename_i more
      simp [Task.Holds, more]
  refine mirrored.acts persists there (mirrored.suits worker place thread holds room there)
    (orderly.ready place thread room holds there) busy receivers
    (fun a => if a.2 = Delivery.idle then removal rest else .removing place a.1 a.2 rest) ?_ (fun _ _ => client) ?_ ?_
  · intro a n id
    split
    · cases rest <;> simp [removal]
    · simp
  · intro a tables
    refine ⟨fun other own => Function.update_of_ne own .., fun q held holds => ?_, fun q held holds => ?_, fun clears => ?_⟩
    · rw [putOwn, after] at holds
      rw [at_]
      exact holds.imp And.right .inr
    · rw [at_] at holds
      rw [putOwn, after]
      exact holds.imp_right .inr
    · rw [putOwn, after]
      exact .inl ⟨clearsBusy clears, rfl, rfl⟩
  · intro stays q held _
    obtain ⟨n, rfl⟩ := client
    have stays := stays n rfl
    rw [at_] at stays
    simp [Task.leaves] at stays

theorem requestActs (mirrored : Mirrored s) (persists : config.hub.persists = true) {n : Nat} {request : Delivery.Request}
    (at_ : s.tasks worker = .serving n (.room request)) : Acts s worker (handleRoom config env request) := by
  have none (q : Nat) (held : Thread) : ¬(s.tasks worker).Holds q held := by simp [at_, Task.Holds]
  have suits (room : RoomEntry) : request.thread.suits room := by
    cases request with
    | relay clientId message => trivial
    | call made =>
        cases made with
        | disconnect id => exact absurd at_ (mirrored.requests worker n id)
        | _ => trivial
  rw [Acts, handleRoom, ensuresBind, ensuresGet]
  split
  · refine mirrored.reads none ?_
    rw [ensuresLift]
    refine ⟨fun task ok => ?_, fun _ _ => sameRoomsRefl _⟩
    have idle : task = .idle := by
      unfold missing at ok
      split at ok
      · exact (Except.ok.inj ok).symm
      · simp only [bind_ok] at ok
        obtain ⟨_, _, _, _, ok⟩ := ok
        contradiction
      · contradiction
    rw [idle]
    exact ⟨sameRoomsRefl _, ⟨fun _ _ => id, by simp⟩, rfl⟩
  · rename_i place found
    obtain ⟨roomId, _, found⟩ := Option.bind_eq_some_iff.mp found
    have listed : place ∈ s.tables.rooms := List.mem_of_find?_eq_some found
    obtain ⟨room, there⟩ : ∃ room, s.tables.entries[place]? = some room :=
      ⟨_, List.getElem?_eq_getElem (mirrored.within place (.inl listed))⟩
    have ready : Ready config.hub env.hub room request.thread := by cases request <;> exact ⟨by simp [Delivery.Request.thread], by simp [Delivery.Request.thread]⟩
    refine mirrored.acts persists there (suits room) ready (.inl listed) {} (fun a => roomTask place a.1 a.2) ?_ ?_ ?_ ?_
    · intro a n id
      unfold roomTask
      split <;> simp
    · intro a leaves
      unfold roomTask at leaves
      split at leaves <;> simp [Task.leaves] at leaves
    · intro a tables
      refine ⟨fun other own => Function.update_of_ne own .., fun q held holds => ?_, fun q held holds => absurd holds (none q held),
        fun clears => ?_⟩
      · rw [putOwn, roomTaskHolds] at holds
        exact .inl holds.2
      · rw [putOwn, roomTaskHolds]
        exact ⟨clearsBusy clears, rfl, rfl⟩
    · exact fun _ q held holds => absurd holds (none q held)

theorem constructedNamed {creator : CreateRoomMessage} {roomId : RoomId} {fee : FeeTerms} {confirm : Bool} {position : FeePosition}
    {session : MediatorSession} (ok : MediatorSession.construct creator roomId fee confirm position = .ok session) :
    validateRoomId session.roomId = .ok () := by
  simp only [MediatorSession.construct, bind_ok, pure_ok] at ok
  obtain ⟨_, _, _, _, _, named, _, _, rfl⟩ := ok
  exact named

theorem joinedSound {offer : OpenOffer} {client : ClientId} {address : Wire.Bytes} {fee : FeeTerms} {confirm : Bool}
    {position : FeePosition} {room : RoomEntry} (ok : RoomEntry.fromOffer offer client address fee confirm position = .ok room) :
    Sound room ∧ room.active = true := by
  obtain ⟨session, opened⟩ : ∃ session, MediatorSession.construct ⟨offer.terms, offer.receiveAddressA⟩ offer.id fee confirm
      position = .ok session := by
    simp only [RoomEntry.fromOffer, bind_ok] at ok
    exact ⟨_, ok.choose_spec.1⟩
  obtain ⟨whole, message, step⟩ := joinedEntry ⟨offer, client, address, fee, confirm, position, opened, ok⟩
  refine ⟨⟨⟨?_, rfl, fun _ => step.onTrack (MediatorSession.constructedOnTrack opened)⟩, ?_⟩, by rw [whole]⟩
  · rw [step.same.creator]
    exact MediatorSession.constructedValid opened
  · rw [step.same.roomId]
    exact constructedNamed opened

theorem createActs (mirrored : Mirrored s) (orderly : Orderly config s worker env) {n : Nat} {message : CreateOfferMessage}
    (at_ : s.tasks worker = .serving n (.createOffer message)) : Acts s worker (handleCreateOffer env n message) := by
  have none (q : Nat) (held : Thread) : ¬(s.tasks worker).Holds q held := by simp [at_, Task.Holds]
  have stays {e : HubError} {t : State} (thrown : s.thrown s.tables worker e = some t) : Leaves s t := by
    obtain ⟨after, task, rfl, caught, free, stays, _⟩ := thrownTask thrown
    exact mirrored.moves none free (by simp [stays]) caught.entries caught.rooms caught.persisted
      fun offer mem => .inl (caught.offers ▸ mem)
  simp only [Acts, handleCreateOffer, ensuresBind, ensuresGet, ensuresLift, rejectedOk, ensuresSet, ensuresPure]
  refine ⟨fun _ _ => ⟨fun _ _ => ⟨fun roomId drawn => ⟨fun _ _ => ?_, fun _ _ _ => stays⟩, fun _ _ _ => stays⟩, fun _ _ _ => stays⟩,
    fun _ _ _ => stays⟩
  refine mirrored.moves none ⟨fun _ _ => id, by simp⟩ (by simp [Task.leaves]) rfl rfl rfl fun offer mem => ?_
  rcases List.mem_append.mp mem with old | new
  · exact .inl old
  · rw [List.mem_singleton.mp new]
    exact .inr (orderly.unused n message roomId at_ drawn)

theorem joinActs (mirrored : Mirrored s) {n : Nat} {message : JoinOfferMessage}
    (at_ : s.tasks worker = .serving n (.joinOffer message)) : Acts s worker (handleJoinOffer config n message) := by
  have none (q : Nat) (held : Thread) : ¬(s.tasks worker).Holds q held := by simp [at_, Task.Holds]
  have fewer {e : HubError} {t : State} {offers : List OpenOffer} (fewer : ∀ offer ∈ offers, offer ∈ s.tables.offers)
      (thrown : s.thrown { s.tables with offers } worker e = some t) : Leaves s t := by
    obtain ⟨after, task, rfl, caught, free, stays, _⟩ := thrownTask thrown
    refine mirrored.moves none free (by simp [stays]) caught.entries caught.rooms caught.persisted fun offer mem => .inl ?_
    rw [caught.offers] at mem
    exact fewer offer mem
  have stays {e : HubError} {t : State} (thrown : s.thrown s.tables worker e = some t) : Leaves s t :=
    fewer (fun _ => id) thrown
  simp only [Acts, handleJoinOffer, ensuresBind, ensuresGet]
  split
  · exact fun _ => stays
  · rename_i offer found
    simp only [ensuresBind, ensuresLift]
    refine ⟨fun _ _ => ⟨fun _ _ => ?_, fun _ _ _ => stays⟩, fun _ _ _ => stays⟩
    split
    · exact fun _ => fewer fun _ mem => (List.mem_filter.mp mem).1
    · simp only [ensuresBind, ensuresLift, ensuresSet, ensuresPure, rejectedOk]
      refine ⟨fun room opened => ?_, fun _ _ _ => stays⟩
      have id : offer.id = message.roomId := by simpa using List.find?_some found
      have named : room.id = offer.id := congrArg Identity.id (fromOfferSame opened)
      obtain ⟨sound, active⟩ := joinedSound opened
      refine ⟨mirrored.joins none (List.mem_of_find?_eq_some found) sound named active rfl rfl ?_ rfl rfl, fun _ _ => .inl⟩
      rw [id]
      rfl

theorem cancelActs (mirrored : Mirrored s) {n : Nat} {message : CancelOfferMessage}
    (at_ : s.tasks worker = .serving n (.cancelOffer message)) : Acts s worker (handleCancelOffer n message) := by
  have none (q : Nat) (held : Thread) : ¬(s.tasks worker).Holds q held := by simp [at_, Task.Holds]
  have stays {e : HubError} {t : State} (thrown : s.thrown s.tables worker e = some t) : Leaves s t := by
    obtain ⟨after, task, rfl, caught, free, stays, _⟩ := thrownTask thrown
    exact mirrored.moves none free (by simp [stays]) caught.entries caught.rooms caught.persisted
      fun offer mem => .inl (caught.offers ▸ mem)
  simp only [Acts, handleCancelOffer, ensuresBind, ensuresGet]
  split
  · exact fun _ => stays
  · simp only [ensuresBind, ensuresLift, ensuresSet, ensuresPure]
    refine ⟨fun _ _ => ?_, fun _ _ _ => stays⟩
    exact mirrored.moves none ⟨fun _ _ => id, by simp⟩ (by simp [Task.leaves]) rfl rfl rfl fun offer mem => .inl (List.mem_filter.mp mem).1

theorem leavingActs (mirrored : Mirrored s) {n : Nat} (at_ : s.tasks worker = .leaving n) : Acts s worker (removeClient n) := by
  have none (q : Nat) (held : Thread) : ¬(s.tasks worker).Holds q held := by simp [at_, Task.Holds]
  obtain ⟨m, rfl⟩ := mirrored.leavers worker (by rw [at_]; rfl)
  simp only [Acts, removeClient, ensuresBind, ensuresGet, ensuresSet, ensuresPure]
  refine ⟨mirrored.leaves (fun place mem => (List.mem_filter.mp mem).1) none rfl rfl (fun offer mem => (List.mem_filter.mp mem).1)
    rfl rfl, fun _ _ => .inl⟩

/- Every section keeps the invariant. -/
theorem taskActs (mirrored : Mirrored s) (persists : config.hub.persists = true) (orderly : Orderly config s worker env) :
    Acts s worker ((s.tasks worker).run config env) := by
  have reads {task : Task} (at_ : s.tasks worker = task) (none : ∀ q thread, ¬task.Holds q thread) {x : TablesM Task}
      (quiet : Ensures x s.tables (fun task tables => SameRooms s.tables tables ∧ task.Free ∧ task.leaves = false)
        (fun _ tables => SameRooms s.tables tables)) : Acts s worker x :=
    mirrored.reads (by rwa [at_]) quiet
  cases at_ : s.tasks worker with
  | idle => exact reads at_ (fun _ _ => id) ⟨sameRoomsRefl _, ⟨fun _ _ => id, by simp⟩, rfl⟩
  | serving n request =>
      cases request with
      | createOffer message => exact createActs mirrored orderly at_
      | listOffers message => exact reads at_ (fun _ _ => id) ⟨sameRoomsRefl _, ⟨fun _ _ => id, by simp⟩, rfl⟩
      | joinOffer message => exact joinActs mirrored at_
      | cancelOffer message => exact cancelActs mirrored at_
      | recoveryState message =>
          refine reads at_ (fun _ _ => id) ?_
          simp only [Task.run, serve, handleRecoveryStateRequest, ensuresBind, ensuresGet]
          split <;> exact ⟨sameRoomsRefl _, ⟨fun _ _ => id, by simp⟩, rfl⟩
      | getCandles message => exact reads at_ (fun _ _ => id) ⟨sameRoomsRefl _, ⟨fun _ _ => id, by simp⟩, rfl⟩
      | room request => exact requestActs mirrored persists at_
      | unreadable e => exact reads at_ (fun _ _ => id) (sameRoomsRefl _)
  | answering n frame =>
      refine reads at_ (fun _ _ => id) ?_
      simp only [Task.run, answer, ensuresBind, ensuresLift, ensuresModify, ensuresPure]
      exact ⟨fun _ _ => ⟨⟨rfl, rfl, rfl, rfl⟩, ⟨fun _ _ => id, by simp⟩, rfl⟩, fun _ _ => sameRoomsRefl _⟩
  | recovering n place stage response =>
      refine reads at_ (fun _ _ => id) ?_
      simp only [Task.run, recover, ensuresBind, ensuresGet]
      split
      · exact sameRoomsRefl _
      · cases stage <;> exact ⟨sameRoomsRefl _, ⟨fun _ _ => id, by simp⟩, rfl⟩
  | room place receivers thread => exact roomActs mirrored persists orderly at_
  | leaving n => exact leavingActs mirrored at_
  | removing place receivers thread rest => exact removingActs mirrored persists orderly at_

theorem fireLeaves (mirrored : Mirrored s) (persists : config.hub.persists = true) {event : Event}
    (orderly : ∀ worker env, event = .acts worker env → Orderly config s worker env) (fired : fire config s event = some t) :
    Leaves s t := by
  cases event with
  | connects id =>
      simp only [fire, Option.ite_none_right_eq_some, Option.some.injEq] at fired
      obtain ⟨_, rfl⟩ := fired
      exact Calm.leaves ⟨rfl, rfl, rfl, fun _ _ _ => .rfl, mirrored.requests, mirrored.leavers⟩ mirrored fun _ => .inl
  | receives n request =>
      simp only [fire, Option.ite_none_right_eq_some, Option.some.injEq] at fired
      obtain ⟨⟨_, rest, _, own⟩, rfl⟩ := fired
      refine mirrored.moves (by simp [rest, Task.Holds]) ⟨fun _ _ => id, ?_⟩ (by simp [Task.leaves]) rfl rfl rfl fun _ => .inl
      intro m id same
      cases same
      simp [Request.mayComeFrom, Delivery.Request.by, Delivery.Request.clientId] at own
      exact own.2 own.1.1
  | leaves n =>
      simp only [fire, Option.ite_none_right_eq_some, Option.some.injEq] at fired
      obtain ⟨⟨_, rest⟩, rfl⟩ := fired
      exact mirrored.moves (by simp [rest, Task.Holds]) ⟨fun _ _ => id, by simp⟩ (fun _ => ⟨n, rfl⟩) rfl rfl rfl fun _ => .inl
  | confirmsFee operator roomId =>
      simp only [fire, Option.ite_none_right_eq_some, Option.some.injEq] at fired
      obtain ⟨rest, rfl⟩ := fired
      exact mirrored.moves (by simp [rest, Task.Holds]) ⟨fun _ _ => id, by simp⟩ (by simp [Task.leaves]) rfl rfl rfl fun _ => .inl
  | setsFee fee =>
      obtain rfl := Option.some.inj fired
      exact Calm.leaves ⟨rfl, rfl, rfl, fun _ _ _ => .rfl, mirrored.requests, mirrored.leavers⟩ mirrored fun _ => .inl
  | hangsUp n =>
      obtain rfl := Option.some.inj fired
      exact Calm.leaves ⟨rfl, rfl, rfl, fun _ _ _ => .rfl, mirrored.requests, mirrored.leavers⟩ mirrored fun _ => .inl
  | acts worker env =>
      simp only [fire] at fired
      split at fired
      · have acts := taskActs mirrored persists (orderly worker env rfl)
        unfold Acts Ensures at acts
        split at fired
        · rename_i task tables ran
          rw [ran] at acts
          exact Option.some.inj fired ▸ acts
        · rename_i e tables ran
          rw [ran] at acts
          exact acts t fired
      · contradiction

end Rooms

/-! Runs. -/

/- A hub that begins with rooms of its file begins with open ones. -/
inductive Opens (config : LobbyConfig) : State → Prop where
  | opened (fee : FeeTerms) : Opens config (opened fee)
  | reloaded (fee : FeeTerms) (file : List PersistedRoom) (s : State) (read : reload config fee file = .ok s)
      (keyed : (file.map PersistedRoom.roomId).Nodup)
      (unfinished : ∀ record ∈ file, record.state ≠ .complete ∧ record.state ≠ .aborted)
      (onTrack : ∀ room ∈ s.tables.entries, room.session.OnTrack) : Opens config s

section Runs
variable {config : LobbyConfig} {s t : State} {steps : List Fired}

theorem restoredSound {record : PersistedRoom} {confirm : Bool} {position : FeePosition} {room : RoomEntry}
    (ok : RoomEntry.fromPersisted record confirm position = .ok room) (unfinished : record.state ≠ .complete ∧ record.state ≠ .aborted)
    (on : room.session.OnTrack) : Sound room ∧ room.active = true ∧ record = persistedRoomSnapshot room record.updatedAt := by
  simp only [RoomEntry.fromPersisted, MediatorSession.restore, List.isEmpty_nil, Bool.not_true, Bool.false_eq_true, if_false, bind_ok,
    pure_ok] at ok
  obtain ⟨session, ⟨_, terms, _, named, _, _, _, _, _, _, rfl⟩, rfl⟩ := ok
  exact ⟨⟨⟨validTerms terms, rfl, fun _ => on⟩, named⟩, by simp [unfinished], rfl⟩

theorem opensMirrored (opens : Opens config s) : Mirrored s ∧ ∀ worker, s.tasks worker = .idle := by
  cases opens with
  | opened fee =>
      refine ⟨?_, fun _ => rfl⟩
      constructor <;> simp [Busy, opened, Task.Holds, Task.leaves]
  | reloaded fee file _ read keyed unfinished onTrack =>
      simp only [reload, bind_ok, pure_ok] at read
      obtain ⟨rooms, opened, rfl⟩ := read
      obtain ⟨size, places⟩ := mappedPlace opened
      refine ⟨?_, fun _ => rfl⟩
      have record {place : Nat} {room : RoomEntry} (there : rooms[place]? = some room) : ∃ record : PersistedRoom,
          file[place]? = some record ∧ room.id = record.roomId ∧ Sound room ∧ room.active = true ∧
            record = persistedRoomSnapshot room record.updatedAt := by
        obtain ⟨record, first, ok⟩ := places place room there
        exact ⟨record, first, congrArg Identity.id (restoredSame ok),
          restoredSound ok (unfinished record (List.mem_of_getElem? first)) (onTrack room (List.mem_of_getElem? there))⟩
      have found {place : Nat} {record : PersistedRoom} (there : file[place]? = some record) :
          file.find? (fun other => other.roomId = record.roomId) = some record :=
        Keyed.lookupOfMem keyed (List.mem_of_getElem? there)
      have inside {place : Nat} (busy : place ∈ List.range rooms.length ∨ ∃ (worker : Worker) (thread : Thread),
          Task.idle.Holds place thread) : place < rooms.length := by
        rcases busy with listed | ⟨_, _, holds⟩
        · exact List.mem_range.mp listed
        · exact holds.elim
      constructor
      · exact fun place busy => inside (size ▸ busy)
      · intro place room there
        obtain ⟨_, _, _, sound, _⟩ := record there
        exact sound
      · exact fun _ _ _ holds => holds.elim
      · simp
      · simp [Task.leaves]
      · intro p q room other there there' _ _ same
        obtain ⟨first, here, named, _⟩ := record there
        obtain ⟨second, here', named', _⟩ := record there'
        have ids : (file.map PersistedRoom.roomId)[p]? = (file.map PersistedRoom.roomId)[q]? := by
          rw [List.getElem?_map, List.getElem?_map, here, here']
          exact congrArg some (named.symm.trans (same.trans named'))
        have short : p < (file.map PersistedRoom.roomId).length := by
          rw [List.length_map]
          exact (List.getElem?_eq_some_iff.mp here).1
        exact (List.getElem?_inj short keyed).mp ids
      · simp
      · intro id old recorded
        obtain ⟨place, first⟩ := List.mem_iff_getElem?.mp (List.mem_of_find?_eq_some recorded)
        have named : old.roomId = id := by simpa using List.find?_some recorded
        have short : place < rooms.length := by
          rw [size]
          exact (List.getElem?_eq_some_iff.mp first).1
        obtain ⟨again, here, same, _, active, snapshot⟩ := record (List.getElem?_eq_getElem short)
        obtain rfl := Option.some.inj (here.symm.trans first)
        exact ⟨place, rooms[place], List.getElem?_eq_getElem short, same.trans named, .inl ⟨active, snapshot⟩⟩
      · intro place room there _
        exact .inl (List.mem_range.mpr (List.getElem?_eq_some_iff.mp there).1)
      · intro place room there _
        obtain ⟨old, here, named, _⟩ := record there
        refine .inl ⟨old, ?_⟩
        dsimp only
        rw [named]
        exact found here

theorem runMirrored (persists : config.hub.persists = true) (opens : Opens config s) (run : Run config s steps t)
    (orderly : ∀ step ∈ steps, step.Orderly config) : Mirrored t ∧ ∀ step ∈ steps, step.WritesOpen := by
  induction run with
  | start => exact ⟨(opensMirrored opens).1, by simp⟩
  | @step steps t u event before fired ih =>
      obtain ⟨mirrored, writes⟩ := ih fun step mem => orderly step (List.mem_append_left _ mem)
      have last := orderly ⟨t, event, u⟩ (List.mem_append_right _ (List.mem_singleton_self _))
      have leaves := fireLeaves mirrored persists last fired
      refine ⟨leaves.mirrored, fun step mem => ?_⟩
      rcases List.mem_append.mp mem with old | new
      · exact writes step old
      · rw [List.mem_singleton.mp new]
        exact leaves.writes

theorem Mirrored.recorded (mirrored : Mirrored s) (atRest : ∀ worker, s.tasks worker = .idle) : Recorded s.tables := by
  have listed (place : Nat) (room : RoomEntry) (there : s.tables.entries[place]? = some room) (active : room.active = true) :
      place ∈ s.tables.rooms := by
    rcases mirrored.there place room there active with listed | ⟨worker, holds⟩
    · exact listed
    · rw [atRest worker] at holds
      exact holds.elim
  have backed (id : RoomId) (record : PersistedRoom) (recorded : s.tables.persisted id = some record) : ∃ (place : Nat)
      (room : RoomEntry), s.tables.entries[place]? = some room ∧ room.id = id ∧ room.active = true ∧
        record = persistedRoomSnapshot room record.updatedAt := by
    obtain ⟨place, room, there, named, ⟨active, snapshot⟩ | ⟨_, worker, thread, holds, _⟩⟩ := mirrored.backed id record recorded
    · exact ⟨place, room, there, named, active, snapshot⟩
    · rw [atRest worker] at holds
      exact holds.elim
  constructor
  · intro id record recorded
    obtain ⟨place, room, there, named, active, snapshot⟩ := backed id record recorded
    exact ⟨place, listed place room there active, room, there, named, active, snapshot⟩
  · intro place inside room there active
    rcases mirrored.upserted place room there active with ⟨record, recorded⟩ | ⟨worker, holds⟩
    · obtain ⟨other, room', there', named, active', snapshot⟩ := backed room.id record recorded
      obtain rfl := mirrored.apart other place room' room there' there (mirrored.activeBusy there' active') (.inl inside) named
      obtain rfl := Option.some.inj (there'.symm.trans there)
      exact ⟨record, recorded, snapshot⟩
    · rw [atRest worker] at holds
      exact holds.elim

theorem recordsKept (persists : config.hub.persists = true) (opens : Opens config s) (run : Run config s steps t)
    (orderly : ∀ step ∈ steps, step.Orderly config) :
    ((∀ worker, t.tasks worker = .idle) → Recorded t.tables) ∧ ∀ step ∈ steps, step.WritesOpen := by
  obtain ⟨mirrored, writes⟩ := runMirrored persists opens run orderly
  exact ⟨mirrored.recorded, writes⟩

end Runs

/-! Runs on fixed inputs. -/

-- The worker whose task an event changes.
def Event.worker : Event → Option Worker
  | .receives n _ | .leaves n => some (.client n)
  | .confirmsFee operator _ => some (.operator operator)
  | .acts worker _ => some worker
  | _ => none

section Played
variable {config : LobbyConfig} {s t : State} {steps : List Fired}

theorem firedOthers {event : Event} (fired : fire config s event = some t) {worker : Worker} (other : event.worker ≠ some worker) :
    t.tasks worker = s.tasks worker := by
  have put {tables : Tables} {own : Worker} {task : Task} (differs : own ≠ worker) :
      (s.put tables own task).tasks worker = s.tasks worker := Function.update_of_ne (Ne.symm differs) ..
  cases event with
  | connects id =>
      simp only [fire, Option.ite_none_right_eq_some, Option.some.injEq] at fired
      obtain ⟨_, rfl⟩ := fired
      rfl
  | setsFee fee =>
      obtain rfl := Option.some.inj fired
      rfl
  | hangsUp n =>
      obtain rfl := Option.some.inj fired
      rfl
  | receives n request =>
      simp only [fire, Option.ite_none_right_eq_some, Option.some.injEq] at fired
      obtain ⟨_, rfl⟩ := fired
      exact put fun same => other (congrArg some same)
  | leaves n =>
      simp only [fire, Option.ite_none_right_eq_some, Option.some.injEq] at fired
      obtain ⟨_, rfl⟩ := fired
      exact put fun same => other (congrArg some same)
  | confirmsFee operator roomId =>
      simp only [fire, Option.ite_none_right_eq_some, Option.some.injEq] at fired
      obtain ⟨_, rfl⟩ := fired
      exact put fun same => other (congrArg some same)
  | acts own env =>
      have differs : own ≠ worker := fun same => other (congrArg some same)
      simp only [fire] at fired
      split at fired
      · split at fired
        · obtain rfl := Option.some.inj fired
          exact put differs
        · obtain ⟨after, task, rfl, _⟩ := thrownTask fired
          exact put differs
      · contradiction

theorem playedOthers {events : List Event} {all : List Fired} (played : play config steps s events = some (all, t)) {worker : Worker}
    (others : ∀ event ∈ events, event.worker ≠ some worker) : t.tasks worker = s.tasks worker := by
  induction events generalizing s steps with
  | nil =>
      cases played
      rfl
  | cons event later ih =>
      obtain ⟨u, fired, rest⟩ := Option.bind_eq_some_iff.mp played
      rw [ih rest fun other mem => others other (List.mem_cons_of_mem _ mem)]
      exact firedOthers fired (others event List.mem_cons_self)

/- What is enough for a step to be in order, as far as these runs go. -/
def plainly (config : LobbyConfig) (step : Fired) : Bool :=
  match step.event with
  | .acts worker _ => match step.source.tasks worker with
    | .room place _ .persisting => step.source.tables.entries[place]?.any RoomEntry.active
    | .room place _ (.locking locked) =>
        step.source.tables.entries[place]?.all fun room => locked.issues config.hub room = none
    | .serving _ (.createOffer _) => step.source.tables.entries.isEmpty
    | .removing .. => false
    | _ => true
  | _ => true

theorem plainlyOrderly {step : Fired} (plain : plainly config step = true) : step.Orderly config := by
  intro worker env acts
  unfold plainly at plain
  rw [acts] at plain
  dsimp only at plain
  constructor
  · intro place thread room holds there
    cases at_ : step.source.tasks worker with
    | room other receivers held =>
        rw [at_] at holds plain
        obtain ⟨rfl, rfl⟩ := holds
        constructor
        · rintro rfl
          simpa [there] using plain
        · rintro locked rfl stage issued
          simp only [there, Option.all_some, decide_eq_true_eq] at plain
          rw [plain] at issued
          contradiction
    | removing other receivers held rest =>
        rw [at_] at plain
        contradiction
    | _ =>
        rw [at_] at holds
        exact holds.elim
  · intro n message id at_ _ place room there
    rw [at_] at plain
    rw [List.isEmpty_iff.mp plain] at there
    simp at there

end Played

section Swap
open Hub MediatorSession

def swapKept : LobbyConfig := { swapLobby with hub := { swapHub with persists := true } }

def swapRestless : LobbyEnv := ⟨swapEnv, .error (.runtimeError "RAND_bytes failed")⟩

def actsOf (n times : Nat) : List Event := List.replicate times (.acts (.client n) swapRestless)

-- The room is joined and told of, and its fee is reported.
def swapReported : List Event :=
  swapOffered ++ swapTaken ++ actsOf 1 8 ++ [.receives 0 (.room (.call (.sent swapClientA ⟨swapRoom, 0, .a⟩)))] ++ actsOf 0 5

-- The room is joined, and its creator leaves before the room is recorded.
def swapLeft : List Event := swapOffered ++ swapTaken ++ [.leaves 0] ++ actsOf 0 6 ++ actsOf 1 3

structure Ended where
  resting : Bool
  plain : Bool
  rooms : List Nat
  state : Option SessionState
  deriving DecidableEq, Repr

def ended (events : List Event) : Option Ended := (play swapKept [] (opened swapFee) events).map fun run =>
  { resting := run.2.tasks (.client 0) = .idle ∧ run.2.tasks (.client 1) = .idle
    plain := run.1.all (plainly swapKept)
    rooms := run.2.tables.rooms
    state := (run.2.tables.persisted swapRoom).map PersistedRoom.state }

theorem swapEnds : ended swapReported = some ⟨true, true, [0], some .waitingForFeeConfirmation⟩ ∧
    ended swapLeft = some ⟨true, false, [], some .aborted⟩ := by decide +kernel

theorem swapReached {events : List Event} {end_ : Ended} (left : ended events = some end_) (resting : end_.resting = true)
    (others : ∀ event ∈ events, ∀ worker, event.worker = some worker → worker = .client 0 ∨ worker = .client 1) :
    ∃ steps t, Run swapKept (opened swapFee) steps t ∧ (∀ worker, t.tasks worker = .idle) ∧
      steps.all (plainly swapKept) = end_.plain ∧ t.tables.rooms = end_.rooms ∧
      (t.tables.persisted swapRoom).map PersistedRoom.state = end_.state := by
  obtain ⟨⟨steps, t⟩, played, rfl⟩ := Option.map_eq_some_iff.mp left
  simp only [decide_eq_true_eq] at resting
  refine ⟨steps, t, playRun .start played, fun worker => ?_, rfl, rfl, rfl⟩
  by_cases own : worker = .client 0 ∨ worker = .client 1
  · rcases own with rfl | rfl
    · exact resting.1
    · exact resting.2
  · exact playedOthers played fun event mem is => own (others event mem worker is)

theorem swapRecordsKept : ∃ steps t, Run swapKept (opened swapFee) steps t ∧ (∀ worker, t.tasks worker = .idle) ∧
    t.tables.rooms = [0] ∧ (t.tables.persisted swapRoom).map PersistedRoom.state = some .waitingForFeeConfirmation ∧
    Recorded t.tables ∧ ∀ step ∈ steps, step.WritesOpen := by
  obtain ⟨steps, t, run, resting, plain, rooms, state⟩ := swapReached swapEnds.1 rfl (by
    simp [swapReported, swapOffered, swapTaken, actsOf, Event.worker])
  have kept := recordsKept rfl (.opened swapFee) run fun step mem => plainlyOrderly (List.all_eq_true.mp plain step mem)
  exact ⟨steps, t, run, resting, rooms, state, kept.1 resting, kept.2⟩

/- The creator leaves between the two sections of the join: what is recorded then is never taken away. -/
theorem swapRecordLeft : ∃ steps t, Run swapKept (opened swapFee) steps t ∧ (∀ worker, t.tasks worker = .idle) ∧
    t.tables.rooms = [] ∧ (t.tables.persisted swapRoom).map PersistedRoom.state = some .aborted ∧ ¬Recorded t.tables := by
  obtain ⟨steps, t, run, resting, _, rooms, state⟩ := swapReached swapEnds.2 rfl (by
    simp [swapLeft, swapOffered, swapTaken, actsOf, Event.worker])
  refine ⟨steps, t, run, resting, rooms, state, fun recorded => ?_⟩
  obtain ⟨record, there, _⟩ := Option.map_eq_some_iff.mp state
  obtain ⟨place, inside, _⟩ := recorded.backed swapRoom record there
  rw [rooms] at inside
  simp at inside

end Swap
end Lobby
end TradeP2P
