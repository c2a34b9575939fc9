import TradeP2P.Hub.Completion
import TradeP2P.Mediator.Liveness

/-! When the receipts of a room form a chain. The settlement receipt takes the keys as they stand
when it is issued, and links to the gate's receipt if the room still has one. -/
namespace TradeP2P
open Machine Checks
open MediatorSession (Operation Step)

/- The keys the room holds are those in a receipt. -/
structure RoomEntry.Announced (room : RoomEntry) (fields : ReceiptFields) : Prop where
  keyA : room.ephemeralKeyA = some fields.partyAEphemeralKey
  keyB : room.ephemeralKeyB = some fields.partyBEphemeralKey
  keyAMldsa65 : room.ephemeralKeyAMldsa65 = some fields.partyAEphemeralKeyMldsa65
  keyBMldsa65 : room.ephemeralKeyBMldsa65 = some fields.partyBEphemeralKeyMldsa65

/- The room still has the gate's receipt, and no other keys have been announced since. -/
def RoomEntry.KeepsKeys (room : RoomEntry) : Prop :=
  ∃ receipt, room.finalAckReceipt = some receipt ∧ room.Announced receipt.fields

def Room.Settled (room : Room) : Prop := ∃ receipt ∈ room.issuedReceipts, receipt.fields.stage = settlementByte

namespace Hub

/- The gate's receipt and the settlement receipt, as a chain the verifier accepts. -/
def Chained (hub : HubConfig) (receipts : List IssuedReceipt) : Prop :=
  verifyReceiptChain hub.crypto hub.receiptKey hub.receiptKeyMldsa65 receipts = .ok () ∧
    receipts.map (fun receipt => receipt.fields.stage) =
      [ReceiptStage.penultimateObligationsComplete.toByte, settlementByte]

def IssuesSettlement (hub : HubConfig) (s : Room) (call : HubEnv × Call) : Prop :=
  ∃ receipt, (next (perform hub) s call).issuedReceipts = s.issuedReceipts ++ [receipt] ∧
    receipt.fields.stage = settlementByte

/-! Receipts. -/

section Receipts
variable {hub : HubConfig} {env env' : HubEnv} {room room' : RoomEntry} {stage : ReceiptStage}
  {receipt first last : IssuedReceipt}

theorem Built.payload (built : Built hub env room stage receipt) :
    ∃ payload, encodeReceiptSignedPayload receipt.fields = .ok payload := by
  have signed := built.signed
  simp only [signReceipt, bind_ok] at signed
  obtain ⟨payload, encoded, _⟩ := signed
  exact ⟨payload, encoded⟩

theorem Built.verified (correct : hub.crypto.Correct) (built : Built hub env room stage receipt) :
    verifyReceiptHybrid hub.crypto hub.receiptKey hub.receiptKeyMldsa65 receipt = .ok true := by
  obtain ⟨payload, encoded⟩ := built.payload
  have signed := built.signed
  have signedMldsa65 := built.signedMldsa65
  simp only [signReceipt, signReceiptMldsa65, encoded, bind, Except.bind] at signed signedMldsa65
  apply verifyReceiptHybridOk.mpr
  simp only [verifyReceipt, verifyReceiptMldsa65, encoded, bind, Except.bind]
  exact ⟨correct.ed25519 _ _ _ _ signed, correct.mldsa65 _ _ _ _ signedMldsa65⟩

theorem Built.linked (built : Built hub env room stage receipt) :
    ∃ link, receiptChainLinkHash hub.crypto receipt = .ok link := by
  obtain ⟨payload, encoded⟩ := built.payload
  simp only [receiptChainLinkHash, encoded, bind, Except.bind]
  exact ⟨_, rfl⟩

theorem Built.known (built : Built hub env room stage receipt) : requireKnownStage receipt.fields.stage = .ok () := by
  rw [built.atStage]
  cases stage <;> rfl

theorem verifyPair :
    verifyReceiptChain hub.crypto hub.receiptKey hub.receiptKeyMldsa65 [first, last] = .ok () ↔ ∃ link,
      ChainEntry hub.crypto hub.receiptKey hub.receiptKeyMldsa65 first.fields genesisStageHash none first ∧
      receiptChainLinkHash hub.crypto first = .ok link ∧
      ChainEntry hub.crypto hub.receiptKey hub.receiptKeyMldsa65 first.fields link (some first.fields.stage) last ∧
      ∃ end_, receiptChainLinkHash hub.crypto last = .ok end_ := by
  simp only [verifyReceiptChain, verifyChainFrom, bind_ok, verifyChainEntryOk, pure_ok, and_true]
  constructor
  · rintro ⟨link, ⟨entry, hash⟩, end_, next, hash'⟩
    exact ⟨link, entry, hash, next, end_, hash'⟩
  · rintro ⟨link, entry, hash, next, end_, hash'⟩
    exact ⟨link, ⟨entry, hash⟩, end_, next, hash'⟩

/- Two receipts of one room share it exactly when the keys of the second are those of the first. -/
theorem sharesRoom (opening : Built hub env room .penultimateObligationsComplete first)
    (closing : Built hub env' room' .settlementCompleted last) (id : room'.id = room.id)
    (terms : room'.session.creator = room.session.creator) :
    last.fields.SharesRoom first.fields ↔ room'.Announced first.fields := by
  have commitment : last.fields.termsCommitment = first.fields.termsCommitment := by
    have later := closing.terms
    rw [terms, opening.terms] at later
    exact (Except.ok.inj later).symm
  constructor
  · rintro ⟨_, _, keyA, keyB, keyAMldsa65, keyBMldsa65, _⟩
    exact ⟨keyA ▸ closing.keyA, keyB ▸ closing.keyB, keyAMldsa65 ▸ closing.keyAMldsa65, keyBMldsa65 ▸ closing.keyBMldsa65⟩
  · intro announced
    have keyA := Option.some.inj (closing.keyA.symm.trans announced.keyA)
    have keyB := Option.some.inj (closing.keyB.symm.trans announced.keyB)
    have keyAMldsa65 := Option.some.inj (closing.keyAMldsa65.symm.trans announced.keyAMldsa65)
    have keyBMldsa65 := Option.some.inj (closing.keyBMldsa65.symm.trans announced.keyBMldsa65)
    exact ⟨by rw [closing.roomId, opening.roomId, id], commitment, keyA, keyB, keyAMldsa65, keyBMldsa65,
      by rw [closing.mediatorKey, opening.mediatorKey], by rw [closing.mediatorKeyMldsa65, opening.mediatorKeyMldsa65]⟩

/- A settlement receipt issued over the gate's one. -/
theorem chainedPair (correct : hub.crypto.Correct) (opening : Built hub env room .penultimateObligationsComplete first)
    (closing : Built hub env' room' .settlementCompleted last) (id : room'.id = room.id)
    (terms : room'.session.creator = room.session.creator) (kept : room'.finalAckReceipt = some first) :
    Chained hub [first, last] ↔ room'.Announced first.fields := by
  rw [← sharesRoom opening closing id terms]
  have stages : [first, last].map (fun receipt => receipt.fields.stage) =
      [ReceiptStage.penultimateObligationsComplete.toByte, settlementByte] := by
    simp [opening.atStage, closing.atStage, settlementByte]
  have genesis : first.fields.previousStageHash = genesisStageHash := (Except.ok.inj opening.previous).symm
  have link : receiptChainLinkHash hub.crypto first = .ok last.fields.previousStageHash := by
    have previous := closing.previous
    simp only [previousStageHash, kept] at previous
    exact previous
  constructor
  · intro chained
    obtain ⟨_, _, _, entry, _⟩ := verifyPair.mp chained.1
    exact entry.shares
  · intro shares
    refine ⟨verifyPair.mpr ⟨last.fields.previousStageHash, ?_, link, ?_, closing.linked⟩, stages⟩
    · exact ⟨opening.known, opening.verified correct, ⟨rfl, rfl, rfl, rfl, rfl, rfl, rfl, rfl⟩, genesis, rfl⟩
    · refine ⟨closing.known, closing.verified correct, shares, rfl, ?_⟩
      rw [opening.atStage, closing.atStage]
      rfl

end Receipts

/-! One call on a joined room. -/

/- What an active room knows of the receipts issued for it: it has the gate's receipt, if that is
issued, and the gate does not open again. -/
structure Gathered (hub : HubConfig) (room : RoomEntry) (issued : List IssuedReceipt) : Prop where
  receipts : issued = room.finalAckReceipt.toList
  built : ∀ receipt, room.finalAckReceipt = some receipt → ∃ env then_,
    Built hub env then_ .penultimateObligationsComplete receipt ∧ room.id = then_.id ∧
      room.session.creator = then_.session.creator
  passed : room.finalAckReceipt.isSome = true → .countersign ∉ room.session.remaining

section Joined
variable {hub : HubConfig} {env : HubEnv} {room t : RoomEntry} {call : Call} {issued receipts : List IssuedReceipt}
  {closing : Bool}

theorem Drives.noAbort {op : Operation} (drives : Drives room call op) : op.isAbort = false := by
  cases call with
  | sent clientId message =>
    obtain ⟨party, _, rfl⟩ := drives
    rfl
  | received clientId message =>
    obtain ⟨party, _, rfl⟩ := drives
    rfl
  | receiptAck clientId message =>
    obtain ⟨party, _, rfl⟩ := drives
    rfl
  | confirmFee roomId =>
    obtain rfl := drives
    rfl
  | _ => exact drives.elim

theorem Gathered.unsettled (gathered : Gathered hub room issued) :
    ∀ receipt ∈ issued, receipt.fields.stage ≠ settlementByte := by
  intro receipt mem
  rw [gathered.receipts, Option.mem_toList] at mem
  obtain ⟨env, then_, built, _⟩ := gathered.built receipt mem
  rw [built.atStage]
  decide

theorem Outcome.gathers (on : room.session.OnTrack) (once : room.session.remaining.Nodup)
    (gathered : Gathered hub room issued) (outcome : Outcome hub env room call t receipts closing)
    (active : t.active = true) : Gathered hub t (issued ++ receipts) := by
  cases outcome with
  | unchanged => rwa [List.append_nil]
  | announced clientId message party member =>
    rw [List.append_nil]
    cases party <;> exact ⟨gathered.receipts, gathered.built, gathered.passed⟩
  | moved _ op session since drives _ step unfinished =>
    have works := step.works on (step.notAborted on drives.noAbort)
    obtain ⟨x, _, head⟩ := works.head
    rw [List.append_nil]
    refine ⟨gathered.receipts, fun receipt kept => ?_, fun kept ahead => ?_⟩
    · obtain ⟨env, then_, built, id, terms⟩ := gathered.built receipt kept
      exact ⟨env, then_, built, id, step.same.creator.trans terms⟩
    · exact gathered.passed kept (head ▸ List.mem_cons_of_mem x ahead)
  | gated clientId message party session receipt _ step opens built =>
    have works := step.works on (step.notAborted on rfl)
    obtain ⟨x, does, head⟩ := works.head
    obtain rfl : .countersign = x := by simpa [MediatorSession.task, opens] using does
    have first : room.finalAckReceipt = none := by
      by_contra before
      exact gathered.passed (Option.isSome_iff_ne_none.mpr before) (head ▸ List.mem_cons_self)
    rw [head] at once
    refine ⟨by simp [gathered.receipts, first], fun issued kept => ?_, fun _ => (List.nodup_cons.mp once).1⟩
    obtain rfl := Option.some.inj kept
    exact ⟨env, _, builtReceipt built, rfl, rfl⟩
  | settled => contradiction
  | unsettled => contradiction
  | aborted => contradiction

theorem Outcome.settles (correct : hub.crypto.Correct) (gathered : Gathered hub room issued)
    (outcome : Outcome hub env room call t receipts closing) {last : IssuedReceipt} (mem : last ∈ receipts)
    (settlement : last.fields.stage = settlementByte) :
    receipts = [last] ∧ (Chained hub (issued ++ receipts) ↔ room.KeepsKeys) := by
  cases outcome with
  | gated clientId message party session receipt _ step opens built =>
    obtain rfl := List.mem_singleton.mp mem
    rw [(builtReceipt built).atStage] at settlement
    contradiction
  | settled _ op session receipt drives _ step final built =>
    obtain rfl := List.mem_singleton.mp mem
    refine ⟨rfl, ?_⟩
    rw [gathered.receipts]
    cases kept : room.finalAckReceipt with
    | none =>
      have single : ¬Chained hub [last] := fun chained => by simp [Chained] at chained
      have lost : ¬room.KeepsKeys := fun ⟨_, here, _⟩ => by simp [kept] at here
      exact iff_of_false single lost
    | some first =>
      obtain ⟨env', then_, opening, id, terms⟩ := gathered.built first kept
      have pair := chainedPair correct opening (builtReceipt built) id (step.same.creator.trans terms) kept
      constructor
      · intro chained
        obtain ⟨keyA, keyB, keyAMldsa65, keyBMldsa65⟩ := pair.mp chained
        exact ⟨first, kept, keyA, keyB, keyAMldsa65, keyBMldsa65⟩
      · intro ⟨receipt, here, keys⟩
        obtain rfl := Option.some.inj (kept.symm.trans here)
        exact pair.mpr ⟨keys.keyA, keys.keyB, keys.keyAMldsa65, keys.keyBMldsa65⟩
  | _ => simp at mem

end Joined

/-! Runs. -/

section Runs
variable {hub : HubConfig} {env : HubEnv} {s : Room} {call : Call}

theorem receiptsGrow {t : Room} {new : List Effect} (effects : t.effects = s.effects ++ new) :
    t.issuedReceipts = s.issuedReceipts ++ new.filterMap Effect.receipt? := by
  simp only [Room.issuedReceipts, effects, List.filterMap_append]

structure ChainedSoFar (hub : HubConfig) (s : Room) (sound : Prop) : Prop where
  whileActive : s.entry.active = true → sound ∧ Gathered hub s.entry s.issuedReceipts
  onceSettled : s.Settled → (Chained hub s.issuedReceipts ↔ sound)

theorem chainedStep {sound : Prop} (correct : hub.crypto.Correct) (on : s.entry.session.OnTrack)
    (once : s.entry.session.remaining.Nodup) (chained : ChainedSoFar hub s sound) :
    ChainedSoFar hub (next (perform hub) s (env, call))
      (sound ∧ (IssuesSettlement hub s (env, call) → s.entry.KeepsKeys)) := by
  obtain ⟨closing, new, effects, outcome, _⟩ := performDoes hub env call s
  have grown := receiptsGrow effects
  have issues : IssuesSettlement hub s (env, call) ↔
      ∃ receipt, new.filterMap Effect.receipt? = [receipt] ∧ receipt.fields.stage = settlementByte := by
    simp only [IssuesSettlement, grown, List.append_cancel_left_eq]
  generalize new.filterMap Effect.receipt? = receipts at outcome grown issues
  generalize next (perform hub) s (env, call) = t at outcome grown
  by_cases active : s.entry.active = true
  · obtain ⟨holds, gathered⟩ := chained.whileActive active
    by_cases now : IssuesSettlement hub s (env, call)
    · obtain ⟨last, single, settlement⟩ := issues.mp now
      have verdict := (outcome.settles correct gathered (by simp [single]) settlement).2
      rw [← grown] at verdict
      refine ⟨fun stays => ?_, fun _ => by simpa [holds, now] using verdict⟩
      have still := (outcome.gathers on once gathered stays).unsettled last (by simp [single])
      exact absurd settlement still
    · refine ⟨fun stays => ?_, fun settled => ?_⟩
      · exact ⟨⟨holds, fun issued => absurd issued now⟩, grown ▸ outcome.gathers on once gathered stays⟩
      · obtain ⟨last, mem, settlement⟩ := settled
        rw [grown, List.mem_append] at mem
        cases mem with
        | inl before => exact absurd settlement (gathered.unsettled last before)
        | inr fresh =>
          have single := (outcome.settles correct gathered fresh settlement).1
          exact absurd (issues.mpr ⟨last, single, settlement⟩) now
  · have rests := outcome.rests (by simpa using active)
    rw [rests.receipts] at grown issues
    rw [List.append_nil] at grown
    have quiet : ¬IssuesSettlement hub s (env, call) := fun now => by simpa using issues.mp now
    refine ⟨fun stays => by simp [rests.active] at stays, fun settled => ?_⟩
    have before : s.Settled := by rwa [Room.Settled, grown] at settled
    simpa [grown, quiet] using chained.onceSettled before

theorem joinedChained (correct : hub.crypto.Correct) {session : MediatorSession} {entry : RoomEntry}
    (joined : Joined session entry) (calls : List (HubEnv × Call)) :
    ChainedSoFar hub (exec (perform hub) { entry } calls)
      (Throughout (perform hub) (fun s call => IssuesSettlement hub s call → s.entry.KeepsKeys) { entry } calls) := by
  refine exec_history (I := fun done (t : Room) => ChainedSoFar hub t
    (Throughout (perform hub) (fun s call => IssuesSettlement hub s call → s.entry.KeepsKeys) { entry } done)) ?_ ?_ calls
  · have fresh : entry.finalAckReceipt = none := by rw [(joinedEntry joined).1]
    exact ⟨fun _ => ⟨trivial, by simp [Room.issuedReceipts, fresh], by simp [fresh], by simp [fresh]⟩,
      fun ⟨_, mem, _⟩ => by simp [Room.issuedReceipts] at mem⟩
  · intro done call before
    obtain ⟨operations, reached⟩ := joinedRun hub joined done
    obtain ⟨_, _, _, _, _, opened⟩ := joinedConstructed joined
    have on := MediatorSession.runOnTrack (MediatorSession.constructedOnTrack opened) operations
    have once := MediatorSession.remainingNodup opened operations
    rw [← reached] at on once
    rw [throughout_snoc]
    exact chainedStep correct on once before

/-! Restored rooms. Nobody is in one any more, so it never learns a key. -/

def Call.client? : Call → Option ClientId
  | .sent clientId _ | .received clientId _ | .tradeEphemeralKey clientId _ | .receiptAck clientId _
  | .abort clientId _ | .disconnect clientId => some clientId
  | .confirmFee _ => none

def Call.byStranger (call : Call) (entry : RoomEntry) : Prop :=
  ∀ clientId, call.client? = some clientId → clientId ≠ entry.partyA ∧ clientId ≠ entry.partyB

structure Keyless (entry : RoomEntry) (t : Room) : Prop where
  carries : Carries entry t.entry
  key : t.entry.ephemeralKeyA = none
  issued : t.issuedReceipts = []

theorem keylessStep {entry : RoomEntry} (keyless : Keyless entry s) (stranger : call.byStranger entry) :
    Keyless entry (next (perform hub) s (env, call)) := by
  obtain ⟨closing, new, effects, outcome, _⟩ := performDoes hub env call s
  have grown := receiptsGrow effects
  generalize new.filterMap Effect.receipt? = receipts at outcome grown
  generalize next (perform hub) s (env, call) = t at outcome grown
  suffices still : t.entry.ephemeralKeyA = none ∧ receipts = [] from
    ⟨keyless.carries.trans outcome.carries, still.1, by rw [grown, keyless.issued, still.2, List.append_nil]⟩
  have unkeyed := keyless.key
  generalize t.entry = left at outcome
  cases outcome with
  | announced clientId message party member =>
    have apart := stranger clientId rfl
    rw [← keyless.carries.partyA, ← keyless.carries.partyB] at apart
    simp [RoomEntry.partyFor, apart.1.symm, apart.2.symm] at member
  | gated clientId message party session receipt active step opens built =>
    have key := (builtReceipt built).keyA
    simp [unkeyed] at key
  | settled _ op session receipt drives active step final built =>
    have key := (builtReceipt built).keyA
    simp [unkeyed] at key
  | _ => exact ⟨unkeyed, rfl⟩

theorem restoredKeyless {entry : RoomEntry} (restored : Restored entry) {calls : List (HubEnv × Call)}
    (strangers : ∀ call ∈ calls, call.2.byStranger entry) : Keyless entry (exec (perform hub) { entry } calls) := by
  refine exec_history (I := fun done (t : Room) => (∀ call ∈ done, call.2.byStranger entry) → Keyless entry t)
    ?_ ?_ calls strangers
  · intro _
    exact ⟨carriesRefl, by rw [restoredEntry restored], rfl⟩
  · intro done call before all
    exact keylessStep (before fun e mem => all e (List.mem_append_left _ mem)) (all call (by simp))

end Runs

/- A run of a room as the hub drives it. A connection never gets an identity it had before the
mediator restarted. -/
inductive Driven (entry : RoomEntry) (calls : List (HubEnv × Call)) : Prop where
  | joined (session : MediatorSession) (joined : Joined session entry)
  | restored (restored : Restored entry) (strangers : ∀ call ∈ calls, call.2.byStranger entry)

/- Once the settlement receipt is issued, the room's receipts are a chain exactly when the room had
the gate's receipt by then, and no key had been announced in place of one in it. -/
theorem settlementChained (hub : HubConfig) (correct : hub.crypto.Correct) {entry : RoomEntry}
    {calls : List (HubEnv × Call)} (driven : Driven entry calls)
    (settled : (exec (perform hub) { entry } calls).Settled) :
    Chained hub (exec (perform hub) { entry } calls).issuedReceipts ↔
      Throughout (perform hub) (fun s call => IssuesSettlement hub s call → s.entry.KeepsKeys) { entry } calls := by
  cases driven with
  | joined session joined => exact (joinedChained correct joined calls).onceSettled settled
  | restored restored strangers =>
    obtain ⟨receipt, mem, _⟩ := settled
    rw [(restoredKeyless restored strangers).issued] at mem
    contradiction

theorem swapCryptoCorrect : swapHub.crypto.Correct where
  ed25519 := by
    intro _ _ _ signature signed
    have same : swapSignature = signature := Except.ok.inj signed
    exact congrArg Except.ok (beq_iff_eq.mpr same.symm)
  mldsa65 := by
    intro _ _ _ signature signed
    have same : swapSignatureMldsa65 = signature := Except.ok.inj signed
    exact congrArg Except.ok (beq_iff_eq.mpr same.symm)

theorem swapStages : swapLeft.issuedReceipts.map (fun receipt => receipt.fields.stage) = [settlementByte] := by
  decide +kernel

theorem swapSettled : swapLeft.Settled := by
  have issued : settlementByte ∈ swapLeft.issuedReceipts.map (fun receipt => receipt.fields.stage) := by simp [swapStages]
  obtain ⟨receipt, mem, stage⟩ := List.mem_map.mp issued
  exact ⟨receipt, mem, stage⟩

/- The early fee confirmed: the settlement receipt is the room's first. -/
theorem swapUnchained :
    Driven swapEntry swapCalls ∧ swapLeft.Settled ∧ ¬Chained swapHub swapLeft.issuedReceipts := by
  refine ⟨.joined _ swapJoined, swapSettled, fun chained => ?_⟩
  have stages := chained.2
  rw [swapStages] at stages
  contradiction

theorem swapChainedIff :
    Chained swapHub swapLeft.issuedReceipts ↔
      Throughout (perform swapHub) (fun s call => IssuesSettlement swapHub s call → s.entry.KeepsKeys)
        { entry := swapEntry } swapCalls :=
  settlementChained swapHub swapCryptoCorrect (.joined _ swapJoined) swapSettled

end Hub
end TradeP2P
