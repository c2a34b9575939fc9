import TradeP2P.Protocol.Disclosure
import TradeP2P.Protocol.Inversion

/-! Receipts as they come off the wire, and what verifying a chain of them throws. The decoders take any
byte for a stage; a stage nobody knows is thrown as an argument error, which no caller catches. -/
namespace TradeP2P
open Wire (Bytes writtenEach)
open Checks

/- A receipt as the clients rebuild it from its message. The suite and the version are not sent. -/
def receivedReceipt (message : ReceiptIssuedMessage) : IssuedReceipt where
  fields :=
    { mediatorId := message.mediatorId
      roomId := message.roomId
      termsCommitment := message.termsCommitment
      partyAEphemeralKey := message.partyAEphemeralKey
      partyBEphemeralKey := message.partyBEphemeralKey
      partyAEphemeralKeyMldsa65 := message.partyAEphemeralKeyMldsa65
      partyBEphemeralKeyMldsa65 := message.partyBEphemeralKeyMldsa65
      mediatorPublicKey := message.mediatorPublicKey
      mediatorPublicKeyMldsa65 := message.mediatorPublicKeyMldsa65
      stage := message.stage
      completed := message.completed
      timestamp := message.timestamp
      nonce := message.nonce
      previousStageHash := message.previousStageHash }
  mediatorSignature := message.mediatorSignature
  mediatorSignatureMldsa65 := message.mediatorSignatureMldsa65

/- A message that a decoder made, out of a frame of its own or inside a disclosure. -/
inductive FromWire (message : ReceiptIssuedMessage) : Prop where
  | issued (bytes : Bytes) (decoded : decodeReceiptIssued bytes = .ok message)
  | disclosed (bytes : Bytes) (disclosure : ReceiptDisclosureMessage) (decoded : decodeReceiptDisclosure bytes = .ok disclosure)
      (inside : message ∈ disclosure.chain)

/- What is thrown, if anything, is the chain's own error. -/
def Reports {α : Type} (x : Except ReceiptError α) : Prop := ∀ e, x ≠ .error (.standard e)

/- The receipts before some receipt of unknown stage form a chain that verifies, or there are none. -/
def ReachesUnknownStage (crypto : Crypto) (key : Ed25519PublicKey) (keyMldsa65 : MlDsa65PublicKey) (chain : List IssuedReceipt) : Prop :=
  ∃ front r back, chain = front ++ r :: back ∧ r.fields.stage ∉ [1, 2, 3, 4] ∧
    (front = [] ∨ ReceiptChain crypto (fun _ => (key, keyMldsa65)) front)

section Decoded
variable {message : ReceiptIssuedMessage}

theorem issuedShort {bytes : Bytes} (encoded : encodeReceiptIssued message = .ok bytes) :
    message.mediatorId.length ≤ receiptMaxMediatorIdLength := by
  simp only [encodeReceiptIssued, bind_ok, shortStringOk] at encoded
  obtain ⟨_, _, _, fits, _⟩ := encoded
  exact fits.1.1

theorem FromWire.short (wire : FromWire message) : message.mediatorId.length ≤ receiptMaxMediatorIdLength := by
  cases wire with
  | issued bytes decoded => exact issuedShort (invertsReceiptIssued.whole.mp decoded)
  | disclosed bytes disclosure decoded inside =>
      have encoded := decodeReceiptDisclosureOk.mp decoded
      simp only [encodeReceiptDisclosure, bind_ok] at encoded
      obtain ⟨_, _, _, _, _, _, _, written, _⟩ := encoded
      obtain ⟨entry, encoded⟩ := writtenEach written message inside
      obtain ⟨issued, encoded, _⟩ := bind_ok.mp encoded
      exact issuedShort encoded

end Decoded

section Chains
variable {crypto : Crypto} {key : Ed25519PublicKey} {keyMldsa65 : MlDsa65PublicKey} {r : IssuedReceipt} {chain : List IssuedReceipt}
  {first : ReceiptFields} {link : Vector UInt8 32} {previousStage : Option UInt8}

theorem Reports.bind {α β : Type} {x : Except ReceiptError α} {f : α → Except ReceiptError β} (reports : Reports x)
    (then_ : ∀ a, x = .ok a → Reports (f a)) : Reports (x >>= f) := by
  cases x with
  | error e =>
      intro e' same
      exact reports e' (congrArg Except.error (Except.error.inj same))
  | ok a => exact then_ a rfl

theorem Reports.front {α β : Type} {x : Except ReceiptError α} {f : α → Except ReceiptError β} (reports : Reports (x >>= f)) :
    Reports x := by
  intro e same
  rw [same] at reports
  exact reports e rfl

theorem Reports.check {bad : Prop} [Decidable bad] {text : String} : Reports (throwIf bad (ReceiptError.chain text)) := by
  intro e same
  cases (throwIf_error.mp same).2

theorem Reports.inner {α : Type} {x : Except Error α} {a : α} (ok : x = .ok a) : Reports (escaping x) := by
  intro e same
  rw [escapingOk.mpr ok] at same
  cases same

theorem encodesKnown (known : r.fields.stage ∈ [1, 2, 3, 4]) (short : r.fields.mediatorId.length ≤ receiptMaxMediatorIdLength) :
    ∃ payload, encodeReceiptSignedPayload r.fields = .ok payload := by
  have fits : ¬(r.fields.mediatorId.length > receiptMaxMediatorIdLength ∨ r.fields.mediatorId.length > 65535) := by
    unfold receiptMaxMediatorIdLength at short ⊢
    omega
  have stage : requireKnownStage r.fields.stage = .ok () := requireKnownStageOk.mpr known
  rw [encodeReceiptSignedPayload, stage, throwIf_not (Nat.not_lt_of_le short), lengthPrefixed,
    throwIf_not (by decide), lengthPrefixed, throwIf_not fits]
  exact ⟨_, rfl⟩

theorem hybridAnswers (key : Ed25519PublicKey) (keyMldsa65 : MlDsa65PublicKey) (decides : crypto.ed25519.Decides) (decidesMldsa65 : crypto.mldsa65.Decides) {payload : Bytes}
    (encoded : encodeReceiptSignedPayload r.fields = .ok payload) :
    ∃ verdict, verifyReceiptHybrid crypto key keyMldsa65 r = .ok verdict := by
  obtain ⟨verdict, verified⟩ := decides key payload r.mediatorSignature
  obtain ⟨verdictMldsa65, verifiedMldsa65⟩ := decidesMldsa65 keyMldsa65 payload r.mediatorSignatureMldsa65
  have first : verifyReceipt crypto key r.fields r.mediatorSignature = .ok verdict := bind_ok.mpr ⟨payload, encoded, verified⟩
  cases verdict with
  | false => exact ⟨false, bind_ok.mpr ⟨false, first, rfl⟩⟩
  | true => exact ⟨verdictMldsa65, bind_ok.mpr ⟨true, first, bind_ok.mpr ⟨payload, encoded, verifiedMldsa65⟩⟩⟩

/- Of one receipt, only its stage can be what nobody catches. -/
theorem entryReports (decides : crypto.ed25519.Decides) (decidesMldsa65 : crypto.mldsa65.Decides)
    (short : r.fields.mediatorId.length ≤ receiptMaxMediatorIdLength) :
    Reports (verifyChainEntry crypto key keyMldsa65 first link previousStage r) ↔ r.fields.stage ∈ [1, 2, 3, 4] := by
  by_cases known : r.fields.stage ∈ [1, 2, 3, 4]
  · refine iff_of_true ?_ known
    obtain ⟨payload, encoded⟩ := encodesKnown known short
    obtain ⟨verdict, answered⟩ := hybridAnswers key keyMldsa65 decides decidesMldsa65 encoded
    have stage : requireKnownStage r.fields.stage = .ok () := requireKnownStageOk.mpr known
    refine (Reports.inner stage).bind fun _ _ => (Reports.inner answered).bind fun _ _ => ?_
    refine Reports.check.bind fun _ _ => Reports.check.bind fun _ _ => Reports.check.bind fun _ _ => Reports.check.bind fun _ _ => ?_
    exact Reports.inner (bind_ok.mpr ⟨payload, encoded, rfl⟩)
  · refine iff_of_false ?_ known
    intro reports
    rw [verifyChainEntry, requireKnownStage, throwIf_bad known] at reports
    exact reports _ rfl

theorem fromReports (decides : crypto.ed25519.Decides) (decidesMldsa65 : crypto.mldsa65.Decides)
    (short : ∀ r ∈ chain, r.fields.mediatorId.length ≤ receiptMaxMediatorIdLength) :
    Reports (verifyChainFrom crypto key keyMldsa65 first link previousStage chain) ↔
      ∀ front r back, chain = front ++ r :: back → verifyChainFrom crypto key keyMldsa65 first link previousStage front = .ok () →
        r.fields.stage ∈ [1, 2, 3, 4] := by
  induction chain generalizing link previousStage with
  | nil =>
      refine iff_of_true (fun e same => by cases same) ?_
      intro front r back split_
      simp at split_
  | cons r rest ih =>
      obtain ⟨shortFront, shortRest⟩ := List.forall_mem_cons.mp short
      have entry : Reports (verifyChainEntry crypto key keyMldsa65 first link previousStage r) ↔ r.fields.stage ∈ [1, 2, 3, 4] :=
        entryReports decides decidesMldsa65 shortFront
      constructor
      · intro reports front reached back split_ passes
        cases front with
        | nil =>
            cases split_
            exact entry.mp reports.front
        | cons passed before =>
            obtain ⟨rfl, others⟩ := List.cons.inj split_
            obtain ⟨next, passed, passes⟩ := bind_ok.mp passes
            rw [verifyChainFrom, passed] at reports
            exact (ih shortRest).mp reports before reached back others passes
      · intro known
        refine (entry.mpr (known [] r rest rfl rfl)).bind fun next passed => (ih shortRest).mpr ?_
        intro front reached back split_ passes
        exact known (r :: front) reached back (by rw [split_, List.cons_append]) (bind_ok.mpr ⟨next, passed, passes⟩)

theorem chainReports (decides : crypto.ed25519.Decides) (decidesMldsa65 : crypto.mldsa65.Decides)
    (short : ∀ r ∈ chain, r.fields.mediatorId.length ≤ receiptMaxMediatorIdLength) :
    Reports (verifyReceiptChain crypto key keyMldsa65 chain) ↔ ¬ReachesUnknownStage crypto key keyMldsa65 chain := by
  cases chain with
  | nil =>
      refine iff_of_true (fun e same => by cases same) ?_
      intro reaches
      obtain ⟨front, r, back, split_, _⟩ := reaches
      simp at split_
  | cons head rest =>
      rw [verifyReceiptChain, fromReports decides decidesMldsa65 short]
      constructor
      · intro known reaches
        obtain ⟨front, r, back, split_, unknown, before⟩ := reaches
        refine unknown (known front r back split_ ?_)
        rcases before with rfl | passes
        · rfl
        · cases front with
          | nil => rfl
          | cons passed before =>
              obtain ⟨rfl, _⟩ := List.cons.inj split_
              exact verifyReceiptChainOk.mpr passes
      · intro none_ front r back split_ passes
        by_contra unknown
        refine none_ ⟨front, r, back, split_, unknown, ?_⟩
        cases front with
        | nil => exact .inl rfl
        | cons passed before =>
            obtain ⟨rfl, _⟩ := List.cons.inj split_
            exact .inr (verifyReceiptChainOk.mp passes)

end Chains

/-! The bundle around the chain: an answer is a reason or none. -/

/- The checks before the signatures of the envelope pass. -/
structure SignaturesReached (crypto : Crypto) (chain : List IssuedReceipt) (fields : DisclosureFields) (room : RoomId)
    (recipient : Ed25519PublicKey) : Prop where
  chained : ReceiptChain crypto IssuedReceipt.mediatorKeys chain
  hash : disclosedChainHash crypto chain = .ok fields.disclosedChainHash
  room : fields.roomId = room
  recipient : fields.recipientEphemeralKey = recipient

section Bundles
variable {crypto : Crypto} {chain rest : List IssuedReceipt} {front : IssuedReceipt} {fields : DisclosureFields} {signature : Ed25519Signature}
  {signatureMldsa65 : MlDsa65Signature} {room : RoomId} {recipient : Ed25519PublicKey}

theorem chainHashed (linked : ∀ r ∈ chain, ∃ link, receiptChainLinkHash crypto r = .ok link) :
    ∃ hash, disclosedChainHash crypto chain = .ok hash := by
  have each : ∃ links, chain.mapM (receiptChainLinkHash crypto) = .ok links := by
    induction chain with
    | nil => exact ⟨[], rfl⟩
    | cons r rest ih =>
        obtain ⟨⟨link, first⟩, others⟩ := List.forall_mem_cons.mp linked
        obtain ⟨links, rest⟩ := ih others
        exact ⟨link :: links, by rw [List.mapM_cons, first, rest]; rfl⟩
  obtain ⟨links, linked⟩ := each
  exact ⟨_, bind_ok.mpr ⟨links, linked, rfl⟩⟩

theorem disclosureEncodes : (∃ payload, encodeDisclosureSignedPayload fields = .ok payload) ↔
    fields.mediatorId.length ≤ disclosureMaxMediatorIdLength := by
  constructor
  · intro encodes
    obtain ⟨payload, encoded⟩ := encodes
    exact Nat.le_of_not_lt (throwIf_ok.mp (check_ok.mp encoded).1)
  · intro short
    have fits : fields.mediatorId.length ≤ 256 := short
    have label : Wire.lengthPrefixed (Error.invalidArgument "disclosure field exceeds protocol limit") disclosureDomainLabel
        disclosureDomainLabel.length = .ok (Wire.prefixed disclosureDomainLabel) := rfl
    have mediatorId : Wire.lengthPrefixed (Error.invalidArgument "disclosure field exceeds protocol limit") fields.mediatorId
        disclosureMaxMediatorIdLength = .ok (Wire.prefixed fields.mediatorId) :=
      Wire.lengthPrefixedOk.mpr ⟨short, by omega, rfl⟩
    exact ⟨_, check_ok.mpr ⟨throwIf_not (Nat.not_lt_of_le short), bind_ok.mpr ⟨_, label, bind_ok.mpr ⟨_, mediatorId, rfl⟩⟩⟩⟩

theorem envelopeAnswers (decides : crypto.ed25519.Decides) (decidesMldsa65 : crypto.mldsa65.Decides) (key : Ed25519PublicKey)
    (keyMldsa65 : MlDsa65PublicKey) :
    (∃ verdict, verifyDisclosureHybrid crypto key keyMldsa65 fields signature signatureMldsa65 = .ok verdict) ↔
      fields.mediatorId.length ≤ disclosureMaxMediatorIdLength := by
  rw [← disclosureEncodes]
  constructor
  · intro answers
    obtain ⟨verdict, answered⟩ := answers
    obtain ⟨_, first, _⟩ := bind_ok.mp answered
    obtain ⟨payload, encoded, _⟩ := bind_ok.mp first
    exact ⟨payload, encoded⟩
  · intro encodes
    obtain ⟨payload, encoded⟩ := encodes
    obtain ⟨verdict, verified⟩ := decides key payload signature
    obtain ⟨verdictMldsa65, verifiedMldsa65⟩ := decidesMldsa65 keyMldsa65 payload signatureMldsa65
    have first : verifyDisclosure crypto key fields signature = .ok verdict := bind_ok.mpr ⟨payload, encoded, verified⟩
    cases verdict with
    | false => exact ⟨false, bind_ok.mpr ⟨false, first, rfl⟩⟩
    | true => exact ⟨verdictMldsa65, bind_ok.mpr ⟨true, first, bind_ok.mpr ⟨payload, encoded, verifiedMldsa65⟩⟩⟩

theorem bundleAnswers (decides : crypto.ed25519.Decides) (decidesMldsa65 : crypto.mldsa65.Decides)
    (short : ∀ r ∈ front :: rest, r.fields.mediatorId.length ≤ receiptMaxMediatorIdLength)
    (few : (front :: rest).length ≤ disclosureMaxChainLength) :
    (∃ answer, verifyDisclosureBundle crypto (front :: rest) fields signature signatureMldsa65 room recipient = .ok answer) ↔
      ¬ReachesUnknownStage crypto front.fields.mediatorPublicKey front.fields.mediatorPublicKeyMldsa65 (front :: rest) ∧
        (fields.mediatorId.length ≤ disclosureMaxMediatorIdLength ∨ ¬SignaturesReached crypto (front :: rest) fields room recipient) := by
  rw [← chainReports decides decidesMldsa65 short]
  simp only [verifyDisclosureBundle, if_neg (Nat.not_lt_of_le few)]
  cases checked : verifyReceiptChain crypto front.fields.mediatorPublicKey front.fields.mediatorPublicKeyMldsa65 (front :: rest) with
  | error thrown =>
      cases thrown with
      | standard e =>
          refine iff_of_false ?_ fun both => both.1 e rfl
          intro answers
          obtain ⟨answer, same⟩ := answers
          cases same
      | chain text =>
          refine iff_of_true ⟨_, rfl⟩ (And.intro (fun e same => by cases same) (Or.inr fun reached => ?_))
          have passes := verifyCarriedOk.mpr reached.chained
          rw [checked] at passes
          cases passes
  | ok u =>
      have chained := verifyCarriedOk.mp checked
      have reports : Reports (.ok u : Except ReceiptError Unit) := fun e same => by cases same
      obtain ⟨hash, hashed⟩ := chainHashed fun r mem => verifiedLinks (chained.verified r mem)
      have reached : SignaturesReached crypto (front :: rest) fields room recipient ↔
          hash = fields.disclosedChainHash ∧ fields.roomId = room ∧ fields.recipientEphemeralKey = recipient := by
        constructor
        · intro reached
          exact ⟨Except.ok.inj (hashed.symm.trans reached.hash), reached.room, reached.recipient⟩
        · intro there
          exact ⟨chained, there.1 ▸ hashed, there.2.1, there.2.2⟩
      rw [and_iff_right reports, reached]
      simp only [hashed, bind_ok, Except.ok.injEq, exists_eq_left']
      by_cases same : hash = fields.disclosedChainHash
      · by_cases here : fields.roomId = room
        · by_cases mine : fields.recipientEphemeralKey = recipient
          · simp only [same, here, mine, ne_eq, not_true, if_false, true_and, or_false, bind_ok]
            constructor
            · intro answers
              obtain ⟨_, a, underA, _⟩ := answers
              exact (envelopeAnswers decides decidesMldsa65 _ _).mp ⟨a, underA⟩
            · intro fits
              obtain ⟨a, underA⟩ := (envelopeAnswers decides decidesMldsa65 front.fields.partyAEphemeralKey
                front.fields.partyAEphemeralKeyMldsa65).mpr fits
              obtain ⟨b, underB⟩ := (envelopeAnswers decides decidesMldsa65 front.fields.partyBEphemeralKey
                front.fields.partyBEphemeralKeyMldsa65).mpr fits
              by_cases neither : ¬a ∧ ¬b
              · exact ⟨_, a, underA, b, underB, if_pos neither⟩
              · exact ⟨_, a, underA, b, underB, if_neg neither⟩
          · simp only [same, here, mine, ne_eq, not_true, not_false_eq_true, if_true, if_false, and_false, or_true, iff_true]
            exact ⟨_, rfl⟩
        · simp only [same, here, ne_eq, not_true, not_false_eq_true, if_true, if_false, and_false, false_and, or_true, iff_true]
          exact ⟨_, rfl⟩
      · simp only [same, ne_eq, not_false_eq_true, if_true, false_and, or_true, iff_true]
        exact ⟨_, rfl⟩

end Bundles

/- The condition of the first part is about the receipts only; the second one also needs a mediator id that
fits the envelope, unless the envelope's signatures are not looked at. -/
theorem verificationReports (crypto : Crypto) (decides : crypto.ed25519.Decides) (decidesMldsa65 : crypto.mldsa65.Decides)
    (messages : List ReceiptIssuedMessage) (wire : ∀ message ∈ messages, FromWire message) :
    (∀ key keyMldsa65, Reports (verifyReceiptChain crypto key keyMldsa65 (messages.map receivedReceipt)) ↔
      ¬ReachesUnknownStage crypto key keyMldsa65 (messages.map receivedReceipt)) ∧
    (∀ fields signature signatureMldsa65 room recipient,
      (∃ answer, verifyDisclosureBundle crypto (messages.map receivedReceipt) fields signature signatureMldsa65 room recipient =
        .ok answer) ↔
      messages = [] ∨ disclosureMaxChainLength < messages.length ∨ ∃ front ∈ (messages.map receivedReceipt).head?,
        ¬ReachesUnknownStage crypto front.fields.mediatorPublicKey front.fields.mediatorPublicKeyMldsa65 (messages.map receivedReceipt) ∧
          (fields.mediatorId.length ≤ disclosureMaxMediatorIdLength ∨
            ¬SignaturesReached crypto (messages.map receivedReceipt) fields room recipient)) := by
  have short : ∀ r ∈ messages.map receivedReceipt, r.fields.mediatorId.length ≤ receiptMaxMediatorIdLength := by
    intro r mem
    obtain ⟨message, inside, rfl⟩ := List.mem_map.mp mem
    exact (wire message inside).short
  refine ⟨fun key keyMldsa65 => chainReports decides decidesMldsa65 short, fun fields signature signatureMldsa65 room recipient => ?_⟩
  cases messages with
  | nil => exact iff_of_true ⟨_, rfl⟩ (.inl rfl)
  | cons front rest =>
      by_cases few : (front :: rest).length ≤ disclosureMaxChainLength
      · have sized : (receivedReceipt front :: rest.map receivedReceipt).length ≤ disclosureMaxChainLength := by simpa using few
        simp only [List.map_cons, List.head?_cons, Option.mem_some_iff, exists_eq_left', reduceCtorEq, Nat.not_lt_of_le few, false_or]
        exact bundleAnswers decides decidesMldsa65 short sized
      · have sized : (receivedReceipt front :: rest.map receivedReceipt).length > disclosureMaxChainLength := by simpa using few
        refine iff_of_true ⟨some "disclosed receipt chain exceeds the maximum allowed length", ?_⟩ (.inr (.inl (Nat.lt_of_not_le few)))
        simp only [List.map_cons, verifyDisclosureBundle, if_pos sized]
        rfl

/-! Two receipts off the wire, one with a stage that no receipt has. Nothing is signed. -/
section Unknown

def unsignedReceipt (stage : UInt8) : ReceiptIssuedMessage where
  roomId := Vector.replicate 32 0x51
  mediatorId := []
  stage := stage
  completed := false
  termsCommitment := Vector.replicate 32 0
  partyAEphemeralKey := Vector.replicate 32 0
  partyBEphemeralKey := Vector.replicate 32 0
  partyAEphemeralKeyMldsa65 := Vector.replicate 1952 0
  partyBEphemeralKeyMldsa65 := Vector.replicate 1952 0
  mediatorPublicKey := Vector.replicate 32 0
  mediatorPublicKeyMldsa65 := Vector.replicate 1952 0
  timestamp := 0
  nonce := Vector.replicate 16 0
  previousStageHash := Vector.replicate 32 0
  mediatorSignature := Vector.replicate 64 0
  mediatorSignatureMldsa65 := Vector.replicate 3309 0

def unsignedEnvelope : DisclosureFields where
  mediatorId := []
  roomId := Vector.replicate 32 0x51
  recipientEphemeralKey := Vector.replicate 32 0
  disclosedChainHash := Vector.replicate 32 0
  timestamp := 0
  nonce := Vector.replicate 16 0

def unsignedCrypto : Crypto where
  sha256 := fun _ => Vector.replicate 32 0
  ed25519 := signatureTable (fun _ => Vector.replicate 32 0) []
  mldsa65 := signatureTable (fun _ => Vector.replicate 1952 0) []

theorem unsignedWire (stage : UInt8) : FromWire (unsignedReceipt stage) := by
  have room : validateRoomId (Vector.replicate 32 0x51) = .ok () := by decide
  have mediatorId : shortString [] receiptWireMediatorIdLength = .ok [0, 0] := by decide
  have encoded : ∃ bytes, encodeReceiptIssued (unsignedReceipt stage) = .ok bytes :=
    ⟨_, check_ok.mpr ⟨room, bind_ok.mpr ⟨_, mediatorId, rfl⟩⟩⟩
  obtain ⟨bytes, encoded⟩ := encoded
  exact .issued bytes (invertsReceiptIssued.whole.mpr encoded)

theorem unsignedFails (stage : UInt8) : ¬ReceiptChain unsignedCrypto (fun _ => (Vector.replicate 32 0, Vector.replicate 1952 0))
    [receivedReceipt (unsignedReceipt stage)] := by
  intro chain
  have verified := (verifyReceiptHybridOk.mp (chain.verified _ List.mem_cons_self)).1
  obtain ⟨payload, _, known⟩ := bind_ok.mp verified
  exact absurd (tableVerifies.mp known) List.not_mem_nil

/- The receipt before the one of unknown stage does not verify, and that is what is reported. -/
theorem unsignedReported : Reports (verifyReceiptChain unsignedCrypto (Vector.replicate 32 0) (Vector.replicate 1952 0)
    ([unsignedReceipt 4, unsignedReceipt 9].map receivedReceipt)) := by
  have wire : ∀ message ∈ [unsignedReceipt 4, unsignedReceipt 9], FromWire message := by
    intro message mem
    simp only [List.mem_cons, List.not_mem_nil, or_false] at mem
    rcases mem with rfl | rfl
    · exact unsignedWire 4
    · exact unsignedWire 9
  refine ((verificationReports unsignedCrypto tableDecides tableDecides _ wire).1 _ _).mpr ?_
  intro reaches
  obtain ⟨front, r, back, split_, unknown, before⟩ := reaches
  cases front with
  | nil =>
      cases split_
      exact unknown (by decide)
  | cons first between =>
      obtain ⟨rfl, others⟩ := List.cons.inj split_
      cases between with
      | nil => exact before.elim (by simp) (unsignedFails 4)
      | cons second between =>
          have lengths := congrArg List.length others
          simp at lengths

theorem unknownStageEscapes : FromWire (unsignedReceipt 9) ∧
    verifyReceiptChain unsignedCrypto (Vector.replicate 32 0) (Vector.replicate 1952 0) [receivedReceipt (unsignedReceipt 9)] =
      .error (.standard (.invalidArgument "unknown receipt stage")) ∧
    verifyDisclosureBundle unsignedCrypto [receivedReceipt (unsignedReceipt 9)] unsignedEnvelope (Vector.replicate 64 0)
      (Vector.replicate 3309 0) (Vector.replicate 32 0x51) (Vector.replicate 32 0) =
      .error (.invalidArgument "unknown receipt stage") :=
  ⟨unsignedWire 9, rfl, rfl⟩

end Unknown
end TradeP2P
