import Mathlib.Data.List.Perm.Subperm
import Mathlib.Data.Set.Function
import TradeP2P.Protocol.ReceiptChain
import TradeP2P.Protocol.SignedPayloads

/-! Disclosures: a party shows the receipts of an earlier room to the counterparty of the present one.
The envelope is signed with the party's key for the earlier room, and says which room and which
recipient it is meant for. -/
namespace TradeP2P
open Wire (Bytes ascii)
open Checks

def disclosureMaxChainLength : Nat := 8

section Bundle
variable (crypto : Crypto)

def disclosedChainHash (chain : List IssuedReceipt) : Except Error (Vector UInt8 32) := do
  let links ← chain.mapM (receiptChainLinkHash crypto)
  return crypto.sha256 (links.flatMap Vector.toList)

def signDisclosure (seed : Ed25519PrivateSeed) (entropy : Bytes) (fields : DisclosureFields) :
    Except Error Ed25519Signature :=
  (SignedObject.disclosure fields).sign crypto.ed25519 seed entropy

def signDisclosureMldsa65 (seed : MlDsa65PrivateSeed) (entropy : Bytes) (fields : DisclosureFields) :
    Except Error MlDsa65Signature :=
  (SignedObject.disclosure fields).sign crypto.mldsa65 seed entropy

def verifyDisclosure (key : Ed25519PublicKey) (fields : DisclosureFields) (signature : Ed25519Signature) :
    Except Error Bool :=
  (SignedObject.disclosure fields).verify crypto.ed25519 key signature

def verifyDisclosureMldsa65 (key : MlDsa65PublicKey) (fields : DisclosureFields) (signature : MlDsa65Signature) :
    Except Error Bool :=
  (SignedObject.disclosure fields).verify crypto.mldsa65 key signature

def verifyDisclosureHybrid (key : Ed25519PublicKey) (keyMldsa65 : MlDsa65PublicKey) (fields : DisclosureFields)
    (signature : Ed25519Signature) (signatureMldsa65 : MlDsa65Signature) : Except Error Bool := do
  if ← verifyDisclosure crypto key fields signature then
    verifyDisclosureMldsa65 crypto keyMldsa65 fields signatureMldsa65
  else return false

/- What the recipient checks. The reason for a refusal is returned; of what is thrown on the way, only
the chain's own error is caught. -/
def verifyDisclosureBundle (chain : List IssuedReceipt) (fields : DisclosureFields) (signature : Ed25519Signature)
    (signatureMldsa65 : MlDsa65Signature) (expectedRoomId : RoomId) (expectedRecipientKey : Ed25519PublicKey) :
    Except Error (Option String) :=
  match chain with
  | [] => return some "disclosed receipt chain is empty"
  | front :: rest => do
      if (front :: rest).length > disclosureMaxChainLength then
        return some "disclosed receipt chain exceeds the maximum allowed length"
      match verifyReceiptChain crypto front.fields.mediatorPublicKey front.fields.mediatorPublicKeyMldsa65
          (front :: rest) with
      | .error (.chain text) => return some ("disclosed receipt chain does not verify: " ++ text)
      | .error (.standard e) => throw e
      | .ok () =>
          if (← disclosedChainHash crypto (front :: rest)) ≠ fields.disclosedChainHash then
            return some "disclosure envelope does not match the accompanying receipt chain"
          if fields.roomId ≠ expectedRoomId then
            return some "disclosure envelope is not bound to this negotiation"
          if fields.recipientEphemeralKey ≠ expectedRecipientKey then
            return some "disclosure envelope is not bound to this recipient"
          let validUnderPartyA ← verifyDisclosureHybrid crypto front.fields.partyAEphemeralKey
            front.fields.partyAEphemeralKeyMldsa65 fields signature signatureMldsa65
          let validUnderPartyB ← verifyDisclosureHybrid crypto front.fields.partyBEphemeralKey
            front.fields.partyBEphemeralKeyMldsa65 fields signature signatureMldsa65
          if ¬validUnderPartyA ∧ ¬validUnderPartyB then
            return some "disclosure envelope signature does not match either party's key in the chain"
          return none

end Bundle

/- The keys of the two parties of a receipt's room. -/
def IssuedReceipt.partyKeys (r : IssuedReceipt) : List (Ed25519PublicKey × MlDsa65PublicKey) :=
  [(r.fields.partyAEphemeralKey, r.fields.partyAEphemeralKeyMldsa65),
   (r.fields.partyBEphemeralKey, r.fields.partyBEphemeralKeyMldsa65)]

/- What a bundle has passed when it is accepted. -/
structure AcceptedDisclosure (crypto : Crypto) (front : IssuedReceipt) (chain : List IssuedReceipt)
    (fields : DisclosureFields) (signature : Ed25519Signature) (signatureMldsa65 : MlDsa65Signature) (room : RoomId)
    (recipient : Ed25519PublicKey) : Prop where
  short : chain.length ≤ disclosureMaxChainLength
  chained : verifyReceiptChain crypto front.fields.mediatorPublicKey front.fields.mediatorPublicKeyMldsa65 chain = .ok ()
  hash : disclosedChainHash crypto chain = .ok fields.disclosedChainHash
  room : fields.roomId = room
  recipient : fields.recipientEphemeralKey = recipient
  signed : ∃ validUnderPartyA validUnderPartyB,
    verifyDisclosureHybrid crypto front.fields.partyAEphemeralKey front.fields.partyAEphemeralKeyMldsa65 fields
      signature signatureMldsa65 = .ok validUnderPartyA ∧
    verifyDisclosureHybrid crypto front.fields.partyBEphemeralKey front.fields.partyBEphemeralKeyMldsa65 fields
      signature signatureMldsa65 = .ok validUnderPartyB ∧ (validUnderPartyA = true ∨ validUnderPartyB = true)

section Checking
variable {crypto : Crypto} {chain : List IssuedReceipt} {fields : DisclosureFields} {signature : Ed25519Signature}
  {signatureMldsa65 : MlDsa65Signature} {room : RoomId} {recipient : Ed25519PublicKey}

theorem verifyDisclosureHybridOk {key : Ed25519PublicKey} {keyMldsa65 : MlDsa65PublicKey} :
    verifyDisclosureHybrid crypto key keyMldsa65 fields signature signatureMldsa65 = .ok true ↔
      verifyDisclosure crypto key fields signature = .ok true ∧
        verifyDisclosureMldsa65 crypto keyMldsa65 fields signatureMldsa65 = .ok true := by
  cases ed25519 : verifyDisclosure crypto key fields signature with
  | error e => simp [verifyDisclosureHybrid, ed25519, bind, Except.bind]
  | ok verified => cases verified <;> simp [verifyDisclosureHybrid, ed25519, bind, Except.bind, pure, Except.pure]

theorem unrefused {bad : Prop} [Decidable bad] {text : String} {goesOn : Except Error (Option String)} :
    (if bad then pure (some text) else goesOn) = .ok none ↔ ¬bad ∧ goesOn = .ok none := by
  split <;> simp [*, pure, Except.pure]

theorem verifyDisclosureBundleOk {front : IssuedReceipt} {rest : List IssuedReceipt} :
    verifyDisclosureBundle crypto (front :: rest) fields signature signatureMldsa65 room recipient = .ok none ↔
      AcceptedDisclosure crypto front (front :: rest) fields signature signatureMldsa65 room recipient := by
  simp only [verifyDisclosureBundle, unrefused]
  split
  · next text failed =>
      exact iff_of_false (by simp [pure, Except.pure]) (fun accepted => by cases failed.symm.trans accepted.chained)
  · next e failed =>
      exact iff_of_false (by simp [throw, throwThe, MonadExceptOf.throw])
        (fun accepted => by cases failed.symm.trans accepted.chained)
  · next chained =>
      simp only [bind_ok, unrefused, ne_eq, not_not, pure_ok, not_and_or, Nat.not_lt, and_true]
      constructor
      · intro accepted
        obtain ⟨short, hash, hashed, same, atRoom, toRecipient, a, underA, b, underB, either⟩ := accepted
        exact ⟨short, chained, same ▸ hashed, atRoom, toRecipient, a, b, underA, underB, either⟩
      · intro accepted
        obtain ⟨a, b, underA, underB, either⟩ := accepted.signed
        exact ⟨accepted.short, _, accepted.hash, rfl, accepted.room, accepted.recipient, a, underA, b, underB, either⟩

end Checking

/-! The chain behind a hash. The hash covers the receipts through the hashes of each, so two chains of
one hash are the same chain, unless two of the strings hashed for them collide. -/
section Hashing
variable {crypto : Crypto} {r r' : IssuedReceipt} {bytes : Bytes} {chain chain' : List IssuedReceipt}
  {links : List (Vector UInt8 32)}

def IssuedReceipt.linkBytes (r : IssuedReceipt) : Except Error Bytes := do
  let payload ← encodeReceiptSignedPayload r.fields
  return payload ++ (r.mediatorSignature.toList ++ r.mediatorSignatureMldsa65.toList)

theorem linkHashOk {link : Vector UInt8 32} :
    receiptChainLinkHash crypto r = .ok link ↔ ∃ bytes, r.linkBytes = .ok bytes ∧ crypto.sha256 bytes = link := by
  simp only [receiptChainLinkHash, IssuedReceipt.linkBytes, bind_ok, pure_ok]
  constructor
  · intro hashed
    obtain ⟨payload, encoded, same⟩ := hashed
    exact ⟨_, ⟨payload, encoded, rfl⟩, same⟩
  · intro hashed
    obtain ⟨_, ⟨payload, encoded, rfl⟩, same⟩ := hashed
    exact ⟨payload, encoded, same⟩

/- The signatures behind the payload have fixed lengths, so the payload is found from the end. -/
theorem linkBytesInjective (written : r.linkBytes = .ok bytes) (written' : r'.linkBytes = .ok bytes) : r = r' := by
  simp only [IssuedReceipt.linkBytes, bind_ok, pure_ok] at written written'
  obtain ⟨payload, encoded, rfl⟩ := written
  obtain ⟨payload', encoded', same⟩ := written'
  obtain ⟨rfl, signatures⟩ := List.append_inj' same (by simp)
  have fields := receiptInjective encoded encoded'
  obtain ⟨ed25519, mldsa65⟩ := Wire.fixedFront.mp signatures
  cases r
  cases r'
  simp_all [Vector.toList_inj]

/- Everything that is hashed for a chain. -/
def hashedFor (crypto : Crypto) (chain : List IssuedReceipt) : Set Bytes :=
  {bytes | (∃ r ∈ chain, r.linkBytes = .ok bytes) ∨
    ∃ links, chain.mapM (receiptChainLinkHash crypto) = .ok links ∧ bytes = links.flatMap Vector.toList}

theorem linksInjective {links links' : List (Vector UInt8 32)}
    (same : links.flatMap Vector.toList = links'.flatMap Vector.toList) : links = links' := by
  induction links generalizing links' with
  | nil => cases links' with
    | nil => rfl
    | cons link rest =>
        have widths := congrArg List.length same
        simp at widths
        omega
  | cons link rest ih => cases links' with
    | nil =>
        have widths := congrArg List.length same
        simp at widths
    | cons link' rest' =>
        obtain ⟨rfl, tails⟩ := Wire.fixedFront.mp same
        rw [ih tails]

theorem chainsAgree {hashed : Set Bytes} (injective : Set.InjOn crypto.sha256 hashed)
    (inside : ∀ r ∈ chain, ∀ bytes, r.linkBytes = .ok bytes → bytes ∈ hashed)
    (inside' : ∀ r ∈ chain', ∀ bytes, r.linkBytes = .ok bytes → bytes ∈ hashed)
    (linked : chain.mapM (receiptChainLinkHash crypto) = .ok links)
    (linked' : chain'.mapM (receiptChainLinkHash crypto) = .ok links) : chain = chain' := by
  induction chain generalizing chain' links with
  | nil =>
      obtain rfl := pure_ok.mp linked
      cases chain' with
      | nil => rfl
      | cons r' rest' =>
          simp only [List.mapM_cons, bind_ok, pure_ok] at linked'
          obtain ⟨_, _, _, _, impossible⟩ := linked'
          cases impossible
  | cons r rest ih =>
      simp only [List.mapM_cons, bind_ok, pure_ok] at linked
      obtain ⟨link, hash, more, tail, rfl⟩ := linked
      cases chain' with
      | nil => simp [pure_ok] at linked'
      | cons r' rest' =>
          simp only [List.mapM_cons, bind_ok, pure_ok, List.cons.injEq] at linked'
          obtain ⟨_, hash', _, tail', rfl, rfl⟩ := linked'
          obtain ⟨bytes, written, digest⟩ := linkHashOk.mp hash
          obtain ⟨bytes', written', digest'⟩ := linkHashOk.mp hash'
          have same := injective (inside r List.mem_cons_self _ written) (inside' r' List.mem_cons_self _ written')
            (digest.trans digest'.symm)
          obtain rfl := linkBytesInjective written (same ▸ written')
          rw [ih (List.forall_mem_cons.mp inside).2 (List.forall_mem_cons.mp inside').2 tail tail']

theorem chainHashInjective {hash : Vector UInt8 32} (injective : Set.InjOn crypto.sha256 (hashedFor crypto chain ∪ hashedFor crypto chain'))
    (hashed : disclosedChainHash crypto chain = .ok hash) (hashed' : disclosedChainHash crypto chain' = .ok hash) :
    chain = chain' := by
  simp only [disclosedChainHash, bind_ok, pure_ok] at hashed hashed'
  obtain ⟨links, linked, digest⟩ := hashed
  obtain ⟨links', linked', digest'⟩ := hashed'
  have whole := injective (.inl (.inr ⟨links, linked, rfl⟩)) (.inr (.inr ⟨links', linked', rfl⟩)) (digest.trans digest'.symm)
  obtain rfl := linksInjective whole
  exact chainsAgree injective (fun r mem _ written => .inl (.inl ⟨r, mem, written⟩))
    (fun r mem _ written => .inr (.inl ⟨r, mem, written⟩)) linked linked'

end Hashing

/- An envelope as its holder made it: over the chain it shows, and signed with both of the holder's keys
for the earlier room. -/
structure HonestDisclosure (crypto : Crypto) (seed : Ed25519PrivateSeed) (seedMldsa65 : MlDsa65PrivateSeed)
    (chain : List IssuedReceipt) (fields : DisclosureFields) (signature : Ed25519Signature)
    (signatureMldsa65 : MlDsa65Signature) : Prop where
  hash : disclosedChainHash crypto chain = .ok fields.disclosedChainHash
  signed : ∃ entropy, signDisclosure crypto seed entropy fields = .ok signature
  signedMldsa65 : ∃ entropy, signDisclosureMldsa65 crypto seedMldsa65 entropy fields = .ok signatureMldsa65

/- Whether the signer's keys are those of a party of the chain's room. -/
def SignerIsParty (crypto : Crypto) (seed : Ed25519PrivateSeed) (seedMldsa65 : MlDsa65PrivateSeed)
    (chain : List IssuedReceipt) : Prop :=
  ∃ front ∈ chain.head?, (crypto.ed25519.publicKey seed, crypto.mldsa65.publicKey seedMldsa65) ∈ front.partyKeys

section Replays
variable {crypto : Crypto} {seed : Ed25519PrivateSeed} {seedMldsa65 : MlDsa65PrivateSeed} {chain : List IssuedReceipt}
  {fields : DisclosureFields} {signature : Ed25519Signature} {signatureMldsa65 : MlDsa65Signature} {payload : Bytes}

theorem ReceiptChain.short {keys : IssuedReceipt → ReceiptKeys} (sound : ReceiptChain crypto keys chain) :
    chain.length ≤ disclosureMaxChainLength := by
  have distinct : (chain.map (fun r => r.fields.stage)).Nodup := by
    refine (List.pairwise_map.mpr sound.increasing).imp ?_
    intro a b below same
    exact absurd below (same ▸ UInt8.lt_irrefl a)
  have known : chain.map (fun r => r.fields.stage) ⊆ [1, 2, 3, 4] := by
    intro stage mem
    obtain ⟨r, inside, rfl⟩ := List.mem_map.mp mem
    exact sound.known r inside
  have few := (List.Nodup.subperm distinct known).length_le
  rw [List.length_map] at few
  exact Nat.le_trans few (by decide)

theorem HonestDisclosure.encoded
    (honest : HonestDisclosure crypto seed seedMldsa65 chain fields signature signatureMldsa65) :
    ∃ payload, encodeDisclosureSignedPayload fields = .ok payload := by
  obtain ⟨entropy, signed⟩ := honest.signed
  obtain ⟨payload, encoded, _⟩ := bind_ok.mp signed
  exact ⟨payload, encoded⟩

theorem HonestDisclosure.verifies (correct : crypto.Correct)
    (honest : HonestDisclosure crypto seed seedMldsa65 chain fields signature signatureMldsa65) :
    verifyDisclosureHybrid crypto (crypto.ed25519.publicKey seed) (crypto.mldsa65.publicKey seedMldsa65) fields
      signature signatureMldsa65 = .ok true := by
  obtain ⟨entropy, signed⟩ := honest.signed
  obtain ⟨entropyMldsa65, signedMldsa65⟩ := honest.signedMldsa65
  obtain ⟨payload, encoded, made⟩ := bind_ok.mp signed
  obtain ⟨payload', encoded', madeMldsa65⟩ := bind_ok.mp signedMldsa65
  exact verifyDisclosureHybridOk.mpr ⟨bind_ok.mpr ⟨payload, encoded, correct.ed25519 _ _ _ _ made⟩,
    bind_ok.mpr ⟨payload', encoded', correct.mldsa65 _ _ _ _ madeMldsa65⟩⟩

/- Verification comes to an answer whatever the keys are. -/
theorem hybridDecides (decides : crypto.ed25519.Decides) (decidesMldsa65 : crypto.mldsa65.Decides)
    (encoded : encodeDisclosureSignedPayload fields = .ok payload) (signature : Ed25519Signature)
    (signatureMldsa65 : MlDsa65Signature) (key : Ed25519PublicKey) (keyMldsa65 : MlDsa65PublicKey) :
    ∃ valid, verifyDisclosureHybrid crypto key keyMldsa65 fields signature signatureMldsa65 = .ok valid := by
  obtain ⟨verdict, first⟩ := decides key payload signature
  obtain ⟨verdict', second⟩ := decidesMldsa65 keyMldsa65 payload signatureMldsa65
  have ed25519 : verifyDisclosure crypto key fields signature = .ok verdict := bind_ok.mpr ⟨payload, encoded, first⟩
  have mldsa65 : verifyDisclosureMldsa65 crypto keyMldsa65 fields signatureMldsa65 = .ok verdict' :=
    bind_ok.mpr ⟨payload, encoded, second⟩
  cases verdict with
  | false => exact ⟨false, by simp [verifyDisclosureHybrid, ed25519, bind, Except.bind, pure, Except.pure]⟩
  | true => exact ⟨verdict', by simp [verifyDisclosureHybrid, ed25519, mldsa65, bind, Except.bind]⟩

/- What a signature that is bound to its signer and payload says where it verifies. -/
theorem signerFound {fields' : DisclosureFields} {signerKey key : Ed25519PublicKey}
    {signerKeyMldsa65 keyMldsa65 : MlDsa65PublicKey} (encoded : encodeDisclosureSignedPayload fields = .ok payload)
    (bound : crypto.ed25519.Binds signerKey payload signature)
    (boundMldsa65 : crypto.mldsa65.Binds signerKeyMldsa65 payload signatureMldsa65)
    (verified : verifyDisclosureHybrid crypto key keyMldsa65 fields' signature signatureMldsa65 = .ok true) :
    fields' = fields ∧ (signerKey, signerKeyMldsa65) = (key, keyMldsa65) := by
  obtain ⟨ed25519, mldsa65⟩ := verifyDisclosureHybridOk.mp verified
  obtain ⟨payload', encoded', accepted⟩ := bind_ok.mp ed25519
  obtain ⟨_, _, acceptedMldsa65⟩ := bind_ok.mp mldsa65
  obtain ⟨rfl, rfl⟩ := bound _ _ accepted
  obtain ⟨rfl, _⟩ := boundMldsa65 _ _ acceptedMldsa65
  exact ⟨disclosureInjective encoded' encoded, rfl⟩

/- An honest envelope is accepted where it belongs, with the chain it was made for and from a party of
that chain's room, and nowhere else. -/
theorem disclosureBound (correct : crypto.Correct) (decides : crypto.ed25519.Decides)
    (decidesMldsa65 : crypto.mldsa65.Decides)
    (honest : HonestDisclosure crypto seed seedMldsa65 chain fields signature signatureMldsa65)
    (encoded : encodeDisclosureSignedPayload fields = .ok payload)
    (bound : crypto.ed25519.Binds (crypto.ed25519.publicKey seed) payload signature)
    (boundMldsa65 : crypto.mldsa65.Binds (crypto.mldsa65.publicKey seedMldsa65) payload signatureMldsa65)
    (chain' : List IssuedReceipt) (fields' : DisclosureFields) (room : RoomId) (recipient : Ed25519PublicKey)
    (injective : Set.InjOn crypto.sha256 (hashedFor crypto chain ∪ hashedFor crypto chain')) :
    verifyDisclosureBundle crypto chain' fields' signature signatureMldsa65 room recipient = .ok none ↔
      chain' = chain ∧ fields' = fields ∧ room = fields.roomId ∧ recipient = fields.recipientEphemeralKey ∧
      ReceiptChain crypto IssuedReceipt.mediatorKeys chain ∧ SignerIsParty crypto seed seedMldsa65 chain := by
  constructor
  · intro accepted
    cases chain' with
    | nil => cases accepted
    | cons front rest =>
        obtain ⟨_, chained, hash, atRoom, toRecipient, a, b, underA, underB, either⟩ := verifyDisclosureBundleOk.mp accepted
        have signer : fields' = fields ∧
            (crypto.ed25519.publicKey seed, crypto.mldsa65.publicKey seedMldsa65) ∈ front.partyKeys := by
          cases either with
          | inl valid =>
              obtain ⟨same, keys⟩ := signerFound encoded bound boundMldsa65 (valid ▸ underA)
              exact ⟨same, keys ▸ by simp [IssuedReceipt.partyKeys]⟩
          | inr valid =>
              obtain ⟨same, keys⟩ := signerFound encoded bound boundMldsa65 (valid ▸ underB)
              exact ⟨same, keys ▸ by simp [IssuedReceipt.partyKeys]⟩
        obtain ⟨rfl, party⟩ := signer
        obtain rfl := chainHashInjective injective honest.hash hash
        exact ⟨rfl, rfl, atRoom.symm, toRecipient.symm, verifyCarriedOk.mp chained,
          front, rfl, party⟩
  · intro proper
    obtain ⟨rfl, rfl, rfl, rfl, sound, party⟩ := proper
    cases chain' with
    | nil => exact absurd rfl sound.nonempty
    | cons front rest =>
        obtain ⟨_, atFront, signer⟩ := party
        obtain rfl := Option.mem_some_iff.mp atFront
        have verifies := honest.verifies correct
        have answers := hybridDecides decides decidesMldsa65 encoded signature signatureMldsa65
        obtain ⟨a, underA⟩ := answers front.fields.partyAEphemeralKey front.fields.partyAEphemeralKeyMldsa65
        obtain ⟨b, underB⟩ := answers front.fields.partyBEphemeralKey front.fields.partyBEphemeralKeyMldsa65
        have either : a = true ∨ b = true := by
          simp only [IssuedReceipt.partyKeys, List.mem_cons, List.not_mem_nil, or_false, Prod.mk.injEq] at signer
          cases signer with
          | inl isA => exact .inl (Except.ok.inj (underA.symm.trans (isA.1 ▸ isA.2 ▸ verifies)))
          | inr isB => exact .inr (Except.ok.inj (underB.symm.trans (isB.1 ▸ isB.2 ▸ verifies)))
        exact verifyDisclosureBundleOk.mpr ⟨sound.short, verifyCarriedOk.mpr sound,
          honest.hash, rfl, rfl, a, b, underA, underB, either⟩

end Replays

/- The holder of the issued receipt shows it in another room. The hash and the signatures are the
library's, for the holder's seeds. -/
section Shown

def shownHash : Vector UInt8 32 :=
  #v[0xf6, 0x2d, 0x32, 0x7a, 0xdf, 0xf6, 0x4e, 0x8c, 0xfe, 0xf9, 0x8f, 0x11, 0x3b, 0x28, 0xed, 0x09,
     0xd9, 0xe7, 0x82, 0x15, 0xe1, 0x60, 0x97, 0x1a, 0x17, 0xfa, 0x64, 0x62, 0xa2, 0xf8, 0x5b, 0x5c]

def holderSignature : Ed25519Signature :=
  #v[0xe6, 0xcf, 0x1c, 0xf8, 0xa2, 0x25, 0x4b, 0x56, 0x2f, 0x9b, 0xa0, 0xe5, 0x68, 0x31, 0xe9, 0xfb,
     0x74, 0xdb, 0xfe, 0x3e, 0xd5, 0x22, 0x1c, 0x77, 0x7e, 0x33, 0x46, 0x01, 0x6f, 0x12, 0x1d, 0x3d,
     0x17, 0x46, 0xf6, 0x96, 0xc8, 0xf5, 0x97, 0x57, 0xdb, 0xae, 0x46, 0xb7, 0xf8, 0x3e, 0x32, 0x09,
     0xcb, 0xf7, 0x42, 0x5e, 0xd0, 0xfb, 0xc6, 0x6b, 0x67, 0xdf, 0xa1, 0x0f, 0x24, 0x5c, 0x6b, 0x0d]

def holderSignatureMldsa65 : MlDsa65Signature := words 3309
  [0xd83ecf69f73d2ea08f705223bb69b68d4edb36cf9e9bfb5a933480871194ee8fa1642245d35e18768c7faaebf6710d19002dbe6edcd482b661b44ae5d47f3539,
   0xc9573ac8b3d9c8c784677293be987703b4b0d094b620c3a96cac39d5c25e793bb2dfa520bfa506db806849ca278d696aa7487b334268e56abeb5ec545628901c,
   0xf9975ab0f95cb03474a7bb774a0f581b4b26f3b322a539aebc8361605970af2eab063e80166d0c1df04ccc7795b5af5df126e0ec3f3f8c7f20a12ba6de04452f,
   0x3eb5fcdc62f39c565ee0e5e8c8c41b3022f3f0ab91bc72f52250dc154ebed864a9508449f31e3cfc6791973be5664e0bbd8094e6ea6aa9815aea5557f65a7a0e,
   0x816b2e929557b30e331ad0a18a058b3f99dcd77597d136bc610f82e1c2d78fd3215c3e38e7e1eafb9734d9e76379cea280fe23072a2cd9f3206f717fe407bce5,
   0xdab656eff65421d1c99df11c98ceb141cef9344960b75e5e584a123b207ab85d295ce4cbec75062da36152c60d78933ddf79fd61864030b21352f09cc55bdc6a,
   0x71f5984b3ca1c17e1aa39c61774ada2374cab3defbc4d52bb108edc28a04feb8df2176bae405abfd448c27ddb45e6c97dc3b84089b9b661e8e6d8dc431927ff8,
   0xc1fa79e197107cdc672b07b31f8ae41616c55ae735312583544ef2558f6e4cb8fea02c7ef90e94f616b312ede95e1e33bbc4bf29e1c93391bb30127453d00b3f,
   0x33bdc648a93f8decd96602dbb2d98d99acc88e6fb2adfc769353fb3a54b30074c44056b61d51b991865278d6e4040756fbd58e917b73a61d59beb70b94791838,
   0x458f338184e98d7a778c416a4e6a9f534453d05a9a4c5d6ea858d17ec18be9df79f1f78ee8094d12e52929fe0197112e3d38726351df492d95d425be92271bda,
   0x49b44854c5797b9e588ab5461415dd21ca48529ba490ae5174a5dae36d4a30bf54aea43cf112e34f985c6e1db390d472f3a7cca33018320895d3854bdc48fff8,
   0x134c54506e77fb992830c482bfc0c7daf02e57bd1f847c164e2e4b524aaf91742feb7a3584af8d53f54a0e4bd118af870cde41e6e9b2a311351acb3bf0e217bb,
   0x829705a8a6cf67a3eb35fe4cd20f62981cbe920d18ce12ab2409ddb87bcbae032ce2024f609a1eef54854cbdc6436e1652b12b68ba32d994ca3c97c711a780d4,
   0x5563a03fc716c1194def2139e41560e2c30ab397a501a8a263401bab8c714f756e76ac916238ed3dc64a0245690bf05a97ccb95af62a48d7f44e049b3b24ef55,
   0x32b15f345c8be93aaec7cc3190f16f1beef3ae0116c9fb83b34eae5cfed3fdcfa12c8c8a00b6d02927209fc989daca5ba671e9952865a45bfb2f6c6b67ba35b4,
   0x22eae6ccbff33dab621daf5cc950c7eccc0b586aabb9cf847acff4c4001f84d4a4d8a6a559d46ff3d00533ebbe10905260996599b69e7b01f493d13684e83b5c,
   0x6e90e1fc881df5af8a1ce2c878718ddd84a9082d6d12351015af365c004ef5b3043377b18cc54cf82850b78f7377d13e379215547d3ee22870bfa516f181ac6a,
   0x8568dfde449bc7b08c465fa4c984038d591b854b3039bcdcfb951d7d973ad646c9e6a202c58e969b51b1152ac158cddf9b9b226d0a5aa3e9cd1dd5cdd763ecca,
   0x9959d86665252fb81b6b3cf0d3c2a90d71229bf50291913409cf1df42bf1a5d187aecb8e570c3c664fb9f37c9f10a62f8502fbc8d8dbfc8d837f108044df69f9,
   0x85013dd99fe6e8121c162d198c972b725e820fb64001474a76c66df6cd0cba2a46d15682362aa87414f697e985c845c3c2c0a9ca34b2f2670904553860e1ece9,
   0xb49c39b91571b9a6d5c720afd3df7972916f53d37a0069f8e4d2b32fff5a2b905e35010cb55f9c9629398c22555e563c013ee119aa7a38e502a12150138d4574,
   0xc8e8c348d9ecfde6432ebc62e9f8569af90dc5830eb12eed97b005c539178e789b624a3a462c5a1842c8b8d76aec08dd9eda81d95df3e037e3ebaac1ac458748,
   0xf00b75d9310dabf1f6ab25a3eb555b898358e8867a74d05e823c8fc7879557c3cf4d8b6b00cbc3f9de311f0c1ebb9cc1bba4336aee0fd4c8b8d294b213d1b563,
   0xa5145339602128a25d74b79efdb55068879a92dbd26350feaf52aee62a488121df931cd36d7ba0a2c590be3bc90c5495b332ec1a0c9979601a94612d6b472e16,
   0x05c99200dcccc96c08fc703ba834568a1b77ccf338728813dea544304095c1f0f4d87165d774fd3447b6363c96312d866ca69b435713059be09bdc47a12c67d5,
   0x6015d1e6a8317abd89c7e989e5b83a0032cff006c94559cccf5ae26a8bda21ee87b189494eb670ef2edf2c04ac319de191e09df17829614979d805c118a60818,
   0x6f177024ddb52d7bf5703c7bec90ca8e8082a88d83e4a60d293d6e6aa30da4bedca047304fc5c0714000c5dd258daa7764a60cea42338c570ab2471e21a1c8ed,
   0x370fb7acc6697d8f40af5a788b3596b9f023bf1af3baf42ed3379c9e414bacc544efa328475eec72b5611c4772f5f846f939e70b7d5beb5045695da2e6d6131d,
   0x621b8ad2a2f0ce755b2a009cc653ed1bcbc30fb10a1e47744ba4d7b06df703408e4e61679351d18c371c3fe727eeca2564743d0b65867c2197b2f57e0d08f4cf,
   0x588e367ac3cb64e027ef06f4278903b0f250e0f044f47da6f1b1f1c00ef9064d6e78747ab6d88e704f4a23408f42211712071e4418fef970f71d6792d3f683a5,
   0x39ccb8542f188699cc5734fd04478dcbf1357361f7c3ce0c67256e9412ec2014492e256a02bc7903179a4335a0f7791950a3bbd6420e93f442d8d00c6ca6f3d6,
   0x9d9086e80dae0020da4c962c62e0dcb0ba12ed848236dd281068c937ca7555bce8ad3774bd639835cd143f05899321474a0a3552c3d9f91c33014b9be0ca673c,
   0xe8cca6634ef68caf1a7787c267e250d042de9984bd50666ba4a813fce464143ea86b4e7be71b93f4e72a44051707f2275e8c473cc39e6cd04f87b2b71a8a2eda,
   0xb7ff7926dc0a9d1766add72a31c986a0dfa0851031d9f41b3448a6dfbe46618133595976d615748e2990a6a5b050221cdc7138b092c36ac5facb91f1745fcc82,
   0xfb75befd984161aef805eb4fb74ccd33c0b7046df7f471a76f4e5adf24e4b537e327c97b2c868d63c468d2ec4df9e6eb7859f5854bbddcbb9b31b81e5725cacd,
   0x4a942f5ba61add6ecaa5a66b27a0d14a1655e410662020b466eb8205f3348eb98ac00e8ea7653fd3856c48b43ffdf6e7ba9ee3f8508c5f548b7af25ed9252b87,
   0x4986636a5875b4a0e885db443e3dc6803d3c5d85f86c5760f87d21e16ace222cc66f06e62407742ead5b0ae26e942e02a9f2b42be6e0dfe3d6438031e735a3e7,
   0x56dace5f70ac7b9e0cb4a65e8cd959a9c44787ab2ccff19b557747cb507a559d500dc0a4b69bd09355c8ebe313f1598814d1eedcf6020754bc9070c7a62c5363,
   0xeeee8b528444cbfe22b52bdfbb25e7e17e1857d5e2f1a5586de015a50a5a9b31a4eaf9d254905a3aeeca275dd0ec92347095263ffde75fd95df65f2ff982e268,
   0x53bbc39373d639df66f5255b3c402bd2426825a7b479d1f4aae65027a812dba431457a369ca9b0ef8b711346d364e760017439fa2a4dd291681c46fef2ed76d7,
   0x4b36a809c715d4c807d5f0daa0aae131e73ba78faedbe5beeecac9e7c54da8aed8c2a6b1981c5c0d3d86114d2f0eee0f9c787e4008b5e9f72a57d3825a375632,
   0x3da3ee53b717f3650624db0b45a1e665e8d74f3a1afceba6d30c797ab29777ddaf69ef45a5120c2f191737c6bf31759c67b82b565fa5eddbcfa3fe769fab8401,
   0x91a8854344fdcd2d3bab14a2973b4e6bf5edcec3655160f34cc37758a832908e6fe3cd3633d641ccbe910de47247d89a4acf783ebe4505613a4b36357c211bdd,
   0x0eb1f7a8e93f76b0e38f8403ad07eef30ded8c81c9832841276986572fac2451af6b3aa0166aae477ecd866e8d96e60729f32e1cc01f01f99437cd54accb0a73,
   0xd2bad4e2b7262cffe77a2fa4a3369dc7b3e6a67588b41f5058105a97a23aaedf8eccbe8b9bf53080832381adad26c0b813bbaabdf48e3b296683a13db7cdb826,
   0x0ade49c48baa21e637081da2a19407572b7f3b6e6ad4f68255ad4ff1e46caa53a3b4de4687eb8635d6adfd623ef8d678399e9081ec6193095bb5cbbc1fa895f7,
   0x7b9ffc4f3934d99e49dd4b26d01676569a0ec00f16f89c7c115bffc236b31662a90956ba36d18df111e2addb9cdaa48115c82e07706430810bf06f44f2eb230f,
   0xdbb64ff009ab8969532900378508160d5c4129d91b89c636feb6c7bca4a7308ae52763f89b2a928c133bb0c1eab3b30502ad2d7d1d080fc360b6cf1b5c09e523,
   0xd10e0bb73d8f0d142e2f90d849d93e2bb87cef893c8b22ea8829cc938992e3fe107e589d01a05460d423108e548b1527cddb329aa5b9c391167a400e5a35ba3d,
   0xb4ca13b7dc44a90e274da6e8165f8f69a1fdf42ba92612499014da6a991e62b2317128b3d84fd89b337c6828d5548024e604fcfdf667a243cc040130122b385c,
   0xaf15494fcce879a76a39ed10d2bbd4ad7608217b7b96fb843a5252c17b3c4bc60fdebbee663924dd6575a204cac3466189a8ab032234589cb3cb282a2b3f5559,
   0x878ca02127363b7174829dc84151f6f80449848d94a3dc00000000000000000000000000000000030a131c202700000000000000000000000000000000000000]

def shownFields : DisclosureFields where
  mediatorId := ascii "m"
  roomId := Vector.replicate 32 0x61
  recipientEphemeralKey := Vector.replicate 32 0x62
  disclosedChainHash := shownHash
  timestamp := 1700003600
  nonce := Vector.replicate 16 0x63

def shownPayload : Bytes := (encodeDisclosureSignedPayload shownFields).toOption.getD []

theorem shownEncoded : encodeDisclosureSignedPayload shownFields = .ok shownPayload := rfl

def shownCrypto : Crypto where
  sha256 := fun bytes => if bytes = issuedLink.toList then shownHash else issuedLink
  ed25519 := signatureTable (fun seed => if seed = Vector.replicate 32 4 then holderKey else issuerKey)
    [(issuerKey, issuedPayload, issuerSignature), (holderKey, shownPayload, holderSignature)]
  mldsa65 := signatureTable (fun _ => issuerKeyMldsa65)
    [(issuerKeyMldsa65, issuedPayload, issuerSignatureMldsa65), (issuerKeyMldsa65, shownPayload, holderSignatureMldsa65)]

theorem shownEd25519 : shownCrypto.ed25519 = signatureTable
    (fun seed => if seed = Vector.replicate 32 4 then holderKey else issuerKey)
    [(issuerKey, issuedPayload, issuerSignature), (holderKey, shownPayload, holderSignature)] := rfl

theorem shownMldsa65 : shownCrypto.mldsa65 = signatureTable (fun _ => issuerKeyMldsa65)
    [(issuerKeyMldsa65, issuedPayload, issuerSignatureMldsa65),
      (issuerKeyMldsa65, shownPayload, holderSignatureMldsa65)] := rfl

theorem shownSigner : (shownCrypto.ed25519.publicKey (Vector.replicate 32 4),
    shownCrypto.mldsa65.publicKey (Vector.replicate 32 5)) = (holderKey, issuerKeyMldsa65) := by
  rw [shownEd25519, shownMldsa65]
  simp [signatureTable]

def issuedBytes : Bytes := issuedPayload ++ (issuerSignature.toList ++ issuerSignatureMldsa65.toList)

theorem issuedWritten : issued.linkBytes = .ok issuedBytes := rfl

theorem issuedLong : issuedBytes ≠ issuedLink.toList := by
  intro same
  have widths := congrArg List.length same
  simp [issuedBytes] at widths

theorem payloadsDiffer : issuedPayload ≠ shownPayload := by
  intro same
  have shown : (SignedObject.disclosure shownFields).payload = .ok issuedPayload := same ▸ shownEncoded
  have receipt : (SignedObject.receipt issuedFields).payload = .ok issuedPayload := issuedEncoded
  cases payloadsSeparate shown receipt

theorem shownSha (bytes : Bytes) :
    shownCrypto.sha256 bytes = if bytes = issuedLink.toList then shownHash else issuedLink := rfl

theorem shownLink : receiptChainLinkHash shownCrypto issued = .ok issuedLink :=
  linkHashOk.mpr ⟨issuedBytes, issuedWritten, by rw [shownSha, if_neg issuedLong]⟩

theorem shownHashed : disclosedChainHash shownCrypto [issued] = .ok shownHash := by
  simp [disclosedChainHash, shownLink, shownSha, bind, Except.bind, pure, Except.pure]

theorem shownDistinct : issuerKey ≠ holderKey ∧ holderSignature ≠ issuerSignature ∧ issuedLink ≠ shownHash ∧
    (Vector.replicate 32 0x71 : RoomId) ≠ shownFields.roomId ∧
    (Vector.replicate 32 0x72 : Ed25519PublicKey) ≠ shownFields.recipientEphemeralKey := by
  decide +kernel

theorem shownSigned : shownCrypto.ed25519.sign (Vector.replicate 32 4) [] shownPayload = .ok holderSignature := by
  have keys := shownDistinct.1
  rw [shownEd25519]
  exact tableSigns _ _ (if_pos rfl) (.inl keys)

theorem shownSignedMldsa65 :
    shownCrypto.mldsa65.sign (Vector.replicate 32 5) [] shownPayload = .ok holderSignatureMldsa65 := by
  rw [shownMldsa65]
  have key : (fun _ : MlDsa65PrivateSeed => issuerKeyMldsa65) (Vector.replicate 32 5) = issuerKeyMldsa65 := rfl
  apply tableSigns (fun _ : MlDsa65PrivateSeed => issuerKeyMldsa65) (Vector.replicate 32 5) key
  exact .inr payloadsDiffer

theorem shownHonest : HonestDisclosure shownCrypto (Vector.replicate 32 4) (Vector.replicate 32 5) [issued] shownFields
    holderSignature holderSignatureMldsa65 :=
  ⟨shownHashed, ⟨[], bind_ok.mpr ⟨shownPayload, shownEncoded, shownSigned⟩⟩,
    ⟨[], bind_ok.mpr ⟨shownPayload, shownEncoded, shownSignedMldsa65⟩⟩⟩

theorem shownBound : shownCrypto.ed25519.Binds (shownCrypto.ed25519.publicKey (Vector.replicate 32 4)) shownPayload
    holderSignature := by
  have signatures := shownDistinct.2.1
  rw [(Prod.mk.inj shownSigner).1]
  intro key message verified
  rw [shownEd25519, tableVerifies] at verified
  simpa [signatures] using verified

theorem shownBoundMldsa65 : shownCrypto.mldsa65.Binds (shownCrypto.mldsa65.publicKey (Vector.replicate 32 5)) shownPayload
    holderSignatureMldsa65 := by
  have signatures : holderSignatureMldsa65 ≠ issuerSignatureMldsa65 := by
    intro same
    have first := congrArg (fun signature => signature[0]) same
    rw [holderSignatureMldsa65, issuerSignatureMldsa65] at first
    simp only [wordsAt] at first
    revert first
    decide +kernel
  rw [(Prod.mk.inj shownSigner).2]
  intro key message verified
  rw [shownMldsa65, tableVerifies] at verified
  simpa [signatures] using verified

theorem shownInjective :
    Set.InjOn shownCrypto.sha256 (hashedFor shownCrypto [issued] ∪ hashedFor shownCrypto [issued]) := by
  have two : ∀ bytes ∈ hashedFor shownCrypto [issued], bytes = issuedBytes ∨ bytes = issuedLink.toList := by
    intro bytes mem
    cases mem with
    | inl receipt =>
        obtain ⟨r, shown, written⟩ := receipt
        obtain rfl := List.mem_singleton.mp shown
        exact .inl (Except.ok.inj (written.symm.trans issuedWritten))
    | inr whole =>
        obtain ⟨links, linked, same⟩ := whole
        simp [shownLink, bind, Except.bind, pure, Except.pure] at linked
        exact .inr (by simp [same, ← linked])
  have digests := shownDistinct.2.2.1
  rw [Set.union_self]
  intro a memA b memB same
  cases two a memA with
  | inl isA => cases two b memB with
    | inl isB => exact isA.trans isB.symm
    | inr isB => simp [isA, isB, shownSha, issuedLong, digests] at same
  | inr isA => cases two b memB with
    | inl isB => simp [isA, isB, shownSha, issuedLong, digests.symm] at same
    | inr isB => exact isA.trans isB.symm

theorem shownChained : ReceiptChain shownCrypto IssuedReceipt.mediatorKeys [issued] := by
  have signed : shownCrypto.ed25519.verify issuerKey issuedPayload issuerSignature = .ok true := by
    rw [shownEd25519, tableVerifies]
    exact List.mem_cons_self
  have signedMldsa65 : shownCrypto.mldsa65.verify issuerKeyMldsa65 issuedPayload issuerSignatureMldsa65 = .ok true := by
    rw [shownMldsa65, tableVerifies]
    exact List.mem_cons_self
  have verified : verifyReceiptHybrid shownCrypto issuerKey issuerKeyMldsa65 issued = .ok true :=
    verifyReceiptHybridOk.mpr ⟨bind_ok.mpr ⟨issuedPayload, issuedEncoded, signed⟩,
      bind_ok.mpr ⟨issuedPayload, issuedEncoded, signedMldsa65⟩⟩
  exact ⟨by simp, List.forall_mem_singleton.mpr verified, by simp [sharesRefl],
    by simp [issued, issuedFields, ReceiptStage.toByte], by simp, by simp [issued, issuedFields], by simp⟩

theorem shownOnlyThere :
    verifyDisclosureBundle shownCrypto [issued] shownFields holderSignature holderSignatureMldsa65
      (Vector.replicate 32 0x61) (Vector.replicate 32 0x62) = .ok none ∧
    verifyDisclosureBundle shownCrypto [issued] shownFields holderSignature holderSignatureMldsa65
      (Vector.replicate 32 0x71) (Vector.replicate 32 0x62) ≠ .ok none ∧
    verifyDisclosureBundle shownCrypto [issued] shownFields holderSignature holderSignatureMldsa65
      (Vector.replicate 32 0x61) (Vector.replicate 32 0x72) ≠ .ok none := by
  have correct : shownCrypto.Correct := by
    refine ⟨?_, ?_⟩
    · rw [shownEd25519]
      exact tableCorrect
    · rw [shownMldsa65]
      exact tableCorrect
  have decides : shownCrypto.ed25519.Decides := by
    rw [shownEd25519]
    exact tableDecides
  have decidesMldsa65 : shownCrypto.mldsa65.Decides := by
    rw [shownMldsa65]
    exact tableDecides
  have decided := fun room recipient => disclosureBound correct decides decidesMldsa65 shownHonest shownEncoded
    shownBound shownBoundMldsa65 [issued] shownFields room recipient shownInjective
  obtain ⟨_, _, _, rooms, recipients⟩ := shownDistinct
  refine ⟨(decided _ _).mpr ⟨rfl, rfl, rfl, rfl, shownChained, issued, rfl, ?_⟩,
    fun accepted => rooms ((decided _ _).mp accepted).2.2.1,
    fun accepted => recipients ((decided _ _).mp accepted).2.2.2.1⟩
  rw [shownSigner]
  exact List.mem_cons_self

end Shown
end TradeP2P
