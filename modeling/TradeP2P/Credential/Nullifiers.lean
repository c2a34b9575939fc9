import TradeP2P.Blind.Presentation
import TradeP2P.Lib.Fields

/-! The nullifier of a credential in a presentation scope, and the tracker that counts the credentials
presented there. -/
namespace TradeP2P.Credential
open Wire (Bytes ascii bigEndian)
open Checks
open Prover (Hashes)

structure PresentationContext where
  roomId : Bytes
  verifierIdentity : Bytes
  challenge : Bytes
  deriving DecidableEq, Repr

-- The length of a field is cut to 32 bits before it is written.
def encodeU32 (length : Nat) : Bytes := bigEndian 4 (UInt32.ofNat length).toNat

def PresentationContext.encode (context : PresentationContext) : Bytes :=
  encodeU32 context.roomId.length ++ (context.roomId ++
    (encodeU32 context.verifierIdentity.length ++ (context.verifierIdentity ++
      (encodeU32 context.challenge.length ++ context.challenge))))

def encodePresentationContext (context : PresentationContext) : Bytes := context.encode

def verifyNullifier (hashes : Hashes) (serial : CredentialSerial) (claimedNullifier : Nullifier) (issuerScope : UInt8)
    (epoch : UInt32) (context : PresentationContext) : Except Error Bool := do
  let scopeBytes := encodePresentationContext context
  let expectedNullifier ← deriveNullifier hashes serial issuerScope epoch scopeBytes
  return (List.finRange 32).foldl (fun isSame i => if claimedNullifier[i] != expectedNullifier[i] then false else isSame) true

/- The nullifiers seen in one verification session. -/
structure NullifierTracker where
  seen : Finset Nullifier := ∅
  deriving DecidableEq

namespace NullifierTracker

def hasBeenSeen (tracker : NullifierTracker) (nullifier : Nullifier) : Bool := decide (nullifier ∈ tracker.seen)

def recordNullifier (tracker : NullifierTracker) (nullifier : Nullifier) : Bool × NullifierTracker :=
  (!tracker.hasBeenSeen nullifier, ⟨insert nullifier tracker.seen⟩)

def reset (_ : NullifierTracker) : NullifierTracker := {}

def count (tracker : NullifierTracker) : Nat := tracker.seen.card

inductive Call where
  | recordNullifier (nullifier : Nullifier)
  | hasBeenSeen (nullifier : Nullifier)
  | reset
  | count
  deriving DecidableEq

/- A session as its caller keeps it: what it presented since the last reset, and how often it was told
that a nullifier is new. -/
structure Session where
  tracker : NullifierTracker := {}
  presented : List Nullifier := []
  accepted : Nat := 0

def Session.step (session : Session) : Call → Session
  | .recordNullifier nullifier =>
      let (first, tracker) := session.tracker.recordNullifier nullifier
      ⟨tracker, session.presented ++ [nullifier], session.accepted + if first then 1 else 0⟩
  | .hasBeenSeen _ => session
  | .reset => ⟨session.tracker.reset, [], 0⟩
  | .count => session

def Session.run (calls : List Call) : Session := calls.foldl Session.step {}

end NullifierTracker

/-! What is hashed determines the six values. -/

namespace PresentationContext

/- The whole scope has a length of its own in 32 bits, which its fields then have too. -/
def Fits (context : PresentationContext) : Prop := context.encode.length ≤ 4294967295

theorem encodeLength (context : PresentationContext) : context.encode.length =
    12 + context.roomId.length + context.verifierIdentity.length + context.challenge.length := by
  simp only [encode, encodeU32, List.length_append, Wire.bigEndianLength]
  omega

theorem encodeU32Small {length : Nat} (small : length < 256 ^ 4) : encodeU32 length = bigEndian 4 length := by
  rw [encodeU32, UInt32.toNat_ofNat_of_lt' small]

theorem encodeInjective {a b : PresentationContext} (fitsA : a.Fits) (fitsB : b.Fits) : a.encode = b.encode ↔ a = b := by
  constructor
  · intro same
    rw [Fits, encodeLength] at fitsA fitsB
    rw [encode, encode, encodeU32Small (by omega), encodeU32Small (by omega), encodeU32Small (by omega), encodeU32Small (by omega),
      encodeU32Small (by omega), encodeU32Small (by omega)] at same
    obtain ⟨rooms, same⟩ := (Wire.prefixed32Front (by omega) (by omega)).mp same
    obtain ⟨verifiers, same⟩ := (Wire.prefixed32Front (by omega) (by omega)).mp same
    have challenges : a.challenge = b.challenge := (List.append_inj same (by simp)).2
    cases a
    cases b
    cases rooms
    cases verifiers
    cases challenges
    rfl
  · intro same
    rw [same]

end PresentationContext

/- A serial with the scope it is presented in. -/
structure Presented where
  serial : CredentialSerial
  issuerScope : UInt8
  epoch : UInt32
  context : PresentationContext
  deriving DecidableEq

namespace Presented

def hashedBytes (presented : Presented) : Bytes :=
  ascii "TRADEP2P-Q7933-CREDENTIAL-NULLIFIER-v1" ++ ([presented.issuerScope] ++ (bigEndian 4 presented.epoch.toNat ++
    (bigEndian 4 presented.context.encode.length ++ (presented.context.encode ++ presented.serial.toList))))

def nullifier (hashes : Hashes) (presented : Presented) : Except Error Nullifier :=
  deriveNullifier hashes presented.serial presented.issuerScope presented.epoch (encodePresentationContext presented.context)

def verify (hashes : Hashes) (presented : Presented) (claimedNullifier : Nullifier) : Except Error Bool :=
  verifyNullifier hashes presented.serial claimedNullifier presented.issuerScope presented.epoch presented.context

theorem hashedBytesInjective {a b : Presented} (fitsA : a.context.Fits) (fitsB : b.context.Fits)
    (same : a.hashedBytes = b.hashedBytes) : a = b := by
  have shortA : a.context.encode.length < 256 ^ 4 := Nat.lt_succ_of_le fitsA
  have shortB : b.context.encode.length < 256 ^ 4 := Nat.lt_succ_of_le fitsB
  rw [hashedBytes, hashedBytes, List.append_cancel_left_eq] at same
  obtain ⟨issuers, rest⟩ := List.append_inj same (by simp)
  obtain ⟨epochs, rest⟩ := Wire.u32Front.mp rest
  obtain ⟨contexts, serials⟩ := (Wire.prefixed32Front shortA shortB).mp rest
  cases a
  cases b
  cases List.singleton_inj.mp issuers
  cases epochs
  cases (PresentationContext.encodeInjective fitsA fitsB).mp contexts
  cases Vector.toList_inj.mp serials
  rfl

variable {hashes : Hashes}

theorem nullifierDerived {presented : Presented} (fits : presented.context.Fits) :
    presented.nullifier hashes = .ok (hashes.sha256 presented.hashedBytes) := by
  have short : ¬(encodePresentationContext presented.context).length > 4294967295 := Nat.not_lt_of_le fits
  rw [nullifier, deriveNullifier, throwIf_not short]
  rfl

theorem compared (a b : Nullifier) :
    (List.finRange 32).foldl (fun isSame i => if a[i] != b[i] then false else isSame) true = decide (a = b) := by
  have folded (places : List (Fin 32)) (isSame : Bool) :
      places.foldl (fun isSame i => if a[i] != b[i] then false else isSame) isSame = (isSame && places.all fun i => a[i] == b[i]) := by
    induction places generalizing isSame with
    | nil => simp
    | cons i rest ih =>
        rw [List.foldl_cons, ih, List.all_cons]
        cases same : a[i] == b[i] with
        | true => rw [bne, same, Bool.true_and]; rfl
        | false => rw [bne, same, Bool.false_and, Bool.and_false]; rfl
  rw [folded, Bool.true_and, Bool.eq_iff_iff, List.all_eq_true, decide_eq_true_eq]
  constructor
  · intro each
    refine Vector.ext fun i bound => ?_
    exact beq_iff_eq.mp (each ⟨i, bound⟩ (List.mem_finRange _))
  · intro same i _
    rw [same, beq_self_eq_true]

theorem verifyCompares {presented : Presented} (fits : presented.context.Fits) (claimedNullifier : Nullifier) :
    presented.verify hashes claimedNullifier = .ok (decide (claimedNullifier = hashes.sha256 presented.hashedBytes)) := by
  have derived : presented.nullifier hashes = .ok (hashes.sha256 presented.hashedBytes) := nullifierDerived fits
  rw [verify, verifyNullifier]
  change (presented.nullifier hashes >>= _) = _
  rw [derived]
  exact congrArg Except.ok (compared ..)

end Presented

/-! The tracker counts the different nullifiers of a session. -/

namespace NullifierTracker

structure Session.Counts (session : Session) : Prop where
  seen : session.tracker.seen = session.presented.toFinset
  accepted : session.accepted = session.presented.toFinset.card

theorem Session.Counts.step {session : Session} (counts : session.Counts) (call : Call) : (session.step call).Counts := by
  cases call with
  | hasBeenSeen => exact counts
  | count => exact counts
  | reset => exact ⟨rfl, rfl⟩
  | recordNullifier nullifier =>
      have presented : (session.presented ++ [nullifier]).toFinset = insert nullifier session.presented.toFinset := by
        rw [List.toFinset_append, Finset.union_comm]
        rfl
      refine ⟨(congrArg (insert nullifier) counts.seen).trans presented.symm, ?_⟩
      simp only [Session.step, recordNullifier, hasBeenSeen, counts.seen, counts.accepted, presented]
      by_cases old : nullifier ∈ session.presented.toFinset
      · simp [old]
      · simp [old, Finset.card_insert_of_notMem old]

theorem Session.runCounts (calls : List Call) : (Session.run calls).Counts := by
  have kept (session : Session) (counts : session.Counts) : (calls.foldl Session.step session).Counts := by
    induction calls generalizing session with
    | nil => exact counts
    | cons call later ih => exact ih _ (counts.step call)
  exact kept {} ⟨rfl, rfl⟩

theorem distinctSerials {digest : CredentialSerial → Nullifier} {serials : List CredentialSerial}
    (different : ∀ a ∈ serials, ∀ b ∈ serials, digest a = digest b → a = b) :
    (serials.map digest).toFinset.card = serials.toFinset.card := by
  have images : (serials.map digest).toFinset = serials.toFinset.image digest := by
    ext nullifier
    simp
  rw [images]
  refine Finset.card_image_of_injOn fun a memA b memB same => ?_
  exact different a (by simpa using memA) b (by simpa using memB) same

end NullifierTracker

theorem nullifiersScoped (hashes : Hashes) (hashed : Set Bytes) (collisionFree : Set.InjOn hashes.sha256 hashed) :
    (∀ a : Presented, a.context.Fits → ∃ nullifier, a.nullifier hashes = .ok nullifier) ∧
    (∀ a b : Presented, a.context.Fits → b.context.Fits → a.hashedBytes ∈ hashed → b.hashedBytes ∈ hashed →
      (a.nullifier hashes = b.nullifier hashes ↔ a = b)) ∧
    (∀ a : Presented, a.context.Fits → ∀ claimed, (a.verify hashes claimed = .ok true ↔ a.nullifier hashes = .ok claimed) ∧
      (a.verify hashes claimed = .ok true ∨ a.verify hashes claimed = .ok false)) ∧
    (∀ a b : Presented, a.context.Fits → b.context.Fits → a.hashedBytes ∈ hashed → b.hashedBytes ∈ hashed →
      ∀ claimed, b.nullifier hashes = .ok claimed → (a.verify hashes claimed = .ok true ↔ a = b)) ∧
    (∀ (issuerScope : UInt8) (epoch : UInt32) (context : PresentationContext), context.Fits →
      ∀ serials : List CredentialSerial, (∀ serial ∈ serials, Presented.hashedBytes ⟨serial, issuerScope, epoch, context⟩ ∈ hashed) →
      ∀ calls : List NullifierTracker.Call,
        (NullifierTracker.Session.run calls).presented.map Except.ok =
          serials.map (fun serial => Presented.nullifier hashes ⟨serial, issuerScope, epoch, context⟩) →
        (NullifierTracker.Session.run calls).accepted = serials.toFinset.card ∧
          (NullifierTracker.Session.run calls).tracker.count = serials.toFinset.card) := by
  have derived (a : Presented) (fits : a.context.Fits) : a.nullifier hashes = .ok (hashes.sha256 a.hashedBytes) :=
    Presented.nullifierDerived fits
  have equal (a b : Presented) (fitsA : a.context.Fits) (fitsB : b.context.Fits) (memA : a.hashedBytes ∈ hashed)
      (memB : b.hashedBytes ∈ hashed) : hashes.sha256 a.hashedBytes = hashes.sha256 b.hashedBytes ↔ a = b := by
    constructor
    · intro same
      exact Presented.hashedBytesInjective fitsA fitsB (collisionFree memA memB same)
    · intro same
      rw [same]
  refine ⟨fun a fits => ⟨_, derived a fits⟩, fun a b fitsA fitsB memA memB => ?_, fun a fits claimed => ?_,
    fun a b fitsA fitsB memA memB claimed from_ => ?_, fun issuerScope epoch context fits serials mem calls presents => ?_⟩
  · rw [derived a fitsA, derived b fitsB, Except.ok.injEq]
    exact equal a b fitsA fitsB memA memB
  · rw [Presented.verifyCompares fits, derived a fits, Except.ok.injEq, Except.ok.injEq, Except.ok.injEq, decide_eq_true_eq,
      decide_eq_false_iff_not]
    exact ⟨eq_comm, Decidable.em _⟩
  · rw [derived b fitsB, Except.ok.injEq] at from_
    rw [Presented.verifyCompares fitsA, Except.ok.injEq, decide_eq_true_eq, ← from_, eq_comm]
    exact equal a b fitsA fitsB memA memB
  · have counts := NullifierTracker.Session.runCounts calls
    have recorded : (NullifierTracker.Session.run calls).presented =
        serials.map fun serial => hashes.sha256 (Presented.hashedBytes ⟨serial, issuerScope, epoch, context⟩) := by
      refine List.map_injective_iff.mpr (fun _ _ => Except.ok.inj) (presents.trans ?_)
      rw [List.map_map]
      exact List.map_congr_left fun serial _ => derived ⟨serial, issuerScope, epoch, context⟩ fits
    have distinct := NullifierTracker.distinctSerials fun a memA b memB same =>
      congrArg Presented.serial ((equal ⟨a, issuerScope, epoch, context⟩ ⟨b, issuerScope, epoch, context⟩ fits fits
        (mem a memA) (mem b memB)).mp same)
    rw [← recorded] at distinct
    exact ⟨counts.accepted.trans distinct, (congrArg Finset.card counts.seen).trans distinct⟩

/- Two credentials in one scope, the first one presented twice. -/
def scopeOfTwo : PresentationContext := ⟨List.replicate 32 7, ascii "verifier", []⟩
def presentedFirst : Presented := ⟨Vector.replicate 32 1, 0, 0, scopeOfTwo⟩
def presentedSecond : Presented := ⟨Vector.replicate 32 2, 0, 0, scopeOfTwo⟩

theorem digestsDiffer : Prover.standardHashes.sha256 presentedFirst.hashedBytes ≠ Prover.standardHashes.sha256 presentedSecond.hashedBytes := by
  decide +kernel

theorem twoOfThreeAccepted :
    presentedFirst.nullifier Prover.standardHashes ≠ presentedSecond.nullifier Prover.standardHashes ∧
    (NullifierTracker.Session.run [.recordNullifier (Prover.standardHashes.sha256 presentedFirst.hashedBytes),
      .recordNullifier (Prover.standardHashes.sha256 presentedSecond.hashedBytes),
      .recordNullifier (Prover.standardHashes.sha256 presentedFirst.hashedBytes)]).accepted = 2 := by
  have collisionFree : Set.InjOn Prover.standardHashes.sha256 {presentedFirst.hashedBytes, presentedSecond.hashedBytes} := by
    rw [Set.injOn_pair]
    intro same
    exact absurd same digestsDiffer
  have fits : scopeOfTwo.Fits := by
    rw [PresentationContext.Fits, PresentationContext.encodeLength]
    decide
  have first : presentedFirst.hashedBytes ∈ ({presentedFirst.hashedBytes, presentedSecond.hashedBytes} : Set Bytes) := .inl rfl
  have second : presentedSecond.hashedBytes ∈ ({presentedFirst.hashedBytes, presentedSecond.hashedBytes} : Set Bytes) := .inr rfl
  obtain ⟨_, equal, _, _, counted⟩ := nullifiersScoped Prover.standardHashes _ collisionFree
  constructor
  · rw [Ne, equal presentedFirst presentedSecond fits fits first second]
    decide
  · refine (counted 0 0 scopeOfTwo fits [presentedFirst.serial, presentedSecond.serial, presentedFirst.serial] ?_ _ ?_).1
    · intro serial mem
      simp only [List.mem_cons, List.not_mem_nil, or_false] at mem
      rcases mem with rfl | rfl | rfl
      · exact first
      · exact second
      · exact first
    · have derived (presented : Presented) (same : presented.context = scopeOfTwo) : .ok (Prover.standardHashes.sha256 presented.hashedBytes) =
          presented.nullifier Prover.standardHashes := (Presented.nullifierDerived (same ▸ fits)).symm
      exact congrArg₂ List.cons (derived presentedFirst rfl) (congrArg₂ List.cons (derived presentedSecond rfl)
        (congrArg₂ List.cons (derived presentedFirst rfl) rfl))

end TradeP2P.Credential
