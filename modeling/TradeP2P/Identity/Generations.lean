import Mathlib.Data.List.Infix
import TradeP2P.Identity.LifeCycle

/-! Runs of a keystore. While each rotation is made by an object that is up to date with the file, the
generation in the file is the number of rotations, whoever made them. -/
namespace TradeP2P
open Wire (Bytes ascii bigEndian prefixed)
open Checks Machine KeystoreCodec
open Aead (Sealed)

namespace IdentityKeystore

/-! What a run has made of the file: whose it is, its passphrase, and how often it was rotated. -/

structure Ledger where
  masterSecret : MasterSecret
  identityId : IdentityId
  aliasName : Bytes
  createdAt : UInt64
  passphrase : Bytes
  rotations : Nat
  deriving DecidableEq, Repr

-- What a call that returns adds to the ledger.
def Ledger.after (ledger : Option Ledger) (call : Call) : Option Ledger := match call.action, call.env.masterSecret, call.env.identityId with
  | .create passphrase aliasName, .ok masterSecret, .ok identityId =>
      some ⟨masterSecret, identityId, aliasName, call.env.nowUnixSeconds, passphrase, 0⟩
  | .create _ _, _, _ => ledger
  | .unlock _, _, _ => ledger
  | .changePassphrase _ newPassphrase, _, _ => ledger.map fun held => { held with passphrase := newPassphrase }
  | .rotateServiceScopedKey _ _, _, _ => ledger.map fun held => { held with rotations := held.rotations + 1 }
  | .lock _, _, _ => ledger

section Runs
variable (library : KeystoreLibrary) (path : String)

def run (calls : List Call) : KeystoreWorld := exec (perform library path) {} calls

def ledger (calls : List Call) : Option Ledger :=
  (log (perform library path) {} calls).foldl (fun ledger event => Ledger.after ledger event.call) none

theorem runSnoc (calls : List Call) (call : Call) :
    run library path (calls ++ [call]) = next (perform library path) (run library path calls) call := exec_snoc _ _ _

theorem ledgerSnoc (calls : List Call) (call : Call) : ledger library path (calls ++ [call]) =
    if accepted (perform library path) (run library path calls) call then Ledger.after (ledger library path calls) call
    else ledger library path calls := by
  unfold ledger run
  rw [log_append, log_single, List.foldl_append]
  split <;> rfl

end Runs

/-! The invariant. -/

structure Named (held : Ledger) (header : Header) : Prop where
  identityId : header.identityId = held.identityId
  aliasName : header.aliasName = held.aliasName
  createdAt : header.createdAt = held.createdAt

structure Of (held : Ledger) (object : IdentityKeystore) : Prop where
  named : Named held object.header
  secret : ∀ masterSecret, object.masterSecret = some masterSecret → masterSecret = held.masterSecret

structure KeptFile (library : KeystoreLibrary) (held : Ledger) (s : KeystoreWorld) : Prop where
  file : ∃ raw header, s.file = some raw ∧ Named held header ∧
    Holds library raw header held.passphrase (UInt32.ofNat held.rotations) held.masterSecret
  few : held.rotations < 2 ^ 32
  objects : ∀ object ∈ s.objects, Of held object

structure Kept (library : KeystoreLibrary) (ledger : Option Ledger) (s : KeystoreWorld) : Prop where
  before : ledger = none → s = {}
  held : ∀ held, ledger = some held → KeptFile library held s

/- The same keystore, later. -/
structure Continues (earlier later : Ledger) : Prop where
  masterSecret : later.masterSecret = earlier.masterSecret
  identityId : later.identityId = earlier.identityId
  aliasName : later.aliasName = earlier.aliasName
  createdAt : later.createdAt = earlier.createdAt
  rotations : earlier.rotations ≤ later.rotations

theorem Continues.refl (held : Ledger) : Continues held held := ⟨rfl, rfl, rfl, rfl, Nat.le_refl _⟩

theorem Continues.trans {a b c : Ledger} (first : Continues a b) (second : Continues b c) : Continues a c :=
  ⟨second.masterSecret.trans first.masterSecret, second.identityId.trans first.identityId, second.aliasName.trans first.aliasName,
    second.createdAt.trans first.createdAt, first.rotations.trans second.rotations⟩

section Step
variable {library : KeystoreLibrary} {path : String} {ledger : Option Ledger} {s t : KeystoreWorld} {call : Call}

theorem keptCreate (kept : Kept library ledger s) {passphrase aliasName : Bytes} (action : call.action = .create passphrase aliasName)
    {object : IdentityKeystore} {u : KeystoreWorld} (ran : create library path call.env passphrase aliasName s = .ok object u) :
    ledger = none ∧ Kept library (Ledger.after ledger call) { u with objects := u.objects ++ [object] } := by
  have spec := ensuresCreate library path call.env s passphrase aliasName
  unfold Ensures at spec
  rw [ran] at spec
  obtain ⟨identityId, masterSecret, drawn, generated, absent, unlocked, id, named, created, raw, rfl, holds⟩ := spec
  have none : ledger = none := by
    cases start : ledger with
    | none => rfl
    | some held =>
        obtain ⟨raw, _, there, _⟩ := (kept.held held start).file
        rw [absent] at there
        contradiction
  obtain rfl := kept.before none
  refine ⟨none, ?_, ?_⟩
  · simp [Ledger.after, action, drawn, generated]
  · intro held same
    simp only [Ledger.after, action, drawn, generated, Option.some.injEq] at same
    subst same
    have new : Named ⟨masterSecret, identityId, aliasName, call.env.nowUnixSeconds, passphrase, 0⟩ object.header := ⟨id, named, created⟩
    refine ⟨⟨raw, object.header, rfl, new, holds⟩, Nat.two_pow_pos 32, ?_⟩
    intro other mem
    obtain rfl := List.mem_singleton.mp mem
    exact ⟨new, fun secret same => Option.some.inj (same.symm.trans unlocked)⟩

/- A load that returned has found the keystore of the ledger, under its passphrase. -/
theorem keptLoad (faithful : library.cipher.Faithful) (kept : Kept library ledger s)
    (unforgeable : ∀ held raw, ledger = some held → s.file = some raw → Unforgeable library held.passphrase raw)
    {env : KeystoreEnv} {passphrase : Bytes} {object : IdentityKeystore} {u : KeystoreWorld}
    (ran : load library path env passphrase s = .ok object u) :
    u = s ∧ ∃ held, ledger = some held ∧ passphrase = held.passphrase ∧ Named held object.header ∧
      object.keyGeneration = UInt32.ofNat held.rotations ∧ object.masterSecret = some held.masterSecret := by
  cases start : ledger with
  | none =>
      obtain rfl := kept.before start
      obtain ⟨e, missing⟩ := loadMissing library path env passphrase (rfl : (KeystoreWorld.mk none []).file = none)
      rw [missing] at ran
      contradiction
  | some held =>
      obtain ⟨raw, header, there, named, holds⟩ := (kept.held held start).file
      obtain ⟨same, keeps, rfl⟩ := loadReturns faithful holds (unforgeable held raw start there) there ran
      exact ⟨keeps, held, rfl, same, named, rfl, rfl⟩

theorem ofObject {held : Ledger} {object : IdentityKeystore} (named : Named held object.header)
    (secret : object.masterSecret = some held.masterSecret) : Of held object :=
  ⟨named, fun _ same => Option.some.inj (same.symm.trans secret)⟩

theorem Of.same {held later : Ledger} {object : IdentityKeystore} (of : Of held object) (same : Continues held later) :
    Of later object :=
  ⟨⟨of.named.identityId.trans same.identityId.symm, of.named.aliasName.trans same.aliasName.symm,
    of.named.createdAt.trans same.createdAt.symm⟩, fun masterSecret found => (of.secret masterSecret found).trans same.masterSecret.symm⟩

theorem SameIdentity.named {held : Ledger} {a b : Header} (same : SameIdentity a b) (named : Named held b) : Named held a :=
  ⟨same.identityId.trans named.identityId, same.aliasName.trans named.aliasName, same.createdAt.trans named.createdAt⟩

/- The rotations that count are made by objects whose generation is that of the file. -/
def UpToDate (ledger : Option Ledger) (s : KeystoreWorld) (call : Call) : Prop :=
  ∀ place passphrase held object, call.action = .rotateServiceScopedKey place passphrase → ledger = some held →
    passphrase = held.passphrase → s.objects[place]? = some object →
    object.keyGeneration.toNat = held.rotations ∧ held.rotations + 1 < 2 ^ 32

theorem keptSome {held : Ledger} (file : KeptFile library held s) : Kept library (some held) s where
  before := by simp
  held := by
    intro other same
    obtain rfl := Option.some.inj same
    exact file

/- What a call that returned leaves behind. -/
def Leaves (library : KeystoreLibrary) (ledger : Option Ledger) (call : Call) (t : KeystoreWorld) : Prop :=
  Kept library (Ledger.after ledger call) t ∧
    ∀ held, ledger = some held → ∃ later, Ledger.after ledger call = some later ∧ Continues held later

theorem keptUnchanged {held : Ledger} (file : KeptFile library held s) (same : Ledger.after (some held) call = some held) :
    Leaves library (some held) call s := by
  rw [Leaves, same]
  exact ⟨keptSome file, fun other start => ⟨other, start, .refl other⟩⟩

theorem keptUnlock (faithful : library.cipher.Faithful) (kept : Kept library ledger s)
    (unforgeable : ∀ held raw, ledger = some held → s.file = some raw → Unforgeable library held.passphrase raw)
    {passphrase : Bytes} (action : call.action = .unlock passphrase) {object : IdentityKeystore} {u : KeystoreWorld}
    (ran : load library path call.env passphrase s = .ok object u) :
    Leaves library ledger call { u with objects := u.objects ++ [object] } := by
  obtain ⟨rfl, held, rfl, _, named, _, secret⟩ := keptLoad faithful kept unforgeable ran
  have file := kept.held held rfl
  refine keptUnchanged ⟨file.file, file.few, fun other mem => ?_⟩ (by simp [Ledger.after, action])
  rcases List.mem_append.mp mem with old | new
  · exact file.objects other old
  · rw [List.mem_singleton.mp new]
    exact ofObject named secret

theorem keptChange (faithful : library.cipher.Faithful) (kept : Kept library ledger s)
    (unforgeable : ∀ held raw, ledger = some held → s.file = some raw → Unforgeable library held.passphrase raw)
    {oldPassphrase newPassphrase : Bytes} (action : call.action = .changePassphrase oldPassphrase newPassphrase)
    (ran : changePassphrase library path call.env oldPassphrase newPassphrase s = .ok () t) : Leaves library ledger call t := by
  have spec := ensuresChange library path call.env s oldPassphrase newPassphrase
  unfold Ensures at spec
  rw [ran] at spec
  obtain ⟨existing, masterSecret, header, loaded, unlocked, identity, raw, rfl, holds⟩ := spec
  obtain ⟨_, held, rfl, _, named, generation, secret⟩ := keptLoad faithful kept unforgeable loaded
  obtain rfl := Option.some.inj (unlocked.symm.trans secret)
  have file := kept.held held rfl
  have changed : Ledger.after (some held) call = some { held with passphrase := newPassphrase } := by simp [Ledger.after, action]
  have later : Continues held { held with passphrase := newPassphrase } := ⟨rfl, rfl, rfl, rfl, Nat.le_refl _⟩
  rw [generation] at holds
  rw [Leaves, changed]
  refine ⟨keptSome ⟨⟨raw, header, rfl, ?_, holds⟩, file.few, fun object mem => (file.objects object mem).same later⟩, ?_⟩
  · exact ⟨(identity.named named).identityId, (identity.named named).aliasName, (identity.named named).createdAt⟩
  · intro other start
    obtain rfl := Option.some.inj start
    exact ⟨_, rfl, later⟩

theorem keptRotate (faithful : library.cipher.Faithful) (kept : Kept library ledger s)
    (unforgeable : ∀ held raw, ledger = some held → s.file = some raw → Unforgeable library held.passphrase raw)
    (current : UpToDate ledger s call) {place : Nat} {passphrase : Bytes}
    (action : call.action = .rotateServiceScopedKey place passphrase) {object rebuilt : IdentityKeystore} {u : KeystoreWorld}
    (there : s.objects[place]? = some object)
    (ran : rotateServiceScopedKey library path call.env object passphrase s = .ok rebuilt u) :
    Leaves library ledger call { u with objects := u.objects.set place rebuilt } := by
  have spec := ensuresRotate library path call.env s object passphrase
  unfold Ensures at spec
  rw [ran] at spec
  obtain ⟨masterSecret, loaded, unlocked, opens, rebuiltSecret, identity, raw, rfl, holds⟩ := spec
  obtain ⟨_, held, rfl, rfl, _⟩ := keptLoad faithful kept unforgeable opens
  have file := kept.held held rfl
  have of := file.objects object (List.mem_of_getElem? there)
  obtain rfl := of.secret masterSecret unlocked
  obtain ⟨same, few⟩ := current place held.passphrase held object action rfl rfl there
  have rotated : Ledger.after (some held) call = some { held with rotations := held.rotations + 1 } := by simp [Ledger.after, action]
  have later : Continues held { held with rotations := held.rotations + 1 } := ⟨rfl, rfl, rfl, rfl, Nat.le_succ _⟩
  have counted : object.keyGeneration + 1 = UInt32.ofNat (held.rotations + 1) := by
    rw [← same, UInt32.ofNat_add, UInt32.ofNat_toNat]
    rfl
  rw [counted] at holds
  have named : Named { held with rotations := held.rotations + 1 } rebuilt.header :=
    ⟨(identity.named of.named).identityId, (identity.named of.named).aliasName, (identity.named of.named).createdAt⟩
  rw [Leaves, rotated]
  refine ⟨keptSome ⟨⟨raw, rebuilt.header, rfl, named, holds⟩, few, ?_⟩, ?_⟩
  · intro other mem
    rcases List.mem_or_eq_of_mem_set mem with old | rfl
    · exact (file.objects other old).same later
    · exact ofObject named rebuiltSecret
  · intro other start
    obtain rfl := Option.some.inj start
    exact ⟨_, rfl, later⟩

theorem keptLock (kept : Kept library ledger s) {place : Nat} (action : call.action = .lock place) {object : IdentityKeystore}
    (there : s.objects[place]? = some object) : Leaves library ledger call { s with objects := s.objects.set place object.lock } := by
  cases start : ledger with
  | none =>
      obtain rfl := kept.before start
      simp at there
  | some held =>
      have file := kept.held held start
      refine keptUnchanged ⟨file.file, file.few, fun other mem => ?_⟩ (by simp [Ledger.after, action])
      rcases List.mem_or_eq_of_mem_set mem with old | rfl
      · exact file.objects other old
      · exact ⟨(file.objects object (List.mem_of_getElem? there)).named, by simp [lock]⟩

theorem keptStep (faithful : library.cipher.Faithful) (kept : Kept library ledger s)
    (unforgeable : ∀ held raw, ledger = some held → s.file = some raw → Unforgeable library held.passphrase raw)
    (current : UpToDate ledger s call) (ok : Accepts (perform library path) s call t) : Leaves library ledger call t := by
  have returned := ensuresPerform library path call s
  unfold Ensures at returned
  rw [ok] at returned
  simp only [Returns] at returned
  cases action : call.action with
  | create passphrase aliasName =>
      rw [action] at returned
      obtain ⟨object, u, ran, rfl⟩ := returned
      obtain ⟨none, new⟩ := keptCreate kept action ran
      exact ⟨new, fun held same => by rw [none] at same; contradiction⟩
  | unlock passphrase =>
      rw [action] at returned
      obtain ⟨object, u, ran, rfl⟩ := returned
      exact keptUnlock faithful kept unforgeable action ran
  | changePassphrase oldPassphrase newPassphrase =>
      rw [action] at returned
      exact keptChange faithful kept unforgeable action returned
  | rotateServiceScopedKey place passphrase =>
      rw [action] at returned
      obtain ⟨object, rebuilt, u, there, ran, rfl⟩ := returned
      exact keptRotate faithful kept unforgeable current action there ran
  | lock place =>
      rw [action] at returned
      obtain ⟨object, there, rfl⟩ := returned
      exact keptLock kept action there

end Step

/-! Keys of different generations are derived from different inputs. -/

theorem hashNotDigit (n : Nat) : (0x23 : UInt8) ∉ decimal n :=
  fun mem => absurd (decimalByte mem).1 (by decide)

theorem scopedInputsApart {m n : UInt32} {label identifier identifier' info : Bytes}
    (first : encodeDerivationInfo label (scopedIdentifier m identifier) = .ok info)
    (second : encodeDerivationInfo label (scopedIdentifier n identifier') = .ok info) : m = n := by
  simp only [encodeDerivationInfo, bind_ok, pure_ok, throwIf_ok] at first second
  obtain ⟨_, _, _, short, rfl⟩ := first
  obtain ⟨_, _, _, short', same⟩ := second
  have fields := List.append_cancel_left (List.append_cancel_left same)
  have whole : prefixed (scopedIdentifier n identifier') ++ [] = prefixed (scopedIdentifier m identifier) ++ [] := by
    rw [List.append_nil, List.append_nil, fields]
  have ids := ((Wire.prefixedFront (Nat.le_of_not_lt short') (Nat.le_of_not_lt short)).mp whole).1
  have numbers := decimalInj (Separators.first ids (hashNotDigit _) (hashNotDigit _)).1
  exact (UInt32.toNat_inj.mp numbers).symm

/-! Runs. -/

section Runs
variable (library : KeystoreLibrary) (path : String) (calls : List Call)

def Unforged : Prop := ∀ done held raw, done <+: calls → ledger library path done = some held →
  (run library path done).file = some raw → Unforgeable library held.passphrase raw

def RotatesUpToDate : Prop := ∀ done call, done ++ [call] <+: calls →
  UpToDate (ledger library path done) (run library path done) call

structure LifeCycle : Prop where
  unlocks : ∀ held env, ledger library path calls = some held → env.readFileAll = .ok () → env.deriveToRead = .ok () →
    ∃ object, unlock library path env held.passphrase (run library path calls) = .ok object (run library path calls) ∧
      object.masterSecret = some held.masterSecret ∧ object.header.identityId = held.identityId ∧
      object.header.aliasName = held.aliasName ∧ object.header.createdAt = held.createdAt ∧
      (deriveEd25519Keypair library held.masterSecret keystoreIdentityLabel []).map Ed25519KeyPair.publicKey =
        .ok object.header.identityPublicKey ∧
      object.keyGeneration.toNat = held.rotations
  refuses : ∀ passphrase env, (∀ held, ledger library path calls = some held → passphrase ≠ held.passphrase) →
    ∃ e, unlock library path env passphrase (run library path calls) = .error e (run library path calls)
  continues : ∀ before earlier, before <+: calls → ledger library path before = some earlier →
    ∃ later, ledger library path calls = some later ∧ Continues earlier later
  retires : ∀ before earlier later, before <+: calls → ledger library path before = some earlier →
    ledger library path calls = some later → earlier.rotations < later.rotations →
    ∀ label identifier identifier' info,
      encodeDerivationInfo label (scopedIdentifier (UInt32.ofNat earlier.rotations) identifier) = .ok info →
      encodeDerivationInfo label (scopedIdentifier (UInt32.ofNat later.rotations) identifier') ≠ .ok info
  keeps : ∀ call e t, perform library path call (run library path calls) = .error e t → t = run library path calls

variable {library path calls}

theorem keptNext (faithful : library.cipher.Faithful) (unforged : Unforged library path calls)
    (current : RotatesUpToDate library path calls) {done : List Call} {call : Call} (within : done ++ [call] <+: calls)
    (kept : Kept library (ledger library path done) (run library path done)) :
    Kept library (ledger library path (done ++ [call])) (run library path (done ++ [call])) ∧
      ∀ held, ledger library path done = some held →
        ∃ later, ledger library path (done ++ [call]) = some later ∧ Continues held later := by
  have before : done <+: calls := (List.prefix_append done [call]).trans within
  rw [runSnoc, ledgerSnoc]
  cases got : accepted (perform library path) (run library path done) call with
  | true =>
      rw [if_pos rfl]
      exact keptStep faithful kept (fun held raw => unforged done held raw before) (current done call within) (accepts_next got)
  | false =>
      rw [if_neg Bool.false_ne_true, (callsAtomic library path).rejected got]
      exact ⟨kept, fun held start => ⟨held, start, .refl held⟩⟩

theorem keptRun (faithful : library.cipher.Faithful) (unforged : Unforged library path calls)
    (current : RotatesUpToDate library path calls) (done : List Call) (within : done <+: calls) :
    Kept library (ledger library path done) (run library path done) := by
  induction done using List.reverseRecOn with
  | nil => exact ⟨fun _ => rfl, fun held start => by simp [ledger] at start⟩
  | append_singleton done call ih =>
      exact (keptNext faithful unforged current within (ih ((List.prefix_append done [call]).trans within))).1

theorem continuesRun (faithful : library.cipher.Faithful) (unforged : Unforged library path calls)
    (current : RotatesUpToDate library path calls) {done more : List Call} (within : done ++ more <+: calls) {earlier : Ledger}
    (start : ledger library path done = some earlier) :
    ∃ later, ledger library path (done ++ more) = some later ∧ Continues earlier later := by
  induction more using List.reverseRecOn with
  | nil => exact ⟨earlier, by rwa [List.append_nil], .refl earlier⟩
  | append_singleton more call ih =>
      rw [← List.append_assoc] at within ⊢
      have before : done ++ more <+: calls := (List.prefix_append _ [call]).trans within
      obtain ⟨middle, there, first⟩ := ih before
      obtain ⟨later, next, second⟩ := (keptNext faithful unforged current within
        (keptRun faithful unforged current _ before)).2 middle there
      exact ⟨later, next, first.trans second⟩

theorem lifeCycle (library : KeystoreLibrary) (path : String) (calls : List Call) (faithful : library.cipher.Faithful)
    (unforged : Unforged library path calls) (current : RotatesUpToDate library path calls) : LifeCycle library path calls := by
  have kept := keptRun faithful unforged current calls (List.prefix_refl calls)
  refine ⟨?unlocks, ?refuses, ?continues, ?retires, ?keeps⟩
  case unlocks =>
    intro held env start reads derives
    have file := kept.held held start
    obtain ⟨raw, header, there, named, holds⟩ := file.file
    refine ⟨_, loadHeld faithful holds there reads derives, rfl, named.identityId, named.aliasName, named.createdAt,
      holds.derived, ?_⟩
    rw [UInt32.toNat_ofNat', Nat.mod_eq_of_lt file.few]
  case refuses =>
    intro passphrase env others
    cases start : ledger library path calls with
    | none =>
        have empty : (run library path calls).file = none := by rw [kept.before start]
        exact loadMissing library path env passphrase empty
    | some held =>
        obtain ⟨raw, header, there, _, holds⟩ := (kept.held held start).file
        exact loadRefused faithful holds (unforged calls held raw (List.prefix_refl calls) start there) there (others held start)
  case continues =>
    intro before earlier within start
    obtain ⟨more, rfl⟩ := within
    exact continuesRun faithful unforged current (List.prefix_refl _) start
  case retires =>
    intro before earlier later _ _ last fewer label identifier identifier' info first second
    have few := (kept.held later last).few
    have same := congrArg UInt32.toNat (scopedInputsApart first second)
    rw [UInt32.toNat_ofNat', UInt32.toNat_ofNat', Nat.mod_eq_of_lt few, Nat.mod_eq_of_lt (fewer.trans few)] at same
    omega
  case keeps =>
    intro call e t threw
    exact callsAtomic library path _ call e t threw

end Runs

section Known

/- A keystore of a few known files: what Argon2id gives for each passphrase and salt, and what ChaCha20-Poly1305
makes of each payload. -/

def correctHorse : Bytes := ascii "correct horse"
def batteryStaple : Bytes := ascii "battery staple"
def knownSecret : MasterSecret := Vector.replicate 32 0x5a
def knownIdentity : IdentityId := Vector.replicate 16 0x11

def knownSeed : Ed25519PrivateSeed :=
  #v[0x25, 0xc7, 0x4a, 0xcf, 0xb8, 0x03, 0xff, 0xf1, 0x67, 0x93, 0x71, 0xad, 0x59, 0x94, 0x58, 0x7b,
    0x44, 0xee, 0xdf, 0x40, 0x4a, 0xb9, 0xa2, 0xaa, 0xb1, 0xd2, 0x3c, 0x9f, 0x1a, 0xdf, 0xf1, 0x6d]

def knownPublicKey : Ed25519PublicKey :=
  #v[0x24, 0x56, 0x02, 0x7c, 0x71, 0x3a, 0x7b, 0x6f, 0x01, 0x32, 0x6c, 0x07, 0xbf, 0x43, 0xaf, 0x32,
    0xab, 0x55, 0x58, 0xec, 0xfb, 0xf9, 0xc9, 0x44, 0x6e, 0xb2, 0xea, 0x77, 0x18, 0x0f, 0x5c, 0xbb]

structure KnownFile where
  byte : UInt8
  passphrase : Bytes
  keyGeneration : UInt32
  key : Aead.Key
  out : Sealed
  deriving DecidableEq, Repr

-- The salt and the nonce of each file are one byte over and over.
def knownEnv (byte : UInt8) : KeystoreEnv where
  argon2idAvailable := true
  nowUnixSeconds := 1700000000
  identityId := .ok knownIdentity
  masterSecret := .ok knownSecret
  kdfSalt := .ok (Vector.replicate 16 byte)
  nonce := .ok (Vector.replicate 12 byte)
  readFileAll := .ok ()
  deriveToRead := .ok ()
  deriveToWrite := .ok ()
  write := .ok ()

def KnownFile.header (known : KnownFile) : Header :=
  freshHeader (knownEnv known.byte) knownIdentity (ascii "alice") 1700000000 (Vector.replicate 16 known.byte) knownPublicKey

def KnownFile.entry (known : KnownFile) : Aead.Entry where
  key := known.key
  nonce := Vector.replicate 12 known.byte
  aad := (encodeHeader known.header).toOption.getD []
  text := encodePayload knownSecret known.keyGeneration
  out := known.out

def knownFiles : List KnownFile := [
  ⟨1, correctHorse, 0,
    #v[0x44, 0x71, 0x25, 0x6f, 0xa5, 0x8c, 0xf2, 0x03, 0xc9, 0xc3, 0x0f, 0x88, 0xac, 0xf8, 0x28, 0x4c,
    0xb7, 0x65, 0xab, 0xf5, 0xfd, 0xb0, 0x2f, 0x0e, 0x30, 0x0f, 0x6b, 0xad, 0xe1, 0x17, 0x93, 0xd1],
    ⟨[0x66, 0x67, 0x48, 0x86, 0xdf, 0xab, 0x3b, 0x11, 0xce, 0x6c, 0x51, 0x54, 0xaf, 0x6b, 0xfc, 0x11,
    0xb1, 0xfc, 0xab, 0xb0, 0x35, 0xbd, 0xbc, 0x30, 0xf0, 0xdd, 0x3e, 0x0a, 0x31, 0x72, 0x35, 0x97,
    0x2f, 0x4f, 0xe8, 0x48, 0x6a],
    #v[0xd8, 0x1a, 0xe9, 0xd0, 0x6c, 0x1e, 0xb0, 0x9a, 0x06, 0x1c, 0x6c, 0xe2, 0x65, 0x35, 0x7b, 0x78]⟩⟩,
  ⟨2, correctHorse, 1,
    #v[0xa6, 0x21, 0x65, 0x14, 0x23, 0xa7, 0x35, 0xad, 0xd2, 0x2f, 0xf0, 0xbe, 0x77, 0x56, 0x1a, 0x59,
    0x2a, 0x84, 0xb3, 0x74, 0xf0, 0x06, 0x5a, 0xfe, 0x6d, 0x62, 0x3b, 0xd3, 0xd6, 0xf3, 0x06, 0x2c],
    ⟨[0xb4, 0xd8, 0x1b, 0xc0, 0xe5, 0xbc, 0x0d, 0x62, 0xcd, 0x27, 0x99, 0xbc, 0x89, 0x54, 0xc6, 0x8f,
    0x8b, 0x2a, 0x13, 0xef, 0x94, 0xaa, 0x9c, 0x7e, 0x7e, 0x32, 0x75, 0xb7, 0x85, 0x36, 0x47, 0x59,
    0xec, 0xa0, 0x53, 0xc6, 0x80],
    #v[0xa1, 0x8f, 0xc4, 0xa6, 0x57, 0xac, 0xb3, 0x04, 0x5b, 0x67, 0xc3, 0xcf, 0x1f, 0xc9, 0xfa, 0x9d]⟩⟩,
  ⟨3, batteryStaple, 1,
    #v[0x2e, 0x99, 0xe9, 0xd5, 0x3f, 0xa9, 0xc9, 0x01, 0x9b, 0x61, 0x44, 0xf3, 0xf6, 0xec, 0xe8, 0xa7,
    0xd5, 0xfc, 0x33, 0x26, 0x5a, 0xac, 0x78, 0x17, 0xc6, 0x46, 0x17, 0x9f, 0x23, 0x8f, 0x65, 0x27],
    ⟨[0x2f, 0xe3, 0x1f, 0xc5, 0x60, 0x0f, 0xeb, 0x62, 0xd1, 0x35, 0xdb, 0x73, 0xd5, 0xe9, 0x8d, 0xb2,
    0x25, 0x48, 0xf0, 0xc6, 0x6f, 0x9e, 0xb6, 0xb5, 0x1d, 0xb2, 0xe1, 0x84, 0x21, 0xaf, 0x77, 0x7d,
    0x55, 0x84, 0x2d, 0xfd, 0xc9],
    #v[0x69, 0x31, 0x25, 0x8d, 0x55, 0x78, 0x4e, 0xb3, 0x88, 0x5d, 0x65, 0x58, 0x16, 0x23, 0x89, 0xfe]⟩⟩,
  ⟨4, batteryStaple, 2,
    #v[0xbe, 0x0a, 0x43, 0x74, 0xf6, 0x4b, 0x45, 0x10, 0x70, 0x28, 0xbf, 0xd0, 0x10, 0xc7, 0xda, 0x5b,
    0xb2, 0x1d, 0xef, 0x76, 0x78, 0x76, 0xe1, 0x8c, 0x85, 0xcb, 0x08, 0x26, 0x60, 0x31, 0xcd, 0x96],
    ⟨[0x0f, 0xa9, 0x94, 0xa0, 0xd0, 0xb9, 0xd4, 0x1f, 0x9e, 0xcb, 0xf7, 0xc6, 0x56, 0x70, 0xff, 0x2d,
    0xd1, 0x70, 0xab, 0xb8, 0x97, 0x30, 0xc1, 0x33, 0xaa, 0x22, 0xd1, 0xc1, 0xfc, 0xb0, 0x57, 0xd6,
    0xe6, 0x96, 0x6c, 0x78, 0x6c],
    #v[0xef, 0x33, 0xb4, 0xdc, 0x75, 0x3c, 0x44, 0x38, 0xa1, 0xe7, 0x2c, 0x24, 0x68, 0x41, 0x78, 0x71]⟩⟩,
  ⟨5, correctHorse, 1,
    #v[0xe1, 0x84, 0x7c, 0xf6, 0x80, 0x26, 0x1a, 0x5f, 0x10, 0x4b, 0x74, 0xe3, 0x39, 0x0a, 0x26, 0xfd,
    0x6b, 0x2b, 0x5d, 0x1b, 0x69, 0xbb, 0x27, 0x1a, 0x6e, 0xc2, 0x84, 0xe5, 0x50, 0xe2, 0xaa, 0x6e],
    ⟨[0xe8, 0xd4, 0xb3, 0x20, 0x85, 0x58, 0xed, 0xf1, 0x1b, 0x0b, 0x8f, 0xbc, 0xcd, 0xab, 0x3d, 0x7b,
    0x12, 0x4d, 0x5d, 0x86, 0x51, 0x6c, 0xa8, 0x0a, 0xa6, 0x80, 0xbf, 0x93, 0x57, 0x6d, 0x2f, 0x3a,
    0x0f, 0x62, 0x5a, 0xe0, 0x99],
    #v[0x42, 0x90, 0xee, 0xec, 0x1e, 0xf6, 0x0c, 0xc6, 0x13, 0x84, 0x49, 0x40, 0x75, 0xc9, 0x34, 0x82]⟩⟩]

def isDerived (passphrase salt : Bytes) (memcost iterations lanes : UInt32) (known : KnownFile) : Bool :=
  known.passphrase = passphrase ∧ known.header.kdfSalt = salt ∧ memcost = argon2DefaultMemCostKib ∧
    iterations = argon2DefaultIterations ∧ lanes = argon2DefaultLanes

def knownLibrary : KeystoreLibrary where
  argon2id passphrase salt memcost iterations lanes :=
    ((knownFiles.find? (isDerived passphrase salt memcost iterations lanes)).map KnownFile.key).getD (Vector.replicate 32 0)
  pbkdf2Sha256 _ _ _ := Vector.replicate 32 0
  cipher := Aead.table (knownFiles.map KnownFile.entry)
  hkdfSha256 _ _ := knownSeed
  ed25519PublicKey _ := knownPublicKey

-- The file was sealed for the passphrase, under what it has in the clear.
def vouched (passphrase raw : Bytes) : Bool :=
  match decodeFile raw with
  | .error _ => true
  | .ok decoded => knownFiles.any fun known =>
      known.out = ⟨decoded.ciphertext, decoded.tag⟩ ∧ known.passphrase = passphrase ∧ known.entry.aad = decoded.aad ∧
        decoded.header.kdfAlgorithm = .argon2id ∧ headerKey knownLibrary decoded.header passphrase = known.key

def vouchedAll (path : String) (calls : List Call) : Bool := calls.inits.all fun done =>
  match ledger knownLibrary path done, (run knownLibrary path done).file with
  | some held, some raw => vouched held.passphrase raw
  | _, _ => true

def rotatesCurrent (ledger : Option Ledger) (s : KeystoreWorld) (call : Call) : Bool :=
  match call.action, ledger with
  | .rotateServiceScopedKey place passphrase, some held =>
      passphrase ≠ held.passphrase ∨ s.objects[place]?.all fun object =>
        object.keyGeneration.toNat = held.rotations ∧ held.rotations + 1 < 2 ^ 32
  | _, _ => true

def rotatesAllCurrent (path : String) (calls : List Call) : Bool := calls.inits.all fun done =>
  done.getLast?.all (rotatesCurrent (ledger knownLibrary path done.dropLast) (run knownLibrary path done.dropLast))

def knownCall (byte : UInt8) (action : Action) : Call := ⟨knownEnv byte, action⟩

-- Made, rotated, given another passphrase and rotated again.
def wellKept : List Call :=
  [knownCall 1 (.create correctHorse (ascii "alice")), knownCall 1 (.unlock correctHorse), knownCall 2 (.rotateServiceScopedKey 0 correctHorse),
    knownCall 3 (.changePassphrase correctHorse batteryStaple), knownCall 3 (.unlock batteryStaple),
    knownCall 4 (.rotateServiceScopedKey 2 batteryStaple)]

-- Rotated twice, by two objects that were open before.
def rotatedTwice : List Call :=
  [knownCall 1 (.create correctHorse (ascii "alice")), knownCall 1 (.unlock correctHorse), knownCall 2 (.rotateServiceScopedKey 0 correctHorse),
    knownCall 5 (.rotateServiceScopedKey 1 correctHorse)]

def unlockedGeneration (path : String) (calls : List Call) : Option UInt32 :=
  match unlock knownLibrary path (knownEnv 0) correctHorse (run knownLibrary path calls) with
  | .ok object _ => some object.keyGeneration
  | .error _ _ => none

theorem knownFacts :
    ((knownFiles.map KnownFile.entry).map Aead.Entry.out).Nodup ∧
    (∀ entry ∈ knownFiles.map KnownFile.entry, entry.out.ciphertext.length = entry.text.length ∧ entry.out.tag ≠ Aead.plainTag) ∧
    (∀ known ∈ knownFiles, known.key ≠ Vector.replicate 32 0) ∧
    (∀ known ∈ knownFiles, ∀ other ∈ knownFiles, known.key = other.key → known = other) ∧
    (vouchedAll "alice.keystore" wellKept = true ∧ rotatesAllCurrent "alice.keystore" wellKept = true ∧
      (ledger knownLibrary "alice.keystore" wellKept).map Ledger.rotations = some 2) ∧
    vouchedAll "alice.keystore" rotatedTwice = true ∧
    (ledger knownLibrary "alice.keystore" rotatedTwice).map (fun held => (held.passphrase, held.rotations)) = some (correctHorse, 2) ∧
    unlockedGeneration "alice.keystore" rotatedTwice = some 1 := by decide +kernel

theorem knownWellFormed : Aead.WellFormed (knownFiles.map KnownFile.entry) where
  apart := knownFacts.1
  sized entry mem := (knownFacts.2.1 entry mem).1
  tagged entry mem := (knownFacts.2.1 entry mem).2

theorem knownFaithful : knownLibrary.cipher.Faithful := Aead.tableFaithful knownWellFormed

theorem knownSingle {sealing : KnownFile} (mem : sealing ∈ knownFiles) {header : Header} (argon : header.kdfAlgorithm = .argon2id)
    {other : Bytes} (same : headerKey knownLibrary header other = sealing.key) : other = sealing.passphrase := by
  obtain ⟨_, _, keyed, oneKey, _⟩ := knownFacts
  simp only [headerKey, deriveAeadKey, argon, knownLibrary] at same
  cases found : knownFiles.find? (isDerived other header.kdfSalt header.kdfMemcostKib header.kdfIterations header.kdfLanes) with
  | none =>
      rw [found] at same
      exact absurd same.symm (keyed sealing mem)
  | some derived =>
      rw [found] at same
      have input := List.find?_some found
      simp only [isDerived, decide_eq_true_eq] at input
      rw [← input.1, oneKey derived (List.mem_of_find?_eq_some found) sealing mem same]

theorem unforgeableOf {passphrase raw : Bytes} (checked : vouched passphrase raw = true) : Unforgeable knownLibrary passphrase raw := by
  intro decoded read
  simp only [vouched, read, List.any_eq_true, decide_eq_true_eq] at checked
  obtain ⟨sealing, mem, out, rfl, aad, argon, key⟩ := checked
  refine ⟨fun other same => knownSingle mem argon (same.trans key), ?_⟩
  intro given aad' plaintext opens
  have made : sealing.entry.out = ⟨decoded.ciphertext, decoded.tag⟩ := out
  have own : knownLibrary.cipher.decrypt given decoded.nonce aad' sealing.entry.out.ciphertext sealing.entry.out.tag = some plaintext := by
    rwa [made]
  have committed := Aead.tableCommits knownWellFormed (List.mem_map_of_mem mem) own
  exact ⟨committed.1.trans key.symm, committed.2.trans aad⟩

theorem unforgedOf {path : String} {calls : List Call} (checked : vouchedAll path calls = true) : Unforged knownLibrary path calls := by
  intro done held raw within start there
  have one := List.all_eq_true.mp checked done ((List.mem_inits _ _).mpr within)
  rw [start, there] at one
  exact unforgeableOf one

theorem currentOf {path : String} {calls : List Call} (checked : rotatesAllCurrent path calls = true) :
    RotatesUpToDate knownLibrary path calls := by
  intro done call within place passphrase held object action start same there
  have one := List.all_eq_true.mp checked (done ++ [call]) ((List.mem_inits _ _).mpr within)
  rw [List.getLast?_concat, List.dropLast_concat, Option.all_some] at one
  unfold rotatesCurrent at one
  simpa [action, start, there, same] using one

theorem lifeCycleWellKept : knownLibrary.cipher.Faithful ∧ Unforged knownLibrary "alice.keystore" wellKept ∧
    RotatesUpToDate knownLibrary "alice.keystore" wellKept ∧
    (ledger knownLibrary "alice.keystore" wellKept).map Ledger.rotations = some 2 ∧
    LifeCycle knownLibrary "alice.keystore" wellKept := by
  obtain ⟨_, _, _, _, ⟨vouched, rotates, rotations⟩, _⟩ := knownFacts
  exact ⟨knownFaithful, unforgedOf vouched, currentOf rotates, rotations,
    lifeCycle knownLibrary "alice.keystore" wellKept knownFaithful (unforgedOf vouched) (currentOf rotates)⟩

theorem rotationLost : knownLibrary.cipher.Faithful ∧ Unforged knownLibrary "alice.keystore" rotatedTwice ∧
    ¬LifeCycle knownLibrary "alice.keystore" rotatedTwice := by
  obtain ⟨_, _, _, _, _, vouched, lost, unlocked⟩ := knownFacts
  refine ⟨knownFaithful, unforgedOf vouched, ?_⟩
  intro cycle
  obtain ⟨held, start, same⟩ := Option.map_eq_some_iff.mp lost
  obtain ⟨passphrase, rotations⟩ := Prod.mk.inj same
  obtain ⟨object, opens, _, _, _, _, _, generation⟩ := cycle.unlocks held (knownEnv 0) start rfl rfl
  rw [passphrase] at opens
  simp only [unlockedGeneration, opens, Option.some.injEq] at unlocked
  rw [unlocked, rotations] at generation
  exact absurd generation (by decide)

end Known

end IdentityKeystore
end TradeP2P
