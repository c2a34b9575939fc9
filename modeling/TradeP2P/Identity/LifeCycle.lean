import TradeP2P.Identity.Keystore
import TradeP2P.Lib.Contracts
import TradeP2P.Registry.Refresh

/-! The life of a keystore file. However many objects are open on it, the file holds the identity it was
created with, and opens under one passphrase. -/
namespace TradeP2P
open Wire (Bytes bigEndian prefixed)
open Checks Machine KeystoreCodec

namespace KeystoreCodec

/-! What is written is read back. -/

theorem decodePayloadOk {plaintext : Bytes} (payload : DecodedPayload) : decodePayload plaintext = .ok payload ↔
    plaintext = encodePayload payload.masterSecret payload.keyGeneration := by
  simp only [decodePayload, Wire.readAllOk, readPayload, Wire.bindRead, Wire.u8Read, Wire.checkRead, throwIf_ok, Wire.fixedRead,
    Wire.u32Read, Wire.pureRead, ne_eq, not_not, encodePayload]
  constructor
  · intro read
    obtain ⟨_, _, rfl, _, _, ⟨rfl, rfl⟩, _, _, rfl, _, _, rfl, rfl, rfl⟩ := read
    simp
  · rintro rfl
    exact ⟨_, _, rfl, (), _, ⟨rfl, rfl⟩, payload.masterSecret, _, rfl, payload.keyGeneration, [], by simp, rfl, rfl⟩

theorem readsKdfAlgorithm {algorithm : KdfAlgorithm} (rest : Bytes) :
    readKdfAlgorithm ([algorithm.toByte] ++ rest) = .ok (algorithm, rest) := by
  simp only [readKdfAlgorithm, Wire.bindRead, Wire.u8Read]
  refine ⟨_, _, rfl, ?_⟩
  cases algorithm <;> rfl

theorem readsAeadAlgorithm {algorithm : AeadAlgorithm} (rest : Bytes) :
    readAeadAlgorithm ([algorithm.toByte] ++ rest) = .ok (algorithm, rest) := by
  simp only [readAeadAlgorithm, Wire.bindRead, Wire.u8Read]
  refine ⟨_, _, rfl, ?_⟩
  cases algorithm
  rfl

theorem decodesFile {header : Header} {aad raw : Bytes} {nonce : Aead.Nonce} {sealing : Aead.Sealed}
    (encoded : encodeHeader header = .ok aad) (written : encodeFile aad nonce sealing = .ok raw)
    (named : header.aliasName.length ≤ keystoreMaxAliasLength) (salted : header.kdfSalt.length ≤ maxKdfSaltLength)
    (small : sealing.ciphertext.length ≤ keystoreMaxCiphertextLength) :
    decodeFile raw = .ok ⟨keystoreFormatVersion, header, nonce, sealing.ciphertext, sealing.tag, aad⟩ := by
  have bound : keystoreMaxCiphertextLength < 2 ^ 32 := by decide
  simp only [encodeHeader, writeU16, bind_ok, pure_ok, Wire.lengthPrefixedOk] at encoded
  obtain ⟨_, ⟨_, shortAlias, rfl⟩, _, ⟨_, shortSalt, rfl⟩, same⟩ := encoded
  simp only [encodeFile, bind_ok, pure_ok] at written
  obtain ⟨_, _, rfl⟩ := written
  simp only [decodeFile, Wire.readAllOk, readFile, Wire.bindRead, Wire.fixedRead, Wire.u16Read, Wire.checkRead, throwIf_ok,
    Wire.takePrefixedRead, Wire.u64Read, Wire.u32Read, Wire.positionRead, Wire.takePrefixed32Read bound, Wire.pureRead,
    ne_eq, not_not]
  refine ⟨keystoreMagic, _, by rw [← same, List.append_assoc], (), _, ⟨rfl, rfl⟩, keystoreFormatVersion, _, by rw [List.append_assoc],
    (), _, ⟨rfl, rfl⟩, header.identityId, _, by rw [List.append_assoc], header.aliasName, _,
    ⟨named, shortAlias, by rw [List.append_assoc]⟩, header.createdAt, _, by rw [List.append_assoc],
    header.kdfAlgorithm, _, by rw [List.append_assoc]; exact readsKdfAlgorithm _, header.kdfSalt, _, ⟨salted, shortSalt, by rw [List.append_assoc]⟩,
    header.kdfMemcostKib, _, by rw [List.append_assoc], header.kdfIterations, _, by rw [List.append_assoc],
    header.kdfLanes, _, by rw [List.append_assoc], header.aeadAlgorithm, _, by rw [List.append_assoc]; exact readsAeadAlgorithm _,
    header.identityPublicKey, _, rfl, _, _, ⟨rfl, rfl⟩, nonce, _, rfl, sealing.ciphertext, _, ⟨small, rfl⟩,
    sealing.tag, [], by rw [List.append_nil], ?_, rfl⟩
  rw [Wire.takeFront]

end KeystoreCodec

namespace IdentityKeystore

/-! What a file holds, and what loading it gives. -/

structure Holds (library : KeystoreLibrary) (raw : Bytes) (header : Header) (passphrase : Bytes) (keyGeneration : UInt32)
    (masterSecret : MasterSecret) : Prop where
  named : header.aliasName.length ≤ keystoreMaxAliasLength
  salted : header.kdfSalt.length = 16
  derived : (deriveEd25519Keypair library masterSecret keystoreIdentityLabel []).map Ed25519KeyPair.publicKey = .ok header.identityPublicKey
  sealing : ∃ aad nonce out, encodeHeader header = .ok aad ∧
    library.cipher.encrypt (headerKey library header passphrase) nonce aad (encodePayload masterSecret keyGeneration) = some out ∧
    encodeFile aad nonce out = .ok raw

/- Decryption succeeds only with the key and the associated data used to encrypt, and no other passphrase gives
the key. -/
def Unforgeable (library : KeystoreLibrary) (passphrase raw : Bytes) : Prop :=
  ∀ decoded, decodeFile raw = .ok decoded →
    (∀ other, headerKey library decoded.header other = headerKey library decoded.header passphrase → other = passphrase) ∧
    ∀ key aad plaintext, library.cipher.decrypt key decoded.nonce aad decoded.ciphertext decoded.tag = some plaintext →
      key = headerKey library decoded.header passphrase ∧ aad = decoded.aad

theorem standardlyOk {α : Type} {x : Except Error α} {a : α} : standardly x = .ok a ↔ x = .ok a := by
  cases x <;> simp [standardly]

section Loading
variable {library : KeystoreLibrary} {path : String} {env : KeystoreEnv} {s : KeystoreWorld} {raw passphrase : Bytes}
  {header : Header} {keyGeneration : UInt32} {masterSecret : MasterSecret}

theorem Holds.decodes (faithful : library.cipher.Faithful) (holds : Holds library raw header passphrase keyGeneration masterSecret) :
    ∃ nonce aad, ∃ out : Aead.Sealed, decodeFile raw = .ok ⟨keystoreFormatVersion, header, nonce, out.ciphertext, out.tag, aad⟩ ∧
      library.cipher.decrypt (headerKey library header passphrase) nonce aad out.ciphertext out.tag =
        some (encodePayload masterSecret keyGeneration) := by
  obtain ⟨aad, nonce, out, encoded, made, written⟩ := holds.sealing
  have size := faithful.length made
  have small : out.ciphertext.length ≤ keystoreMaxCiphertextLength := by
    rw [size]
    simp [encodePayload, keystoreMaxCiphertextLength]
  have salted : header.kdfSalt.length ≤ maxKdfSaltLength := by
    rw [holds.salted]
    decide
  exact ⟨nonce, aad, out, decodesFile encoded written holds.named salted small, faithful.opens made⟩

theorem loadHeld (faithful : library.cipher.Faithful) (holds : Holds library raw header passphrase keyGeneration masterSecret)
    (there : s.file = some raw) (reads : env.readFileAll = .ok ()) (derives : env.deriveToRead = .ok ()) :
    load library path env passphrase s = .ok ⟨keystoreFormatVersion, header, keyGeneration, some masterSecret⟩ s := by
  obtain ⟨nonce, aad, out, decoded, opens⟩ := holds.decodes faithful
  have payload := (decodePayloadOk ⟨masterSecret, keyGeneration⟩).mpr rfl
  cases pair : deriveEd25519Keypair library masterSecret keystoreIdentityLabel [] with
  | error e =>
      have derived := holds.derived
      rw [pair] at derived
      contradiction
  | ok found =>
      have derived := holds.derived
      rw [pair] at derived
      have same : found.publicKey = header.identityPublicKey := Except.ok.inj derived
      simp only [load, readFileAll, bind_run, get_run, there, lift_run, pure_run, standardly, reads, derives, decoded, opens,
        chacha20poly1305Open, payload, pair, same, throwIf_not, ne_eq, not_true, not_false_eq_true]

/- Loading leaves everything as it is, and has found a file that opens. -/
theorem ensuresLoad (library : KeystoreLibrary) (path : String) (env : KeystoreEnv) (passphrase : Bytes) (s : KeystoreWorld) :
    Ensures (load library path env passphrase) s
      (fun object t => t = s ∧ ∃ raw decoded plaintext payload, s.file = some raw ∧ decodeFile raw = .ok decoded ∧
        library.cipher.decrypt (headerKey library decoded.header passphrase) decoded.nonce decoded.aad decoded.ciphertext
          decoded.tag = some plaintext ∧ decodePayload plaintext = .ok payload ∧
        object = ⟨decoded.formatVersion, decoded.header, payload.keyGeneration, some payload.masterSecret⟩)
      (fun _ t => t = s) := by
  have reads : Ensures (readFileAll path env) s (fun raw t => t = s ∧ s.file = some raw) (fun _ t => t = s) := by
    unfold readFileAll
    rw [ensuresBind, ensuresGet]
    cases there : s.file with
    | none => exact rfl
    | some raw =>
        simp only [ensuresBind, ensuresLift, ensuresPure]
        simp
  unfold load
  rw [ensuresBind]
  refine reads.weaken ?_ fun _ _ _ same => same
  intro raw t _ found
  obtain ⟨rfl, there⟩ := found
  simp only [ensuresBind, ensuresLift, ensuresPure, throwIf_ok, implies_true, and_true]
  intro decoded read _ _ plaintext opens payload unpacked _ _ _ _
  refine ⟨trivial, raw, decoded, plaintext, payload, there, read, ?_, unpacked, rfl⟩
  unfold chacha20poly1305Open at opens
  split at opens
  · rename_i text decrypted
    rw [decrypted, Except.ok.inj opens]
  · contradiction

/- Only the current passphrase loads the file, and it gives what the file holds. -/
theorem loadReturns (faithful : library.cipher.Faithful) (holds : Holds library raw header passphrase keyGeneration masterSecret)
    (unforgeable : Unforgeable library passphrase raw) (there : s.file = some raw) {other : Bytes} {object : IdentityKeystore}
    {t : KeystoreWorld} (ran : load library path env other s = .ok object t) :
    other = passphrase ∧ t = s ∧ object = ⟨keystoreFormatVersion, header, keyGeneration, some masterSecret⟩ := by
  obtain ⟨nonce, aad, out, decoded, opens⟩ := holds.decodes faithful
  have spec := ensuresLoad library path env other s
  unfold Ensures at spec
  rw [ran] at spec
  obtain ⟨same, raw', decoded', plaintext, payload, there', read, decrypted, unpacked, rfl⟩ := spec
  obtain rfl := Option.some.inj (there.symm.trans there')
  obtain rfl := Except.ok.inj (decoded.symm.trans read)
  obtain ⟨single, onlyKey⟩ := unforgeable _ decoded
  obtain rfl := single other (onlyKey _ _ _ decrypted).1
  obtain rfl := Option.some.inj (opens.symm.trans decrypted)
  have held := (decodePayloadOk ⟨masterSecret, keyGeneration⟩).mpr rfl
  obtain rfl := Except.ok.inj (held.symm.trans unpacked)
  exact ⟨rfl, same, rfl⟩

theorem loadKeeps {other : Bytes} {e : KeystoreError} {t : KeystoreWorld} (ran : load library path env other s = .error e t) :
    t = s := by
  have spec := ensuresLoad library path env other s
  unfold Ensures at spec
  rwa [ran] at spec

theorem loadRefused (faithful : library.cipher.Faithful) (holds : Holds library raw header passphrase keyGeneration masterSecret)
    (unforgeable : Unforgeable library passphrase raw) (there : s.file = some raw) {other : Bytes} (differs : other ≠ passphrase) :
    ∃ e, load library path env other s = .error e s := by
  cases ran : load library path env other s with
  | error e t => exact ⟨e, by rw [loadKeeps ran]⟩
  | ok object t => exact absurd (loadReturns faithful holds unforgeable there ran).1 differs

variable (library path env passphrase) in
theorem loadMissing (absent : s.file = none) : ∃ e, load library path env passphrase s = .error e s := by
  refine ⟨.standard (.runtimeError ("cannot open keystore file: " ++ path)), ?_⟩
  simp only [load, readFileAll, bind_run, get_run, absent]
  rfl

theorem ensuresReplace (env : KeystoreEnv) (bytes : Bytes) (s : KeystoreWorld) :
    Ensures (writeReplaceAtomic env bytes) s (fun _ t => t = { s with file := some bytes }) (fun _ t => t = s) := by
  simp [writeReplaceAtomic, ensuresBind, ensuresGet, ensuresLift, ensuresSet]

theorem ensuresNew (path : String) (env : KeystoreEnv) (bytes : Bytes) (s : KeystoreWorld) :
    Ensures (writeNewExclusive path env bytes) s (fun _ t => t = { s with file := some bytes } ∧ s.file = none)
      (fun _ t => t = s) := by
  simp only [writeNewExclusive, ensuresBind, ensuresGet, ensuresLift, ensuresSet, throwIf_ok, throwIf_error,
    Bool.not_eq_true, Option.isSome_eq_false_iff, Option.isNone_iff_eq_none, true_and, implies_true, and_true]
  exact fun _ absent _ _ => absent

/- Building a file leaves the file as it was unless it is written, and then it holds what was asked for. -/
theorem ensuresBuild (library : KeystoreLibrary) (path : String) (env : KeystoreEnv) (passphrase aliasName : Bytes)
    (createdAt : UInt64) (identityId : IdentityId) (keyGeneration : UInt32) (masterSecret : MasterSecret) (allowOverwrite : Bool)
    (s : KeystoreWorld) :
    Ensures (buildAndWrite library path env passphrase aliasName createdAt identityId keyGeneration masterSecret allowOverwrite) s
      (fun object t => object.masterSecret = some masterSecret ∧ object.keyGeneration = keyGeneration ∧
        object.header.identityId = identityId ∧ object.header.aliasName = aliasName ∧ object.header.createdAt = createdAt ∧
        (allowOverwrite = false → s.file = none) ∧
        ∃ raw, t = { s with file := some raw } ∧ Holds library raw object.header passphrase keyGeneration masterSecret)
      (fun _ t => t = s) := by
  unfold buildAndWrite
  simp only [ensuresBind, ensuresLift, throwIf_ok, implies_true, and_true]
  intro _ short kdfSalt _ _ _ pair derived nonce _ aad encoded out made raw written
  have holds : Holds library raw (freshHeader env identityId aliasName createdAt kdfSalt pair.publicKey) passphrase
      keyGeneration masterSecret := by
    refine ⟨Nat.le_of_not_lt short, by simp [freshHeader], ?_, aad, nonce, out, standardlyOk.mp encoded, ?_, standardlyOk.mp written⟩
    · rw [standardlyOk.mp derived]
      rfl
    · unfold chacha20poly1305Seal at made
      split at made
      · rename_i sealing encrypted
        rw [encrypted, Except.ok.inj made]
      · contradiction
  cases allowOverwrite with
  | true =>
      rw [if_pos rfl, ensuresBind]
      refine (ensuresReplace env raw s).weaken ?_ fun _ _ _ same => same
      intro _ t _ wrote
      exact ⟨rfl, rfl, rfl, rfl, rfl, by simp, raw, wrote, holds⟩
  | false =>
      rw [if_neg Bool.false_ne_true, ensuresBind]
      refine (ensuresNew path env raw s).weaken ?_ fun _ _ _ same => same
      intro _ t _ wrote
      exact ⟨rfl, rfl, rfl, rfl, rfl, fun _ => wrote.2, raw, wrote.1, holds⟩

end Loading

/-! Calls. A call that throws has changed nothing. -/
section Calls
variable (library : KeystoreLibrary) (path : String)

theorem ensuresOpened {made : KeystoreM IdentityKeystore} {s : KeystoreWorld} {returns : IdentityKeystore → KeystoreWorld → Prop}
    (keeps : Ensures made s returns (fun _ t => t = s)) : Ensures (opened made) s
      (fun _ t => ∃ object u, made s = .ok object u ∧ t = { u with objects := u.objects ++ [object] }) (fun _ t => t = s) := by
  unfold opened
  rw [ensuresBind]
  exact keeps.weaken (fun object u ran _ => ⟨object, u, ran, rfl⟩) fun _ _ _ same => same

theorem ensuresObjectAt (place : Nat) (s : KeystoreWorld) :
    Ensures (objectAt place) s (fun object t => t = s ∧ s.objects[place]? = some object) (fun _ t => t = s) := by
  unfold objectAt
  rw [ensuresBind, ensuresGet]
  cases s.objects[place]? with
  | none => exact rfl
  | some object => exact ⟨rfl, rfl⟩

/- What a header says of whose keystore it is. -/
structure SameIdentity (a b : Header) : Prop where
  identityId : a.identityId = b.identityId
  aliasName : a.aliasName = b.aliasName
  createdAt : a.createdAt = b.createdAt

/- A file was written that holds this, and nothing else has changed. -/
def Writes (s t : KeystoreWorld) (header : Header) (passphrase : Bytes) (keyGeneration : UInt32) (masterSecret : MasterSecret) :
    Prop := ∃ raw, t = { s with file := some raw } ∧ Holds library raw header passphrase keyGeneration masterSecret

section Steps
variable (env : KeystoreEnv) (s : KeystoreWorld)

theorem ensuresCreate (passphrase aliasName : Bytes) : Ensures (create library path env passphrase aliasName) s
    (fun object t => ∃ identityId masterSecret, env.identityId = .ok identityId ∧ env.masterSecret = .ok masterSecret ∧
      s.file = none ∧ object.masterSecret = some masterSecret ∧ object.header.identityId = identityId ∧
      object.header.aliasName = aliasName ∧ object.header.createdAt = env.nowUnixSeconds ∧
      Writes library s t object.header passphrase 0 masterSecret)
    (fun _ t => t = s) := by
  unfold create
  simp only [ensuresBind, ensuresLift, implies_true, and_true]
  intro identityId drawn masterSecret generated
  refine (ensuresBuild library path env passphrase aliasName _ identityId 0 masterSecret false s).weaken ?_ fun _ _ _ same => same
  intro object t _ built
  obtain ⟨unlocked, _, id, named, created, absent, writes⟩ := built
  exact ⟨identityId, masterSecret, standardlyOk.mp drawn, standardlyOk.mp generated, absent rfl, unlocked, id, named, created, writes⟩

theorem ensuresChange (oldPassphrase newPassphrase : Bytes) :
    Ensures (changePassphrase library path env oldPassphrase newPassphrase) s
      (fun _ t => ∃ existing masterSecret header, load library path env oldPassphrase s = .ok existing s ∧
        existing.masterSecret = some masterSecret ∧ SameIdentity header existing.header ∧
        Writes library s t header newPassphrase existing.keyGeneration masterSecret)
      (fun _ t => t = s) := by
  unfold changePassphrase
  rw [ensuresBind]
  refine (ensuresLoad library path env oldPassphrase s).weaken ?_ fun _ _ _ same => same
  intro existing t ran loaded
  rw [loaded.1] at ran ⊢
  split
  · exact rfl
  · rename_i masterSecret held
    rw [ensuresBind]
    refine (ensuresBuild library path env newPassphrase _ _ _ _ masterSecret true s).weaken ?_ fun _ _ _ same => same
    intro object u _ built
    obtain ⟨_, _, id, named, created, _, writes⟩ := built
    exact ⟨existing, masterSecret, object.header, ran, held, ⟨id, named, created⟩, writes⟩

theorem ensuresRotate (self : IdentityKeystore) (passphrase : Bytes) :
    Ensures (rotateServiceScopedKey library path env self passphrase) s
      (fun object t => ∃ masterSecret loaded, self.masterSecret = some masterSecret ∧
        load library path env passphrase s = .ok loaded s ∧ object.masterSecret = some masterSecret ∧
        SameIdentity object.header self.header ∧
        Writes library s t object.header passphrase (self.keyGeneration + 1) masterSecret)
      (fun _ t => t = s) := by
  unfold rotateServiceScopedKey
  split
  · exact rfl
  · rename_i masterSecret held
    rw [ensuresBind]
    refine (ensuresLoad library path env passphrase s).weaken ?_ fun _ _ _ same => same
    intro loaded t ran same
    rw [same.1] at ran ⊢
    refine (ensuresBuild library path env passphrase _ _ _ _ masterSecret true s).weaken ?_ fun _ _ _ same => same
    intro object u _ built
    obtain ⟨unlocked, _, id, named, created, _, writes⟩ := built
    exact ⟨masterSecret, loaded, held, ran, unlocked, ⟨id, named, created⟩, writes⟩

end Steps

/- What each call has done when it returns. -/
def Returns (s : KeystoreWorld) (call : Call) (t : KeystoreWorld) : Prop := match call.action with
  | .create passphrase aliasName => ∃ object u, create library path call.env passphrase aliasName s = .ok object u ∧
      t = { u with objects := u.objects ++ [object] }
  | .unlock passphrase => ∃ object u, load library path call.env passphrase s = .ok object u ∧
      t = { u with objects := u.objects ++ [object] }
  | .changePassphrase oldPassphrase newPassphrase =>
      changePassphrase library path call.env oldPassphrase newPassphrase s = .ok () t
  | .rotateServiceScopedKey place passphrase => ∃ object rebuilt u, s.objects[place]? = some object ∧
      rotateServiceScopedKey library path call.env object passphrase s = .ok rebuilt u ∧
      t = { u with objects := u.objects.set place rebuilt }
  | .lock place => ∃ object, s.objects[place]? = some object ∧ t = { s with objects := s.objects.set place object.lock }

theorem ensuresPerform (call : Call) (s : KeystoreWorld) :
    Ensures (perform library path call) s (fun _ t => Returns library path s call t) (fun _ t => t = s) := by
  unfold perform Returns
  cases call.action with
  | create passphrase aliasName => exact ensuresOpened (ensuresCreate library path call.env s passphrase aliasName)
  | unlock passphrase =>
      exact ensuresOpened ((ensuresLoad library path call.env passphrase s).weaken (fun _ _ _ _ => trivial) fun _ _ _ same => same)
  | changePassphrase oldPassphrase newPassphrase =>
      exact (ensuresChange library path call.env s oldPassphrase newPassphrase).weaken (fun _ _ ran _ => ran)
        fun _ _ _ same => same
  | rotateServiceScopedKey place passphrase =>
      rw [ensuresBind]
      refine (ensuresObjectAt place s).weaken ?_ fun _ _ _ same => same
      intro object _ _ there
      obtain ⟨rfl, found⟩ := there
      rw [ensuresBind]
      exact (ensuresRotate library path call.env _ object passphrase).weaken
        (fun rebuilt u ran _ => ⟨object, rebuilt, u, found, ran, rfl⟩) fun _ _ _ same => same
  | lock place =>
      rw [ensuresBind]
      refine (ensuresObjectAt place s).weaken ?_ fun _ _ _ same => same
      intro object _ _ there
      obtain ⟨rfl, found⟩ := there
      exact ⟨object, found, rfl⟩

theorem callsAtomic : Atomic (perform library path) := by
  intro s call e t threw
  have kept := ensuresPerform library path call s
  unfold Ensures at kept
  rwa [threw] at kept

end Calls

end IdentityKeystore
end TradeP2P
