import TradeP2P.Lib.Aead
import TradeP2P.Lib.Fields
import TradeP2P.Lib.Machine
import TradeP2P.Protocol.Crypto
import TradeP2P.Registry.Server

/-! The keystore: a master secret in a file, sealed under a key derived from a passphrase. Any number of
objects may be open on the file at a time, each with what it read or wrote last. -/
namespace TradeP2P
open Wire (Bytes Reader ascii bigEndian prefixed readAll takePrefixed takePrefixed32)
open Checks Machine
open Aead (Cipher Sealed)

inductive KeystoreError where
  | format (text : String)
  | authentication (text : String)
  | alreadyExists (text : String)
  | standard (e : Error)
  deriving DecidableEq, Repr

abbrev MasterSecret := Vector UInt8 32
abbrev IdentityId := Vector UInt8 16

def keystoreFormatVersion : UInt16 := 1
def keystoreMaxAliasLength : Nat := 255
def keystoreMagic : Vector UInt8 4 := #v[0x54, 0x50, 0x4b, 0x53]
def keystorePayloadVersion : UInt8 := 1
def maxKdfSaltLength : Nat := 256
def keystoreMaxCiphertextLength : Nat := 4096
def argon2DefaultMemCostKib : UInt32 := 65536
def argon2DefaultIterations : UInt32 := 3
def argon2DefaultLanes : UInt32 := 4
def pbkdf2FallbackIterations : UInt32 := 600000
def keystoreIdentityLabel : Bytes := ascii "keystore-identity"

inductive KdfAlgorithm where | argon2id | pbkdf2Sha256Fallback
  deriving DecidableEq, Repr

inductive AeadAlgorithm where | chaCha20Poly1305
  deriving DecidableEq, Repr

def KdfAlgorithm.toByte : KdfAlgorithm → UInt8
  | .argon2id => 1
  | .pbkdf2Sha256Fallback => 2

def AeadAlgorithm.toByte : AeadAlgorithm → UInt8
  | .chaCha20Poly1305 => 1

/- The functions of the library. -/
structure KeystoreLibrary where
  argon2id : (passphrase salt : Bytes) → (memcost iterations lanes : UInt32) → Aead.Key
  pbkdf2Sha256 : (passphrase salt : Bytes) → (iterations : UInt32) → Aead.Key
  cipher : Cipher
  hkdfSha256 : MasterSecret → (info : Bytes) → Vector UInt8 32
  ed25519PublicKey : Ed25519PrivateSeed → Ed25519PublicKey

structure Ed25519KeyPair where
  privateSeed : Ed25519PrivateSeed
  publicKey : Ed25519PublicKey
  deriving DecidableEq, Repr

/-! Keys derived from the master secret. -/
section Derivation
variable (library : KeystoreLibrary)

def encodeDerivationInfo (label identifier : Bytes) : Except Error Bytes := do
  throwIf (label.length > 255) (Error.invalidArgument "derivation label exceeds maximum length")
  throwIf (identifier.length > 65535) (Error.invalidArgument "derivation identifier exceeds maximum length")
  return bigEndian 1 label.length ++ (label ++ prefixed identifier)

def deriveScopedKey (masterSecret : MasterSecret) (label identifier : Bytes) : Except Error (Vector UInt8 32) := do
  let info ← encodeDerivationInfo label identifier
  return library.hkdfSha256 masterSecret info

def deriveEd25519Keypair (masterSecret : MasterSecret) (label identifier : Bytes) : Except Error Ed25519KeyPair := do
  let derived ← deriveScopedKey library masterSecret label identifier
  return ⟨derived, library.ed25519PublicKey derived⟩

def deriveAeadKey (algorithm : KdfAlgorithm) (passphrase salt : Bytes) (memcost iterations lanes : UInt32) : Aead.Key :=
  match algorithm with
  | .argon2id => library.argon2id passphrase salt memcost iterations lanes
  | .pbkdf2Sha256Fallback => library.pbkdf2Sha256 passphrase salt iterations

end Derivation

/-! The file. -/

namespace KeystoreCodec

def truncated : KeystoreError := .format "truncated keystore file"
def trailing : KeystoreError := .format "trailing bytes after keystore record"
def tooLong : KeystoreError := .format "keystore field exceeds maximum allowed length"

abbrev u8 : Reader KeystoreError UInt8 := Wire.u8 truncated
abbrev u16 : Reader KeystoreError UInt16 := Wire.u16 truncated
abbrev u32 : Reader KeystoreError UInt32 := Wire.u32 truncated
abbrev u64 : Reader KeystoreError UInt64 := Wire.u64 truncated
abbrev fixed (n : Nat) : Reader KeystoreError (Vector UInt8 n) := Wire.fixed truncated n
abbrev bytesU16 (maxLen : Nat) : Reader KeystoreError Bytes := takePrefixed truncated tooLong maxLen
abbrev bytesU32 (maxLen : Nat) : Reader KeystoreError Bytes := takePrefixed32 truncated tooLong maxLen

structure DecodedPayload where
  masterSecret : MasterSecret
  keyGeneration : UInt32
  deriving DecidableEq, Repr

def encodePayload (secret : MasterSecret) (keyGeneration : UInt32) : Bytes :=
  [keystorePayloadVersion] ++ (secret.toList ++ bigEndian 4 keyGeneration.toNat)

def readPayload : Reader KeystoreError DecodedPayload := do
  let version ← u8
  throwIf (version ≠ keystorePayloadVersion) (KeystoreError.format "unsupported keystore payload version")
  let masterSecret ← fixed 32
  let keyGeneration ← u32
  return { masterSecret, keyGeneration }

def decodePayload (plaintext : Bytes) : Except KeystoreError DecodedPayload := readAll trailing readPayload plaintext

-- What stands in the clear, and is the associated data of the payload.
structure Header where
  identityId : IdentityId
  aliasName : Bytes
  createdAt : UInt64
  kdfAlgorithm : KdfAlgorithm
  kdfSalt : Bytes
  kdfMemcostKib : UInt32
  kdfIterations : UInt32
  kdfLanes : UInt32
  aeadAlgorithm : AeadAlgorithm
  identityPublicKey : Ed25519PublicKey
  deriving DecidableEq, Repr

structure DecodedFile where
  formatVersion : UInt16
  header : Header
  nonce : Aead.Nonce
  ciphertext : Bytes
  tag : Aead.Tag
  aad : Bytes
  deriving DecidableEq, Repr

def readKdfAlgorithm : Reader KeystoreError KdfAlgorithm := do
  let raw ← u8
  if raw = KdfAlgorithm.argon2id.toByte then return .argon2id
  else if raw = KdfAlgorithm.pbkdf2Sha256Fallback.toByte then return .pbkdf2Sha256Fallback
  else throw (.format "unknown KDF algorithm identifier")

def readAeadAlgorithm : Reader KeystoreError AeadAlgorithm := do
  let raw ← u8
  if raw = AeadAlgorithm.chaCha20Poly1305.toByte then return .chaCha20Poly1305
  else throw (.format "unknown AEAD algorithm identifier")

def readFile (bytes : Bytes) : Reader KeystoreError DecodedFile := do
  let magic ← fixed 4
  throwIf (magic ≠ keystoreMagic) (KeystoreError.format "not a tradep2p identity keystore file (bad magic)")
  let formatVersion ← u16
  throwIf (formatVersion ≠ keystoreFormatVersion) (KeystoreError.format "unsupported keystore format version")
  let identityId ← fixed 16
  let aliasName ← bytesU16 keystoreMaxAliasLength
  let createdAt ← u64
  let kdfAlgorithm ← readKdfAlgorithm
  let kdfSalt ← bytesU16 maxKdfSaltLength
  let kdfMemcostKib ← u32
  let kdfIterations ← u32
  let kdfLanes ← u32
  let aeadAlgorithm ← readAeadAlgorithm
  let identityPublicKey ← fixed 32
  let aadLength ← Wire.position bytes
  let nonce ← fixed 12
  let ciphertext ← bytesU32 keystoreMaxCiphertextLength
  let tag ← fixed 16
  let header : Header := { identityId, aliasName, createdAt, kdfAlgorithm, kdfSalt, kdfMemcostKib, kdfIterations, kdfLanes,
                           aeadAlgorithm, identityPublicKey }
  return { formatVersion, header, nonce, ciphertext, tag, aad := bytes.take aadLength }

def decodeFile (bytes : Bytes) : Except KeystoreError DecodedFile := readAll trailing (readFile bytes) bytes

def writeU16 (value : Bytes) : Except Error Bytes :=
  Wire.lengthPrefixed (.invalidArgument "keystore field exceeds u16 length prefix") value 65535

def encodeHeader (header : Header) : Except Error Bytes := do
  let aliasName ← writeU16 header.aliasName
  let kdfSalt ← writeU16 header.kdfSalt
  return keystoreMagic.toList ++ (bigEndian 2 keystoreFormatVersion.toNat ++ (header.identityId.toList ++ (aliasName ++
    (bigEndian 8 header.createdAt.toNat ++ ([header.kdfAlgorithm.toByte] ++ (kdfSalt ++
    (bigEndian 4 header.kdfMemcostKib.toNat ++ (bigEndian 4 header.kdfIterations.toNat ++
    (bigEndian 4 header.kdfLanes.toNat ++ ([header.aeadAlgorithm.toByte] ++ header.identityPublicKey.toList))))))))))

def encodeFile (aad : Bytes) (nonce : Aead.Nonce) (sealing : Sealed) : Except Error Bytes := do
  throwIf (sealing.ciphertext.length > 4294967295) (Error.invalidArgument "keystore field exceeds u32 length prefix")
  return aad ++ (nonce.toList ++ (bigEndian 4 sealing.ciphertext.length ++ (sealing.ciphertext ++ sealing.tag.toList)))

end KeystoreCodec
open KeystoreCodec

/-! The objects, and the file they are open on. -/

structure IdentityKeystore where
  formatVersion : UInt16
  header : Header
  keyGeneration : UInt32
  masterSecret : Option MasterSecret
  deriving DecidableEq, Repr

/- What a call meets outside: whether Argon2id is there, what is drawn at random, the time, and which of the
library's and the file system's own steps fail. -/
structure KeystoreEnv where
  argon2idAvailable : Bool
  nowUnixSeconds : UInt64
  identityId : Except Error IdentityId
  masterSecret : Except Error MasterSecret
  kdfSalt : Except Error (Vector UInt8 16)
  nonce : Except Error Aead.Nonce
  readFileAll : Except Error Unit
  deriveToRead : Except Error Unit
  deriveToWrite : Except Error Unit
  write : Except Error Unit

structure KeystoreWorld where
  file : Option Bytes := none
  objects : List IdentityKeystore := []
  deriving DecidableEq, Repr

abbrev KeystoreM := EStateM KeystoreError KeystoreWorld

namespace IdentityKeystore

def standardly {α : Type} : Except Error α → Except KeystoreError α
  | .ok value => .ok value
  | .error e => .error (.standard e)

def wrongPassphrase : KeystoreError := .authentication "keystore authentication failed (wrong passphrase or corrupted file)"

section Files
variable (library : KeystoreLibrary) (path : String) (env : KeystoreEnv)

def readFileAll : KeystoreM Bytes := do
  let s ← get
  match s.file with
  | none => throw (.standard (.runtimeError ("cannot open keystore file: " ++ path)))
  | some raw => do
      standardly env.readFileAll
      return raw

def writeNewExclusive (bytes : Bytes) : KeystoreM Unit := do
  let s ← get
  throwIf s.file.isSome (KeystoreError.alreadyExists ("refusing to overwrite existing file: " ++ path))
  standardly env.write
  set { s with file := some bytes }

-- The file is replaced by a rename, after everything that can fail.
def writeReplaceAtomic (bytes : Bytes) : KeystoreM Unit := do
  let s ← get
  standardly env.write
  set { s with file := some bytes }

def chacha20poly1305Seal (key : Aead.Key) (nonce : Aead.Nonce) (aad plaintext : Bytes) : Except KeystoreError Sealed :=
  match library.cipher.encrypt key nonce aad plaintext with
  | some sealing => .ok sealing
  | none => .error (.standard (.runtimeError "failed to encrypt keystore payload"))

def chacha20poly1305Open (key : Aead.Key) (nonce : Aead.Nonce) (aad ciphertext : Bytes) (tag : Aead.Tag) :
    Except KeystoreError Bytes :=
  match library.cipher.decrypt key nonce aad ciphertext tag with
  | some plaintext => .ok plaintext
  | none => .error wrongPassphrase

def headerKey (header : Header) (passphrase : Bytes) : Aead.Key :=
  deriveAeadKey library header.kdfAlgorithm passphrase header.kdfSalt header.kdfMemcostKib header.kdfIterations header.kdfLanes

-- The parameters depend on which algorithm there is.
def freshHeader (identityId : IdentityId) (aliasName : Bytes) (createdAt : UInt64) (kdfSalt : Vector UInt8 16)
    (identityPublicKey : Ed25519PublicKey) : Header :=
  { identityId, aliasName, createdAt, identityPublicKey
    kdfAlgorithm := if env.argon2idAvailable then .argon2id else .pbkdf2Sha256Fallback
    kdfSalt := kdfSalt.toList
    kdfMemcostKib := if env.argon2idAvailable then argon2DefaultMemCostKib else 0
    kdfIterations := if env.argon2idAvailable then argon2DefaultIterations else pbkdf2FallbackIterations
    kdfLanes := if env.argon2idAvailable then argon2DefaultLanes else 0
    aeadAlgorithm := .chaCha20Poly1305 }

def buildAndWrite (passphrase aliasName : Bytes) (createdAt : UInt64) (identityId : IdentityId) (keyGeneration : UInt32)
    (masterSecret : MasterSecret) (allowOverwrite : Bool) : KeystoreM IdentityKeystore := do
  throwIf (aliasName.length > keystoreMaxAliasLength)
    (KeystoreError.standard (.invalidArgument "alias exceeds maximum length"))
  let kdfSalt ← standardly env.kdfSalt
  standardly env.deriveToWrite
  let identityPair ← standardly (deriveEd25519Keypair library masterSecret keystoreIdentityLabel [])
  let nonce ← standardly env.nonce
  let header := freshHeader env identityId aliasName createdAt kdfSalt identityPair.publicKey
  let aad ← standardly (encodeHeader header)
  let sealing ← chacha20poly1305Seal library (headerKey library header passphrase) nonce aad
    (encodePayload masterSecret keyGeneration)
  let bytes ← standardly (encodeFile aad nonce sealing)
  if allowOverwrite then writeReplaceAtomic env bytes else writeNewExclusive path env bytes
  return { formatVersion := keystoreFormatVersion, header, keyGeneration, masterSecret := some masterSecret }

def load (passphrase : Bytes) : KeystoreM IdentityKeystore := do
  let raw ← readFileAll path env
  let decoded ← decodeFile raw
  standardly env.deriveToRead
  let plaintext ← chacha20poly1305Open library (headerKey library decoded.header passphrase) decoded.nonce decoded.aad
    decoded.ciphertext decoded.tag
  let payload ← decodePayload plaintext
  let recomputed ← standardly (deriveEd25519Keypair library payload.masterSecret keystoreIdentityLabel [])
  throwIf (recomputed.publicKey ≠ decoded.header.identityPublicKey) wrongPassphrase
  return { formatVersion := decoded.formatVersion, header := decoded.header, keyGeneration := payload.keyGeneration
           masterSecret := some payload.masterSecret }

def create (passphrase aliasName : Bytes) : KeystoreM IdentityKeystore := do
  let identityId ← standardly env.identityId
  let masterSecret ← standardly env.masterSecret
  buildAndWrite library path env passphrase aliasName env.nowUnixSeconds identityId 0 masterSecret false

def unlock (passphrase : Bytes) : KeystoreM IdentityKeystore := load library path env passphrase

def changePassphrase (oldPassphrase newPassphrase : Bytes) : KeystoreM Unit := do
  let existing ← load library path env oldPassphrase
  match existing.masterSecret with
  | none => throw (.standard (.logicError "internal error: freshly loaded keystore was not unlocked"))
  | some masterSecret => do
      let _ ← buildAndWrite library path env newPassphrase existing.header.aliasName existing.header.createdAt
        existing.header.identityId existing.keyGeneration masterSecret true
      return ()

-- The file is loaded to check the passphrase only: the generation that counts is the object's own.
def rotateServiceScopedKey (self : IdentityKeystore) (passphrase : Bytes) : KeystoreM IdentityKeystore := do
  match self.masterSecret with
  | none => throw (.standard (.logicError "cannot rotate a service-scoped key on a locked keystore"))
  | some masterSecret => do
      let _ ← load library path env passphrase
      let newGeneration := self.keyGeneration + 1
      buildAndWrite library path env passphrase self.header.aliasName self.header.createdAt self.header.identityId newGeneration
        masterSecret true

end Files

def lock (self : IdentityKeystore) : IdentityKeystore := { self with masterSecret := none }

-- Which generation it is stands before the identifier.
def scopedIdentifier (keyGeneration : UInt32) (identifier : Bytes) : Bytes :=
  decimal keyGeneration.toNat ++ (0x23 :: identifier)

def deriveScopedKeypair (library : KeystoreLibrary) (self : IdentityKeystore) (label identifier : Bytes) :
    Except Error Ed25519KeyPair := do
  match self.masterSecret with
  | none => throw (.logicError "cannot derive a scoped keypair from a locked keystore")
  | some masterSecret => deriveEd25519Keypair library masterSecret label (scopedIdentifier self.keyGeneration identifier)

/-! Calls. An object goes by its place among those that are open. -/

inductive Action where
  | create (passphrase aliasName : Bytes)
  | unlock (passphrase : Bytes)
  | changePassphrase (oldPassphrase newPassphrase : Bytes)
  | rotateServiceScopedKey (place : Nat) (passphrase : Bytes)
  | lock (place : Nat)
  deriving DecidableEq, Repr

structure Call where
  env : KeystoreEnv
  action : Action

def opened (made : KeystoreM IdentityKeystore) : KeystoreM Unit := do
  let object ← made
  modify fun s => { s with objects := s.objects ++ [object] }

def objectAt (place : Nat) : KeystoreM IdentityKeystore := do
  let s ← get
  match s.objects[place]? with
  | some object => return object
  | none => throw (.standard (.logicError "no such object"))

def perform (library : KeystoreLibrary) (path : String) : Object KeystoreError KeystoreWorld Call := fun call =>
  match call.action with
  | .create passphrase aliasName => opened (create library path call.env passphrase aliasName)
  | .unlock passphrase => opened (unlock library path call.env passphrase)
  | .changePassphrase oldPassphrase newPassphrase => changePassphrase library path call.env oldPassphrase newPassphrase
  | .rotateServiceScopedKey place passphrase => do
      let object ← objectAt place
      let rebuilt ← rotateServiceScopedKey library path call.env object passphrase
      modify fun s => { s with objects := s.objects.set place rebuilt }
  | .lock place => do
      let object ← objectAt place
      modify fun s => { s with objects := s.objects.set place object.lock }

end IdentityKeystore
end TradeP2P
