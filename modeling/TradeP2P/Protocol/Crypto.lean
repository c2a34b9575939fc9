import TradeP2P.Protocol.Terms

/-! The cryptographic library behind the identity layer. Its functions are parameters; what
the program relies on is that a signature it made verifies. -/
namespace TradeP2P
open Wire (Bytes)

abbrev Ed25519PrivateSeed := Vector UInt8 32
abbrev Ed25519PublicKey := Vector UInt8 32
abbrev Ed25519Signature := Vector UInt8 64
abbrev MlDsa65PrivateSeed := Vector UInt8 32
abbrev MlDsa65PublicKey := Vector UInt8 1952
abbrev MlDsa65Signature := Vector UInt8 3309

/- Loading a key or computing a signature throws when the library reports a failure. Signing
may use fresh randomness, `entropy`. -/
structure SignatureScheme (Seed Key Signature : Type) where
  publicKey : Seed → Key
  sign : Seed → (entropy message : Bytes) → Except Error Signature
  verify : Key → (message : Bytes) → Signature → Except Error Bool

def SignatureScheme.Correct {Seed Key Signature : Type} (scheme : SignatureScheme Seed Key Signature) : Prop :=
  ∀ seed entropy message signature, scheme.sign seed entropy message = .ok signature →
    scheme.verify (scheme.publicKey seed) message signature = .ok true

structure Crypto where
  sha256 : Bytes → Vector UInt8 32
  ed25519 : SignatureScheme Ed25519PrivateSeed Ed25519PublicKey Ed25519Signature
  mldsa65 : SignatureScheme MlDsa65PrivateSeed MlDsa65PublicKey MlDsa65Signature

structure Crypto.Correct (crypto : Crypto) : Prop where
  ed25519 : crypto.ed25519.Correct
  mldsa65 : crypto.mldsa65.Correct

/- What the library documents of verification: any key and signature of the right size get an answer,
and a signature goes with one key and one message. -/
def SignatureScheme.Decides {Seed Key Signature : Type} (scheme : SignatureScheme Seed Key Signature) : Prop :=
  ∀ key message signature, ∃ verdict, scheme.verify key message signature = .ok verdict

def SignatureScheme.Binds {Seed Key Signature : Type} (scheme : SignatureScheme Seed Key Signature) (key : Key)
    (message : Bytes) (signature : Signature) : Prop :=
  ∀ key' message', scheme.verify key' message' signature = .ok true → key' = key ∧ message' = message

/- A scheme of a few known signatures. -/
section Table
variable {Seed Key Signature : Type} [DecidableEq Key] [DecidableEq Signature]

def signatureTable (publicKey : Seed → Key) (entries : List (Key × Bytes × Signature)) :
    SignatureScheme Seed Key Signature where
  publicKey
  sign seed _ message :=
    match entries.find? (fun entry => entry.1 = publicKey seed ∧ entry.2.1 = message) with
    | some entry => .ok entry.2.2
    | none => .error (.runtimeError "EVP_DigestSign failed")
  verify key message signature := .ok (decide ((key, message, signature) ∈ entries))

variable {publicKey : Seed → Key} {entries : List (Key × Bytes × Signature)}

theorem tableVerifies {key : Key} {message : Bytes} {signature : Signature} :
    (signatureTable publicKey entries).verify key message signature = .ok true ↔ (key, message, signature) ∈ entries := by
  simp [signatureTable]

theorem tableSigns (publicKey : Seed → Key) (seed : Seed) {entropy message : Bytes} {first : Key × Bytes × Signature}
    {key : Key} {signature : Signature} (own : publicKey seed = key) (other : first.1 ≠ key ∨ first.2.1 ≠ message) :
    (signatureTable publicKey [first, (key, message, signature)]).sign seed entropy message = .ok signature := by
  cases other with
  | inl keys => simp [signatureTable, own, keys]
  | inr messages => simp [signatureTable, own, messages]

theorem tableDecides : (signatureTable publicKey entries).Decides := fun _ _ _ => ⟨_, rfl⟩

theorem tableCorrect : (signatureTable publicKey entries).Correct := by
  intro seed entropy message signature signed
  rw [tableVerifies]
  simp only [signatureTable] at signed
  split at signed
  · next entry found =>
      have known : (entry.1, entry.2.1, entry.2.2) ∈ entries := List.mem_of_find?_eq_some found
      have matching := List.find?_some found
      simp only [Bool.decide_and, Bool.and_eq_true, decide_eq_true_eq] at matching
      obtain ⟨key, same⟩ := matching
      rw [key, same] at known
      cases signed
      exact known
  · cases signed

end Table
end TradeP2P
