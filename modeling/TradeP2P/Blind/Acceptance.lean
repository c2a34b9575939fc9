import TradeP2P.Blind.Completeness

/-! What an accepted presentation proves: a signature of the signer's on one target, and of that target the serial. -/
namespace TradeP2P.Prover
open Wire (Bytes ascii bigEndian)

/-! The two verifiers, from the guest's to the signer's. -/

theorem relationVerifies {ring : Blns7933.RingArithmetic} {t c s0 s1 : List Int} {bound : Int} (canonicalT : Blns7933.Canonical ring t)
    (canonicalC : Blns7933.Canonical ring c) (width0 : s0.length ≤ ring.degree) (width1 : s1.length ≤ ring.degree)
    (short : Blns7933.normSquared ⟨s0, s1⟩ ≤ bound)
    (relation : Blns7933.residue ring t * Blns7933.residue ring s0 + Blns7933.residue ring s1 = Blns7933.residue ring c) :
    Blns7933.verifyTarget ring ⟨t⟩ c ⟨s0, s1⟩ bound = .ok true := by
  obtain ⟨product, multiplied⟩ := Blns7933.mulTotal canonicalT.width.le width0
  obtain ⟨canonicalProduct, worth⟩ := Blns7933.mulMeaning multiplied
  obtain ⟨lhs, added⟩ := Blns7933.addTotal canonicalProduct.width.le width1
  obtain ⟨canonicalLhs, sum⟩ := Blns7933.addMeaning added
  have same : lhs = c := Blns7933.canonicalInj canonicalLhs canonicalC (by rw [sum, worth, relation])
  rw [Blns7933.verifyComputed short multiplied added, Blns7933.equalCanonical canonicalLhs canonicalC, decide_eq_true same]

theorem intsVerified {ring : Blns7933.RingArithmetic} (degree : ring.degree = n) (modulus : ring.modulus = 7933)
    {t c s0 s1 : List Int64} {bound : Int} (canonicalT : Canonical t) (canonicalC : Canonical c) (width0 : s0.length = n)
    (width1 : s1.length = n) (short : squares s0 + squares s1 ≤ bound) (relation : residue t * residue s0 + residue s1 = residue c) :
    Blns7933.verifyTarget ring ⟨ints t⟩ (ints c) ⟨ints s0, ints s1⟩ bound = .ok true := by
  refine relationVerifies (canonicalInts degree modulus canonicalT) (canonicalInts degree modulus canonicalC) ?_ ?_ ?_
    ((relationInts degree modulus t c s0 s1).mpr relation)
  · rw [ints, List.length_map, width0, degree]
  · rw [ints, List.length_map, width1, degree]
  · rw [normInts]
    exact short

namespace Presentation
variable (hashes : Hashes)

/- The target of a blinding, as the guest computes it again from the opened message. -/
def blindedTarget (draws : Nat) (b : List UInt16) (r : List Int32) (mu : Bytes) : Option (List Int64) := do
  let hashTerm ← hashToPoint hashes draws (hOfRhoMu hashes (gOfR hashes r).toList mu)
  let br ← polyMulModQKaratsuba (ofU16 b) (ofI32 r)
  addModQ br hashTerm

def presentedMu (input : CredentialPresentationInput) : Bytes := credentialMu input.issuerScope input.epoch input.serial

/- What was signed for the credential that an input presents. -/
def TargetOf (input : CredentialPresentationInput) (c : List Int64) : Prop :=
  ∃ draws, blindedTarget hashes draws input.b input.r (presentedMu input) = some c

variable {hashes} {input : CredentialPresentationInput}

theorem targetUnique {c c' : List Int64} (one : TargetOf hashes input c) (other : TargetOf hashes input c') : c = c' := by
  obtain ⟨draws, target⟩ := one
  obtain ⟨draws', target'⟩ := other
  simp only [blindedTarget, Option.bind_eq_bind, Option.bind_eq_some_iff] at target target'
  obtain ⟨point, hashed, br, product, sum⟩ := target
  obtain ⟨point', hashed', br', product', sum'⟩ := target'
  obtain rfl := hashesToUnique ⟨draws, hashed⟩ ⟨draws', hashed'⟩
  obtain rfl := Option.some.inj (product.symm.trans product')
  exact Option.some.inj (sum.symm.trans sum')

/- Nothing of a credential's text is lost: it is read back to its scope, its epoch and its serial. -/
theorem credentialMuInj {scope scope' : UInt8} {epoch epoch' : UInt32} {serial serial' : Vector UInt8 32}
    (same : credentialMu scope epoch serial = credentialMu scope' epoch' serial') :
    scope = scope' ∧ epoch = epoch' ∧ serial = serial' := by
  simp only [credentialMu, appendHexLowerText] at same
  have bytes := Credential.hexBytesInj (List.append_cancel_left same)
  simp only [List.append_assoc] at bytes
  have fields := List.append_cancel_left (List.append_cancel_left bytes)
  simp only [List.cons_append, List.nil_append, List.cons.injEq, Wire.u32Front, Wire.fixedFront] at fields
  exact ⟨fields.1, fields.2.1, fields.2.2.1⟩

theorem boundedSquares {v : List Int32} (bounded : signatureWitnessIsSafelyBounded v = true) :
    squares (ofI32 v) ≤ 512 * 110229001 := by
  obtain ⟨width, small⟩ := boundedOk.mp bounded
  have entries : ∀ x ∈ (ofI32 v).map fun x => x.toInt * x.toInt, x ≤ 110229001 := by
    intro x mem
    obtain ⟨y, inside, rfl⟩ := List.mem_map.mp mem
    obtain ⟨z, among, rfl⟩ := List.mem_map.mp inside
    have limits := small z among
    rw [maxSignatureCoeffAbs] at limits
    simp only [Int32.toInt_toInt64]
    nlinarith
  have total := List.sum_le_card_nsmul _ _ entries
  rw [List.length_map, ofI32, List.length_map, width] at total
  simpa [squares, ofI32, n] using total

/- What the guest has checked of an input it accepts. -/
theorem acceptedChecked {draws : Nat} {out : CredentialPresentationPublicOutput} (ran : main hashes draws input = some out)
    (valid : out.valid = true) : shapeOk input = true ∧ checkCredential hashes draws input = some true := by
  simp only [main, Option.bind_eq_bind] at ran
  split_ifs at ran with shape
  · obtain ⟨verdict, checked, made⟩ := Option.bind_eq_some_iff.mp ran
    cases made
    have holds : verdict = true := valid
    rw [holds] at checked
    exact ⟨shape, checked⟩
  · cases ran
    cases valid

/- An accepted input carries a signature that the signer's own verifier accepts on the input's target. -/
theorem acceptedSigned {draws : Nat} {out : CredentialPresentationPublicOutput} (ran : main hashes draws input = some out)
    (valid : out.valid = true) : ∃ c, TargetOf hashes input c ∧ Canonical c ∧
      Blns7933.verifyTarget Blns7933.productionRing ⟨ints (ofU16 input.t)⟩ (ints c) ⟨ints (ofI32 input.s0), ints (ofI32 input.s1)⟩
        Blns7933.productionNormBoundSquared = .ok true := by
  obtain ⟨shape, checked⟩ := acceptedChecked ran valid
  simp only [shapeOk, Bool.and_eq_true, beq_iff_eq] at shape
  obtain ⟨⟨⟨⟨⟨⟨⟨canonicalT, canonicalB⟩, widthR⟩, _⟩, bounded0⟩, bounded1⟩, _⟩, _⟩ := shape
  obtain ⟨width0, _⟩ := boundedOk.mp bounded0
  obtain ⟨width1, _⟩ := boundedOk.mp bounded1
  have ringPoly {v : List UInt16} (canonical : canonicalRingPoly v = true) : Canonical (ofU16 v) := by
    obtain ⟨width, reduced⟩ := canonicalRingPolyOk.mp canonical
    exact canonicalOfU16 width fun x mem => by
      have small := reduced x mem
      unfold q at small
      omega
  simp only [checkCredential, Option.bind_eq_bind, Option.bind_eq_some_iff] at checked
  obtain ⟨point, hashed, br, product, c, sum, related, relation, norm, summed, made⟩ := checked
  have holds := Option.some.inj made
  simp only [Bool.and_eq_true, decide_eq_true_eq] at holds
  obtain ⟨⟨rfl, short⟩, _⟩ := holds
  obtain ⟨br', c', product', sum', canonicalC, _⟩ := targetMeaning (canonicalRingPolyOk.mp canonicalB).1 widthR.ge (hashToPointCanonical hashed)
  obtain rfl := Option.some.inj (product.symm.trans product')
  obtain rfl := Option.some.inj (sum.symm.trans sum')
  obtain ⟨verdict, decided, meaning⟩ := relationMeaning (ofI32 input.s0) (ofI32 input.s1) (ringPoly canonicalT).width (u16Within _)
    (i32Within _) (i32Within _) (by simp [ofI32, width0]) (by simp [ofI32, width1]) canonicalC
  obtain rfl := Option.some.inj (relation.symm.trans decided)
  obtain ⟨total, added, wrapped⟩ := normMeaning (ofI32 input.s0) (ofI32 input.s1) (by simp [ofI32, width0]) (by simp [ofI32, width1])
  obtain rfl := Option.some.inj (summed.symm.trans added)
  have same := meaning.mp rfl
  rw [← front, ← front, frontWhole width0, frontWhole width1] at same wrapped
  have exact_ : squares (ofI32 input.s0) + squares (ofI32 input.s1) ≤ normBoundSquared := by
    have positive0 := squaresNonneg (ofI32 input.s0)
    have positive1 := squaresNonneg (ofI32 input.s1)
    have small0 := boundedSquares bounded0
    have small1 := boundedSquares bounded1
    rw [wrapped, Int.bmod_eq_of_le (by omega) (by omega)] at short
    exact short
  refine ⟨c, ⟨draws, ?_⟩, canonicalC, ?_⟩
  · simp only [blindedTarget, presentedMu, hashed, product, sum, Option.bind_eq_bind, Option.bind_some]
  · exact intsVerified rfl rfl (ringPoly canonicalT) canonicalC (by simp [ofI32, width0]) (by simp [ofI32, width1]) exact_ same

end Presentation
end TradeP2P.Prover
