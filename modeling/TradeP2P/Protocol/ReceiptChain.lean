import Mathlib.Data.List.Chain
import TradeP2P.Protocol.Receipt

/-! Which lists of receipts pass as the chain of one room. -/
namespace TradeP2P
open Wire (Bytes)
open Checks

abbrev ReceiptKeys := Ed25519PublicKey × MlDsa65PublicKey

def IssuedReceipt.mediatorKeys (r : IssuedReceipt) : ReceiptKeys :=
  (r.fields.mediatorPublicKey, r.fields.mediatorPublicKeyMldsa65)

/- The chain of one room, each receipt verified under the keys given for it. -/
structure ReceiptChain (crypto : Crypto) (keys : IssuedReceipt → ReceiptKeys) (chain : List IssuedReceipt) : Prop where
  nonempty : chain ≠ []
  verified : ∀ r ∈ chain, verifyReceiptHybrid crypto (keys r).1 (keys r).2 r = .ok true
  agree : ∀ r ∈ chain, ∀ other ∈ chain, r.fields.SharesRoom other.fields
  known : ∀ r ∈ chain, r.fields.stage ∈ [1, 2, 3, 4]
  increasing : chain.Pairwise (fun r later => r.fields.stage < later.fields.stage)
  genesis : ∀ r ∈ chain.head?, r.fields.previousStageHash = genesisStageHash
  linked : chain.IsChain (fun r later => receiptChainLinkHash crypto r = .ok later.fields.previousStageHash)

section Sharing
variable {a b c : ReceiptFields}

theorem sharesRefl : a.SharesRoom a := ⟨rfl, rfl, rfl, rfl, rfl, rfl, rfl, rfl⟩

theorem sharesWith (left : a.SharesRoom c) (right : b.SharesRoom c) : a.SharesRoom b := by
  obtain ⟨room, terms, keyA, keyB, keyAMldsa65, keyBMldsa65, mediator, mediatorMldsa65⟩ := left
  obtain ⟨room', terms', keyA', keyB', keyAMldsa65', keyBMldsa65', mediator', mediatorMldsa65'⟩ := right
  exact ⟨room.trans room'.symm, terms.trans terms'.symm, keyA.trans keyA'.symm, keyB.trans keyB'.symm,
    keyAMldsa65.trans keyAMldsa65'.symm, keyBMldsa65.trans keyBMldsa65'.symm, mediator.trans mediator'.symm,
    mediatorMldsa65.trans mediatorMldsa65'.symm⟩

end Sharing

section Chains
variable {crypto : Crypto} {key : Ed25519PublicKey} {keyMldsa65 : MlDsa65PublicKey} {r : IssuedReceipt}
  {chain : List IssuedReceipt}

theorem requireKnownStageOk {stage : UInt8} {u : Unit} : requireKnownStage stage = .ok u ↔ stage ∈ [1, 2, 3, 4] := by
  rw [requireKnownStage, throwIf_ok, not_not]

/- A receipt that verifies has a payload, and so a hash for the next one to carry. -/
theorem verifiedLinks (verified : verifyReceiptHybrid crypto key keyMldsa65 r = .ok true) :
    ∃ link, receiptChainLinkHash crypto r = .ok link := by
  have signed := (verifyReceiptHybridOk.mp verified).1
  simp only [verifyReceipt, bind_ok] at signed
  obtain ⟨payload, encoded, _⟩ := signed
  simp only [receiptChainLinkHash, encoded, bind, Except.bind]
  exact ⟨_, rfl⟩

/- The rest of a chain: where it links to and which stage it must exceed are known. -/
structure ReceiptTail (crypto : Crypto) (key : Ed25519PublicKey) (keyMldsa65 : MlDsa65PublicKey) (first : ReceiptFields)
    (link : Vector UInt8 32) (previousStage : Option UInt8) (chain : List IssuedReceipt) : Prop where
  each : ∀ r ∈ chain, r.fields.stage ∈ [1, 2, 3, 4] ∧ verifyReceiptHybrid crypto key keyMldsa65 r = .ok true ∧
    r.fields.SharesRoom first
  front : ∀ r ∈ chain.head?, r.fields.previousStageHash = link
  beyond : ∀ r ∈ chain, ∀ previous ∈ previousStage, previous < r.fields.stage
  increasing : chain.Pairwise (fun r later => r.fields.stage < later.fields.stage)
  linked : chain.IsChain (fun r later => receiptChainLinkHash crypto r = .ok later.fields.previousStageHash)

theorem verifyChainFromOk {first : ReceiptFields} {link : Vector UInt8 32} {previousStage : Option UInt8} {u : Unit} :
    verifyChainFrom crypto key keyMldsa65 first link previousStage chain = .ok u ↔
      ReceiptTail crypto key keyMldsa65 first link previousStage chain := by
  induction chain generalizing link previousStage with
  | nil => exact iff_of_true rfl ⟨by simp, by simp, by simp, .nil, .nil⟩
  | cons r rest ih =>
      simp only [verifyChainFrom, bind_ok, verifyChainEntryOk]
      constructor
      · rintro ⟨next, ⟨entry, hash⟩, tail⟩
        obtain ⟨each, front, beyond, increasing, linked⟩ := ih.mp tail
        have beyondFront : ∀ previous ∈ previousStage, previous < r.fields.stage := by
          intro previous before
          have lower := entry.increases
          simpa [Option.mem_def.mp before] using lower
        refine ⟨?_, ?_, ?_, ?_, ?_⟩
        · exact List.forall_mem_cons.mpr ⟨⟨requireKnownStageOk.mp entry.known, entry.verified, entry.shares⟩, each⟩
        · simpa using entry.link
        · refine List.forall_mem_cons.mpr ⟨beyondFront, fun later mem previous before => ?_⟩
          exact UInt8.lt_trans (beyondFront previous before) (beyond later mem _ rfl)
        · exact List.pairwise_cons.mpr ⟨fun later mem => beyond later mem _ rfl, increasing⟩
        · exact List.isChain_cons.mpr ⟨fun later mem => by rw [hash, front later mem], linked⟩
      · rintro ⟨each, front, beyond, increasing, linked⟩
        obtain ⟨⟨known, verified, shares⟩, each⟩ := List.forall_mem_cons.mp each
        obtain ⟨above, increasing⟩ := List.pairwise_cons.mp increasing
        obtain ⟨next, linked⟩ := List.isChain_cons.mp linked
        obtain ⟨hash, hashed⟩ := verifiedLinks verified
        refine ⟨hash, ⟨⟨requireKnownStageOk.mpr known, verified, shares, by simpa using front, ?_⟩, hashed⟩, ih.mpr
          ⟨each, fun later mem => ?_, fun later mem previous before => ?_, increasing, linked⟩⟩
        · cases previousStage with
          | none => rfl
          | some previous => simpa using beyond r List.mem_cons_self previous rfl
        · exact Except.ok.inj ((next later mem).symm.trans hashed)
        · obtain rfl := Option.mem_some_iff.mp before
          exact above later mem

theorem verifyReceiptChainOk {u : Unit} : verifyReceiptChain crypto key keyMldsa65 chain = .ok u ↔
    ReceiptChain crypto (fun _ => (key, keyMldsa65)) chain := by
  cases chain with
  | nil => exact iff_of_false (by rintro ⟨⟩) (fun chain => chain.nonempty rfl)
  | cons first rest =>
      simp only [verifyReceiptChain, verifyChainFromOk]
      constructor
      · rintro ⟨each, front, _, increasing, linked⟩
        exact ⟨by simp, fun r mem => (each r mem).2.1,
          fun r mem other mem' => sharesWith (each r mem).2.2 (each other mem').2.2, fun r mem => (each r mem).1,
          increasing, front, linked⟩
      · rintro ⟨_, verified, agree, known, increasing, genesis, linked⟩
        exact ⟨fun r mem => ⟨known r mem, verified r mem, agree r mem first List.mem_cons_self⟩, genesis, by simp,
          increasing, linked⟩

theorem underCarriedKeys (carried : ∀ r ∈ chain, r.mediatorKeys = (key, keyMldsa65)) :
    ReceiptChain crypto (fun _ => (key, keyMldsa65)) chain ↔ ReceiptChain crypto IssuedReceipt.mediatorKeys chain := by
  have same : (∀ r ∈ chain, verifyReceiptHybrid crypto key keyMldsa65 r = .ok true) ↔
      ∀ r ∈ chain, verifyReceiptHybrid crypto r.mediatorKeys.1 r.mediatorKeys.2 r = .ok true := by
    refine forall₂_congr fun r mem => ?_
    rw [carried r mem]
  constructor
  · rintro ⟨nonempty, verified, agree, known, increasing, genesis, linked⟩
    exact ⟨nonempty, same.mp verified, agree, known, increasing, genesis, linked⟩
  · rintro ⟨nonempty, verified, agree, known, increasing, genesis, linked⟩
    exact ⟨nonempty, same.mpr verified, agree, known, increasing, genesis, linked⟩

/- Given the keys the first receipt carries, these are the keys each of them carries. -/
theorem verifyCarriedOk {first : IssuedReceipt} {rest : List IssuedReceipt} :
    verifyReceiptChain crypto first.fields.mediatorPublicKey first.fields.mediatorPublicKeyMldsa65 (first :: rest) =
      .ok () ↔ ReceiptChain crypto IssuedReceipt.mediatorKeys (first :: rest) := by
  rw [verifyReceiptChainOk]
  have carried : (∀ r ∈ first :: rest, ∀ other ∈ first :: rest, r.fields.SharesRoom other.fields) →
      ∀ r ∈ first :: rest, r.mediatorKeys = first.mediatorKeys := by
    intro agree r mem
    obtain ⟨_, _, _, _, _, _, mediator, mediatorMldsa65⟩ := agree r mem first List.mem_cons_self
    exact Prod.ext mediator mediatorMldsa65
  exact ⟨fun chain => (underCarriedKeys (carried chain.agree)).mp chain,
    fun chain => (underCarriedKeys (carried chain.agree)).mpr chain⟩

/- The verifier accepts the chains of one room whose receipts verify under the keys it is given. Given
the keys the first receipt carries, these are the keys each of them carries. -/
theorem verifyReceiptChainIff (crypto : Crypto) (chain : List IssuedReceipt) :
    (∀ key keyMldsa65, verifyReceiptChain crypto key keyMldsa65 chain = .ok () ↔
      ReceiptChain crypto (fun _ => (key, keyMldsa65)) chain) ∧
    ∀ first rest, chain = first :: rest →
      (verifyReceiptChain crypto first.fields.mediatorPublicKey first.fields.mediatorPublicKeyMldsa65 chain = .ok () ↔
        ReceiptChain crypto IssuedReceipt.mediatorKeys chain) := by
  refine ⟨fun key keyMldsa65 => verifyReceiptChainOk, ?_⟩
  intro first rest front
  rw [front]
  exact verifyCarriedOk

end Chains

/- A chain of one receipt, for a room just agreed on. The keys, the link and the signatures are the
library's, for the mediator's Ed25519 seed of threes, the holder's of fours, the other party's of
sixes, and one ML-DSA seed of fives for the mediator and the holder. -/
section Issued

-- Bytes, 64 to a number.
def words (n : Nat) (numbers : List Nat) : Vector UInt8 n :=
  Vector.ofFn fun i => UInt8.ofNat (numbers.getD (i.val / 64) 0 >>> (8 * (63 - i.val % 64)))

theorem wordsAt {n i : Nat} {numbers : List Nat} (within : i < n) :
    (words n numbers)[i] = UInt8.ofNat (numbers.getD (i / 64) 0 >>> (8 * (63 - i % 64))) := by
  simp [words]

def issuerKey : Ed25519PublicKey :=
  #v[0xed, 0x49, 0x28, 0xc6, 0x28, 0xd1, 0xc2, 0xc6, 0xea, 0xe9, 0x03, 0x38, 0x90, 0x59, 0x95, 0x61,
     0x29, 0x59, 0x27, 0x3a, 0x5c, 0x63, 0xf9, 0x36, 0x36, 0xc1, 0x46, 0x14, 0xac, 0x87, 0x37, 0xd1]

def holderKey : Ed25519PublicKey :=
  #v[0xca, 0x93, 0xac, 0x17, 0x05, 0x18, 0x70, 0x71, 0xd6, 0x7b, 0x83, 0xc7, 0xff, 0x0e, 0xfe, 0x81,
     0x08, 0xe8, 0xec, 0x45, 0x30, 0x57, 0x5d, 0x77, 0x26, 0x87, 0x93, 0x33, 0xdb, 0xda, 0xbe, 0x7c]

def otherKey : Ed25519PublicKey :=
  #v[0x8a, 0x87, 0x5f, 0xff, 0x1e, 0xb3, 0x84, 0x51, 0x57, 0x7a, 0xcd, 0x5a, 0xfe, 0xe4, 0x05, 0x45,
     0x65, 0x68, 0xdd, 0x7c, 0x89, 0xe0, 0x90, 0x86, 0x3a, 0x05, 0x57, 0xbc, 0x7a, 0xf4, 0x9f, 0x17]

def issuerSignature : Ed25519Signature :=
  #v[0xf1, 0x19, 0x10, 0x1d, 0x9e, 0xb9, 0xf4, 0x26, 0xfd, 0x57, 0x90, 0xd5, 0x94, 0xd3, 0xda, 0xd7,
     0x4f, 0xca, 0x07, 0x74, 0x94, 0xa3, 0x36, 0x00, 0x55, 0x05, 0x75, 0xa5, 0x50, 0xff, 0xf1, 0xb0,
     0xf3, 0x47, 0x19, 0xf7, 0x20, 0x7e, 0xd6, 0x3d, 0xaa, 0x24, 0x34, 0xe2, 0xa6, 0xbc, 0xb0, 0xfc,
     0xfc, 0x13, 0x9d, 0x6a, 0x67, 0xb3, 0x3b, 0x9c, 0x37, 0x2e, 0x44, 0xed, 0xbe, 0x3a, 0x52, 0x0c]

def issuedLink : Vector UInt8 32 :=
  #v[0xb6, 0x54, 0xb7, 0x32, 0x2e, 0xcb, 0x8f, 0xa5, 0xb5, 0xb6, 0x8c, 0x30, 0x50, 0x26, 0xa9, 0x07,
     0xbc, 0xbc, 0xdd, 0x4a, 0xc1, 0xf3, 0xc9, 0x6f, 0xaa, 0xcf, 0x9e, 0x98, 0x70, 0x56, 0x8e, 0xb1]

def issuerKeyMldsa65 : MlDsa65PublicKey := words 1952
  [0xbd1e29872bbf683af707f64b3252f4c9b4fdf61b6f6059a7ce4c9706b5f41588ec707926e3acc5241257a7857b6c5229c54c1ce3b3e0f0c7cd41d04d08dbdd50,
   0xa399f10016962f276c083566bf1f8996edf8f93bb8d9491365eb1c4bcc15c73def2017b29268a8302a8894bbae37fdd69e8ddd410c100aeba9ffedd47cedc846,
   0x65f2863b5db4f6570583148b070a9e3e735265e3652953e01c623b9dc4705d9a4dc5ebd27a7b7fef6f8c79331ecbf56b7492ae79022d12a8f2c9776e93f2efc5,
   0xce94cc69354a6f54f43a26adbf849f2cf1beceab02862841ef47f92000e3459e22779aabd0f66cc7b2661d1a722985620df2b00cd10780bd8f5e925aaa33bfe4,
   0xd1bc1085f3a7dd7b072356ce544b6ef36e69a10523a3a516225ec80e16e42026d70a37b91f18db9f1dd918b0b6a4e400aafeb5390bf211cffdde2e4f22cd1ca0,
   0x321a840a731793fa0aab6d3c576d4ec07881b89b395c3a0899f42a323b8e0245e6f55d935496034f2b1225d40974deb894cac18421f4a82035dbbe781616cef5,
   0x48675f6fdb525c958e0dc5f003d1d0e848ab37ddf0fea5f9a6e8999ff8d52e65675f3bf9c7d9e2b0aad9a4d258d1f4f9e2c0403a5b28ca757801cd6ea30d778b,
   0x7427d7db256a02b84a268ce5aaa79f38d042edcd09224e121b8cfc525cd6eb9daf083dd9cc130d7e147d5a8b4f1e3ef1222acfe176eaf1b9248b1c7c92787855,
   0x68c7d7c43d380aa3344c5c9e9ffdebcffa9fca423233ce13f694f72818ff2faab4c6a84408315bcb8947d31bc60f9254e8b89430f1b08d7be26b871ef6519f8a,
   0xd9c1492c7c58924044d5ef55e6d799d7a47dec3c3f9f985279d0eafbd4fcfd88cafc7da9a2903091da5544a45db6d6dc12ad328533747e9844e9153655cbf9a6,
   0x6340befadb1a49c3618e5baf21f0b68c5eb2cf6a2ff1a70bd8711ceaccea06c1413fc6d98ea9423a79b5ce37faec99a3e75c8f6a06c8c7fd1acce80ccec8fc08,
   0xc081199b011fb9e2c5c787963ec10049d1c28e48e1e3ebe673df6961eed0be45cdb02ebdf26c8fdcadfa9a13d6e4f7839f50d558acd1a2a2ea340ba38b9cb1bd,
   0xce73b730c0a68883dfebb90de05ad8c219c25b4e151e311bd9411bf4f7d6f72a1a20858de32664c0f72ae97069e75d40843951b23b6c2c7241baf8e5cbf11bbf,
   0x7260107768a91738511b38b3e2908941af000856eb01918998fe0d331fdf5a79c6e79214b46b743903175144f34493a563156651a305892901cb6d40982ca48c,
   0x38199c500debdc491681ace2e64b2f4caab3fee467137749dc72e0ac5b126f6b0d67aea9a41906ef8b2c7769d27ac5b8803da72c940d951bfef21683ced074ff,
   0x842421a5903c3c7cd0f02f72494c559bfc2aaf4e2b1c27f1cd2ecc0f9cedb91697b81028b08683670cf5b4c57b4dfa67d92f1e83962e4b5bdbe771d26a576c8e,
   0x08a388bf5f08f62b6b88715b060de0b17a16ec8a807590dbd87715ae75406698141e5c484622df81e19fbe2247c4681d9f17109ad59068e0b183a38f3c7c9077,
   0x4552b81151672cd4f9d258c639e5f94c267d17a0888cf4aaa0e41fb4120985f84f6b33a41e01b5e32ce48e871000c4c0928bc129d2273d8f54d3b483ace63867,
   0x4ef7019cab41e191dcb5156e5c83bd438e53d15ecc47c817dca09a6a8ffc1d176c9743c3588e65263c9e5e5675be37c5e63308dee254c875393702204decc0c1,
   0xe5bc25b58342eab73a9e1f7f816eb8c37f97a64b08375bb7ae2a49a2478d3ba493fbc2be91d82b6b5212804bc2550ee065ca7d6bcd2bd2e8908decc93fcdf254,
   0x42c02e5047c5faf8adedbaabf51b36248b66b6bc2f54847925a64d11b03fb0e3b47d29433ca34cfe1481d87f225a56477d20c605a797fcac1f639e921f895cd5,
   0x0d2be09861b839cb620bd3f5b82aa3194b5b2924be288524adb2c6075c88adf7a9f2247ed29eff9ef7427b88c98e52d68cf0e4ebb83abb0ab4d5627dfa5dc6fa,
   0x835ab65ee45ac492660ab3ae8d116bf3601ea819e4401f9f83d49f6469ebf1bc20add741bec7712f665b1887b3cf2e1c0f0a69f9bb4087f7de59466d06c1e514,
   0x01cc07e25386077e02ca77fc7ec24a3d407f36241085f35199b4888a6ab50805d7f403b7b39e7ea4be0168fa513633006f6c7c25ccf2499569b8114943010296,
   0xca377f1112b313ef001f0e856747202c8836d976582983c9588a5f1bdb3bce9b831dff2847cadaec0a7c72ed4042ea885e32fc1e147777603917c2a8f6e25028,
   0x25ccfa2be34322f852586d0988acad641477713132e62b7fe8396c63f81ed6b9bbae0159c601254190d23742f0b6d84c2abe19be88d47380b77841dde40727c0,
   0x160da8cb52bfd2d5ed47c9a60351fd15f201c5b70badffff56bbbab62f7b35917c6389b4145f5aa4c9847f86f17bfeb7270e46303dd101ea4babd88ebb508e50,
   0x14b601e40d0edc659155f417371e4e64804dbdcd51fb4e6f3bd255b5f78c87973cd1dfa3baae5a652a49e6e241e0841441ab5185569730fc5444d4303e7a12e2,
   0x7e8a705448c09616b27677b32eeebf19588bfdd0e76be98a86989e0fa82aea7cdf1f04ec2c1bbc59adee1b93466bee02f9d60a63ed08675835878545aa1e0910,
   0x02600eb01dfa468701c56a34c35c149f8ce9338b9d68f71a57035d8a301f2e2cbb8c00262fda11e438e4a04c5a2523229571a2bf5addd388d66377840cfc62f5,
   0xad86db439587e53893ffdd6d617c33f9d10a5be4c586782635c329e7b04b294f0000000000000000000000000000000000000000000000000000000000000000]

def issuerSignatureMldsa65 : MlDsa65Signature := words 3309
  [0x992afff76606093c1208bd34189fceaa748869784c68f2e829697e71f30f1a49225395a7b292634613221ac9cececffcd10c1cbe8c7cfd836f9e24df4d1effc7,
   0x8e225cd60cd627283d002615e6fd48f6024116d5cc843b5e2af1db8133853b6e46e2f6f2c2f9464505bdb36c8f3b828430f2591b80b9ac8ad5b1c9ba934d9bef,
   0xeaf7814e1b7b67a09de5d0313cd8df30a8421b80ba1b234463ed3acf26adedb21eb03439653ea09584aba7538ea534b6b1af35b019cf6086c865937097d7b032,
   0x1eb33c2e0c13cbb767123990c1beb84653bfed1b83236bb442f4131f2799c4cbc68d03c4314d69ac4bb7e646d990c629d1ff5f047df076587385b5ad0420bd3a,
   0x30fe0558726c45b4782d359780be10390f7b0fc2a878255d75c901010877585a0cb933ee6809a422b492883919468009518d1529efe75862fa570f754ee1e3cb,
   0x34fa1cf56be77d60579bc1295cbe4e003cfcd02f1d12911873fc398a14e071625add92b0fd3ddb1646913a036eb3d3eeba16ac27beade375375108d2bb4c2092,
   0xc1ff9ad2e3f4490ff06d0c5528d337c1da518ad31a922ccadbc1790f56f95a3395b67d92b4343366d8de3054a35223bed3ddb5f4e660d51051595005955dbd35,
   0xf8b538f485314d5c3012bb7bb09477fe039a30599f6f91dc1b280ea8c10624fb609b07d56cbda291d3a2d97b3f0e3d754689de7d755a4adcc67d362cd34ff4da,
   0x385954c082db80c65c2d563128b1ea2562b63f17a7ea330ac8740b9ca6e4d011bc33090b2ec53dde6dda0748dcffa3f6edc55d03cd64205a1dfe14a995d16e22,
   0x625461c4a81d08b6153e965d969aa52ddf8b1fd9b3983dcafe03c2168059de1ebcdc15b3233bcc2a694212f766fb7a121aca6900872e435de99324ecd84bd565,
   0xdbf7661f92909c4f76c05ac798fdb83c1c4bfa99244a7c1fbc56123c5885f510d367839d30b1e97cddc9363d128bbffdad72ebdd650a0d03bf7a23e024d623be,
   0xb0bbff71d437cf110730298d1865eb56067f5d6f96046fd2f7f805af91399bafbf53e5986706c3d39be0586d18a371ff24778dcc593f9beedfea0d0d3f78a103,
   0xe8ab6484e39dc309fee3fb2b887202eb2dd71f09a35dfdb23083924f0bfb4883c337246776f75b7c46195877aa75e070ecf9579ff7a559aa36b1336e60937539,
   0xc3d73c2772c2696ac5cdc5b37c7195e44b9269e2149596158fd3a7723580b5dd294d78dd2f629c08fa9af7a7da722253a85a09003263ed47f4b9775a622929bf,
   0x57818551d7f26096b323eb87c66aa0e7e929eab59da36b85bdf51ef42ab6bcc28e5fad23aa6ae1fa2bbead39143f2df4bafb2885712718e210d71a17cdab952a,
   0x05855055041f5bdbe87268da1ed22e7d8c8f0aabd12232fe2db1f9fa0257d42751152b92aed38e0ac92b2aecf04c6b11c4c0a7fd4cad1dcd9774644ad399faff,
   0x825109fe8092a9323d2ea1dd156e1c34de42d64fe467c6d9e848b920a72b3211f3e5e83dc9a5e783372fd5552171bf3d3394ca5f1b2d41d8dca937ff3d85cc77,
   0xa366249c7efbc9e025d9a07e779ea859289d0562b5d4f9d0c26c78492da791c5eddcfa3fa91d1be61fa83da200c01e90043412b259b2212baf0598e4a5768e4d,
   0x21177b2605d45033d1ab2a6fe6a3fe08b3eb7b280aede09028338b485ae0cd56241cde9f9cae4db0e50c430c65f802c361d6439f95c2cacaff1fbdc76c105ba6,
   0x06af5ace589f4d39eb1196cf08c1388ad76abfb7d90e336e503e601bfde648909b41dfa270aa5c0ed35dddc6b7ee3197800645f4507737f2b177f6ecc98a56a5,
   0x934bbe6811f5a9e03df562469d8ec2d13febe780ac2cfc75f377dbf8a03ec2d2d408051d9f7553fa8b7e24cc0c64414465d47f1361dc6af6f5536f4312579c80,
   0xae824a0d0f6244ed81fe3f3baee9db6ab49d2c30e1f4b6fcb9472ba5f2cc1a254b68472a939675056c78ba2ee5a066bd7135d5512b29c107871db1b226c624cb,
   0x08216e4401cdfeef40ce9c1f50ca56b3064f7bfc6e73ddf65dccab89ad52f130257ce4d3749581d3b53c56f582c5368aacca7e4e0eda197fe33d0437499693fe,
   0xe90973a9d0a9b06201bad54df72529d2c068807b0b46fb8fc468f7bddfd8b5d44a8efc85a5df8c26a09e19cf863c189470d4e995828d0323c6e47e1552a9a33a,
   0xc43820bb30bd0d0b2cf685ea5e8db47ce95f082d3c6b984654d6f407b8263b353fef1c23d8f39f6d6c9c80f1cdcbf22456ef178dff16120db937eab43ef9a485,
   0xce467b77b88b7d5b2de55a74e7ff3273ffc2b0dab5c89c3824b8e0ca33c5af7af53855e275bd563bd6c74a383495c04ed5f397bddc708978a40f35c7c6dc0781,
   0x0d3edd4346a8fdd258ee18909d62d09d1e9193ce1a7b2e66e412febe64173de5916bb87298f9a85fe9071f78afb426e31dc3cd07b7f091ed6c98d68b797ed589,
   0x1bec17525c19c8e4bc719df4058ef29d6cba9e14ad88587df937a56f1833688b11edbf29873c4a26feb711fcc14d26a4c6858854d23af93170565edd1e381e1e,
   0x2f19561fed54ceba36137b5b1d6f3d3eb335942daae7c432856834ff931da17e433c875e729592a809e8ca826cf53895027bd2ba28bdcb0580cfdce9f7b170ce,
   0x7e24a26a212eb3f75c099e1c65fa405b8795f6b3466c9038a42cf9c7c92b973903d4bd2318091a93b41f9e6c341ccf84062df4bb2e9cba1a805d3e0e225b207e,
   0xf05bf32f521a8718a3d3495abafae952445a3304d5a8f054ef639c69381dd690cc9ae40ff3f2f18fdce216074779d46153548c4c38feb080029ae623647f64bf,
   0x12ae412adfb2903627fd8584e56d0e6a1ffed53f1e4dfd116f7fc29b83e9c70ecab047da89cc812b78f59f694a17a3193369a2c200e7516766c88635785dde6f,
   0x233f4f45d69ca8344c7110d910d2d565cce8cd5e4db9a86e7e29dfb3d3433f71a773d2633a94df65d9a4488cc587e1ee4947f16f68762a7898f9772ba76b5aab,
   0x7c1157ec2384d9da42252650bef0aa44a28e8282fafa472d2358bb16f2ba7ae97a493cd439082af92a2ede7645a250c4d69e8136da007fd4ef002d7cef5d187d,
   0x9a3bc4326f1f2c84c2c3c5d023bbb5737fc855852da0b14ec256eeaa0e032abcfb092ebfcf5157b08846988cb0ddb51c620c930b3c7af4f8009a3e35faa9c064,
   0x5744d99eb6b1adaf5c8fc18f2b246124b4651fff6237f0bc9bd05940ad4cd259a1c48c302f29dcd94e80cc8c4c285cb34db4aedc79e17fa846070ea7a3a0271e,
   0x9f1839bbd6780838fd4cc22b46b5bbc90226d46f5c5b10b46b04b0f4d337e395bcfcdc80d67a1982ebcb057640c3c4f295cfda13e712885c8ec50341329129ae,
   0x808678573533515103c0f5c0af3bd9ad37b62faaabed0ff157c94bbe4356585b68b7493cd4eab8f5c27bdb37e77e38125a5f04cc21107f86899145e81fd223fb,
   0xd6568fa735b25c7099008b0aa31b3b42cf3fee1f5dcf427f5d0f6df4bc4855853e9af24c2d17ca0467fb5bb495bc45028c580d3b5043ee4d9d322c8923c66a68,
   0x00b54097eb688d2d6653dde647ccaff1a1ccea3d2ae334764f756a6af02a7eb1bedd9275a96895505224a4d53e8fd1efe2a60866a2ccf33096490e7c477236cf,
   0x942bdd01f0a95f0359a99f5cb857e08959edfd7b3f2be38c2d85b356757902d05748c703db94ce096258605d452953aff27b133535a08d579fe988cf684531b9,
   0xbebedafb56077453be0ae51848b62983a21ad68d33ca5ee33ab2ee9f61fc829c9957ac239a2b30ea5ee17f9dd807dac5fbbc830f6796e0820c3bdbe447b600d4,
   0x9f7b50ee7832ec9505d097176f8ba36deb34dc653ca1e07d0e32338276442781b3c733f221decda06da3ef3b57572248a18569cd75390f3d6c25681fd23afc98,
   0xdfda7949307c2d9d6286b0e06ccb798f8002bf69f13f5c858a6cab24f34cbd4e29f6396aee25aaddf074da1477d9c5573de38b3913bf5b8490d2a0eaf8136cc8,
   0xc679224abe1f79e43d895229e29dfef87a63b927ba4958d9e1117eec7ab716c695b6d990f74b0ca30901caf8a45277dee0e7872f4e52a90cc7bae2beb6110059,
   0xf240f124f4c10bffe68351d9e9ba7fad0481eb6c0dd97abfd6aaf1d9f5ddabc2eec1eac57879db76ddf19c3c8733ea9e6da4ea581a54b07ba90c48c66948ed72,
   0x840eb8fd4687deb8cb6ddb72ee0b528a83360ec2d922a2af2c58a15949a3d8307ef85e50a4c63e4b88541908ce3320fb68fd82c4beecefa1438f0be38c569484,
   0x2ec73f1ad7eccd060a943a85309dbce5c307063781dbf4257b014ac8b7cafb81f96ecdfa2940ed932fa668b0ea662cffb62828e6408d2777370a217a74d75942,
   0x479642a11af505a96340b8e0a491d6bb8099490fe9f4f7359821054fec32fd4749cab5b93d216f9118671887c9e81e74b6ae39179aede602f8f8970717f3ab03,
   0x6ed86e6055203ecfe63d9f42f44bcf27d71415f6282e003c55e9f158644fc65016b8af3d1d5c108f92c5cd68946aee6aa82904dc1927dfb76756a8d934884bf7,
   0xcffa5ca039252844434aa651de6722b3986909ff8eebf2b73aca6b078388ae8e895149671809c0cf71c64b7e81f3fdb37f8fc6ff3542e0e5fd0e1f212d6fbff4,
   0x131a78d4ebf1fd1c526fa7b51b373a484e58728aa5e80000000000000000000000000000000000040910171c2600000000000000000000000000000000000000]

def issuedFields : ReceiptFields where
  mediatorId := Wire.ascii "m"
  roomId := Vector.replicate 32 0x51
  termsCommitment := Vector.replicate 32 0x52
  partyAEphemeralKey := holderKey
  partyBEphemeralKey := otherKey
  partyAEphemeralKeyMldsa65 := issuerKeyMldsa65
  partyBEphemeralKeyMldsa65 := Vector.replicate 1952 0x53
  mediatorPublicKey := issuerKey
  mediatorPublicKeyMldsa65 := issuerKeyMldsa65
  stage := ReceiptStage.termsAccepted.toByte
  timestamp := 1700000000
  nonce := Vector.replicate 16 0x54
  previousStageHash := genesisStageHash

def issued : IssuedReceipt := ⟨issuedFields, issuerSignature, issuerSignatureMldsa65⟩

def issuedPayload : Bytes := (encodeReceiptSignedPayload issuedFields).toOption.getD []

theorem issuedEncoded : encodeReceiptSignedPayload issuedFields = .ok issuedPayload := rfl

def issuedCrypto : Crypto where
  sha256 := fun _ => issuedLink
  ed25519 := signatureTable (fun _ => issuerKey) [(issuerKey, issuedPayload, issuerSignature)]
  mldsa65 := signatureTable (fun _ => issuerKeyMldsa65) [(issuerKeyMldsa65, issuedPayload, issuerSignatureMldsa65)]

theorem issuedVerified : verifyReceiptHybrid issuedCrypto issuerKey issuerKeyMldsa65 issued = .ok true := by
  rw [verifyReceiptHybridOk]
  simp [verifyReceipt, verifyReceiptMldsa65, issued, issuedEncoded, issuedCrypto, bind_ok, tableVerifies]

/- Its chain is sound under the keys it carries, and refused under the other party's. -/
theorem carriedKeysNotAsked :
    ReceiptChain issuedCrypto IssuedReceipt.mediatorKeys [issued] ∧
    verifyReceiptChain issuedCrypto otherKey issuerKeyMldsa65 [issued] ≠ .ok () := by
  have chained : ReceiptChain issuedCrypto IssuedReceipt.mediatorKeys [issued] :=
    ⟨by simp, List.forall_mem_singleton.mpr issuedVerified, by simp [sharesRefl],
      by simp [issued, issuedFields, ReceiptStage.toByte], by simp, by simp [issued, issuedFields], by simp⟩
  refine ⟨chained, fun accepted => ?_⟩
  have verified := (verifyReceiptChainOk.mp accepted).verified issued (by simp)
  have signed := (verifyReceiptHybridOk.mp verified).1
  simp only [verifyReceipt, issued, issuedEncoded, bind_ok, issuedCrypto, tableVerifies] at signed
  obtain ⟨payload, _, known⟩ := signed
  have keys : otherKey ≠ issuerKey := by decide +kernel
  simp [keys] at known

end Issued
end TradeP2P
