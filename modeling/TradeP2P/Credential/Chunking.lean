import TradeP2P.Credential.ClientSession

/-! A request in chunks: what the client sends of it, the chunks on the wire, and the assembler that a connection of the
mediator puts them together with. -/
namespace TradeP2P.Credential
open Wire (Bytes Reader Reads bigEndian u8 u16 u32 fixed readAll)
open Checks Machine

/-! The codec of a chunk, and of a request. -/

def fieldTooLong : Error := .runtimeError "encoded byte field exceeds protocol limit"
def declaresTooMuch : Error := .runtimeError "blind-sig request declares a length exceeding the protocol limit"

def readBytes (maximum : Nat) : Reader Error Bytes := Wire.takePrefixed32 truncated fieldTooLong maximum

def encodeBlindsigRequestChunk (message : BlindSigRequestChunk) : Except Error Bytes := do
  throwIf (message.data.length > maxBlindSigRequestBytes) (Error.invalidArgument "blind-sig request chunk exceeds protocol limit")
  let data ← byteField message.data
  return bigEndian 4 message.totalLength.toNat ++ (bigEndian 4 message.chunkIndex.toNat ++
    (bigEndian 4 message.totalChunks.toNat ++ data))

def readBlindsigRequestChunk : Reader Error BlindSigRequestChunk := do
  let totalLength ← u32 truncated
  throwIf (totalLength.toNat > maxBlindSigRequestBytes) declaresTooMuch
  let chunkIndex ← u32 truncated
  let totalChunks ← u32 truncated
  let data ← readBytes maxBlindSigRequestBytes
  return { totalLength, chunkIndex, totalChunks, data }

def decodeBlindsigRequestChunk (bytes : Bytes) : Except Error BlindSigRequestChunk :=
  readAll trailing readBlindsigRequestChunk bytes

/- An array of as many coefficients as it has room for. -/
def readU16Array : (n : Nat) → Reader Error (Vector UInt16 n)
  | 0 => return #v[]
  | n+1 => do
      let front ← readU16Array n
      let last ← u16 truncated
      return front.push last

/- What a request carries for a credential, if it is for one. -/
structure IssuanceFields where
  completionReceipt : Bytes := []
  authorizationSignature : Ed25519Signature := Vector.replicate 64 0
  authorizationSignatureMldsa65 : MlDsa65Signature := Vector.replicate 3309 0

def readIssuance (credentialIssuance : Bool) : Reader Error IssuanceFields :=
  if credentialIssuance then do
    let completionReceipt ← readBytes maxFramePayload
    throwIf (completionReceipt = []) (Error.runtimeError "q7933 credential request has empty completion receipt")
    let authorizationSignature ← fixed truncated 64
    let authorizationSignatureMldsa65 ← fixed truncated 3309
    return { completionReceipt, authorizationSignature, authorizationSignatureMldsa65 }
  else return {}

def readAssembledRequest : Reader Error SessionRequest := do
  let c ← readU16Array ringDegree
  let b ← readU16Array ringDegree
  let encA ← readU16Array ringDegree
  let encPk ← readU16Array ringDegree
  let ct1R ← readU16Array ringDegree
  let ct2R ← readU16Array ringDegree
  let ct1Mu ← readU16Array ringDegree
  let ct2Mu ← readU16Array ringDegree
  let credentialFlag ← u8 truncated
  throwIf (credentialFlag > 1) (Error.runtimeError "invalid q7933 credential issuance flag")
  let credentialIssuance := credentialFlag == 1
  let issuanceRoomId ← fixed truncated 32
  let credentialEpoch ← u32 truncated
  let issuance ← readIssuance credentialIssuance
  let pi1Receipt ← readBytes maxBlindSigRequestBytes
  return { c, b, encA, encPk, ct1R, ct2R, ct1Mu, ct2Mu, credentialIssuance, issuanceRoomId, credentialEpoch, pi1Receipt
           issuanceCompletionReceipt := issuance.completionReceipt
           issuanceAuthorizationSignature := issuance.authorizationSignature
           issuanceAuthorizationSignatureMldsa65 := issuance.authorizationSignatureMldsa65 }

def decodeAssembledRequest (bytes : Bytes) : Except Error SessionRequest := do
  let request ← readAll trailing readAssembledRequest bytes
  throwIf (request.credentialIssuance = false ∧ (request.issuanceRoomId ≠ Vector.replicate 32 0 ∨ request.credentialEpoch ≠ 0))
    (Error.runtimeError "raw q7933 blind-signature request carries credential-only metadata")
  return request

/-! The assembler. A chunk that it throws on may have opened the stream, or have been put into the buffer, before that. -/

structure BlindSigChunkAssembler where
  buffer : Bytes := []
  expectedTotalLength : UInt32 := 0
  expectedTotalChunks : UInt32 := 0
  nextChunkIndex : UInt32 := 0
  started : Bool := false
  complete : Bool := false
  deriving DecidableEq, Repr

namespace BlindSigChunkAssembler

def start (chunk : BlindSigRequestChunk) (assembler : BlindSigChunkAssembler) : BlindSigChunkAssembler :=
  { assembler with started := true, expectedTotalLength := chunk.totalLength, expectedTotalChunks := chunk.totalChunks }

def insert (data : Bytes) (assembler : BlindSigChunkAssembler) : BlindSigChunkAssembler :=
  { assembler with buffer := assembler.buffer ++ data, nextChunkIndex := assembler.nextChunkIndex + 1 }

/- The part of `add_chunk` in which the stream is open. -/
def putChunk (chunk : BlindSigRequestChunk) : EStateM Error BlindSigChunkAssembler Bool := do
  let opened ← get
  throwIf (chunk.chunkIndex ≠ opened.nextChunkIndex) (Error.runtimeError "blind-sig chunk arrived out of order")
  throwIf (opened.buffer.length + chunk.data.length > opened.expectedTotalLength.toNat)
    (Error.runtimeError "blind-sig chunk stream exceeds its own declared total_length")
  modify (insert chunk.data)
  let filled ← get
  if filled.nextChunkIndex = filled.expectedTotalChunks then do
    throwIf (filled.buffer.length ≠ filled.expectedTotalLength.toNat)
      (Error.runtimeError "blind-sig chunk stream completed short of its declared total_length")
    set { filled with complete := true }
    return true
  else return false

def addChunk (chunk : BlindSigRequestChunk) : EStateM Error BlindSigChunkAssembler Bool := do
  let found ← get
  throwIf (found.complete = true) (Error.runtimeError "blind-sig chunk received after assembly already completed")
  throwIf (chunk.totalLength.toNat > maxBlindSigRequestBytes) declaresTooMuch
  throwIf (chunk.totalChunks = 0) (Error.runtimeError "blind-sig chunk declares zero total_chunks")
  if found.started then do
    throwIf (chunk.totalLength ≠ found.expectedTotalLength ∨ chunk.totalChunks ≠ found.expectedTotalChunks)
      (Error.runtimeError "blind-sig chunk's total_length/total_chunks changed mid-stream")
    putChunk chunk
  else do
    modify (start chunk)
    putChunk chunk

/- Chunks one after the other, none of them thrown on. -/
def addChunks : List BlindSigRequestChunk → EStateM Error BlindSigChunkAssembler (List Bool)
  | [] => return []
  | chunk :: rest => do
      let complete ← addChunk chunk
      let others ← addChunks rest
      return complete :: others

/- What a call leaves behind, whether it returns or throws. -/
def after (assembler : BlindSigChunkAssembler) (chunk : BlindSigRequestChunk) : BlindSigChunkAssembler :=
  match addChunk chunk assembler with
  | .ok _ left => left
  | .error _ left => left

def fed (assembler : BlindSigChunkAssembler) (chunks : List BlindSigRequestChunk) : BlindSigChunkAssembler :=
  chunks.foldl after assembler

end BlindSigChunkAssembler

/- A request on its way: sent in chunks, each of them encoded and decoded, and put together. It tells what each call of
the assembler returned, and the bytes it holds then. -/
def transfer (assembled : Bytes) : Except Error (List Bool × Bytes) := do
  let chunks ← sendChunked assembled
  let frames ← chunks.mapM encodeBlindsigRequestChunk
  let received ← frames.mapM decodeBlindsigRequestChunk
  match BlindSigChunkAssembler.addChunks received {} with
  | .ok returned assembler => .ok (returned, assembler.buffer)
  | .error e _ => .error e

/-! What has been written is read back. -/

theorem byteFieldOk {value : Bytes} (short : value.length ≤ 4294967295) :
    byteField value = .ok (bigEndian 4 value.length ++ value) := by
  rw [byteField, throwIf_not (Nat.not_lt.mpr short)]
  rfl

theorem byteFieldWritten {value bytes : Bytes} (written : byteField value = .ok bytes) :
    bytes = bigEndian 4 value.length ++ value := by
  simp only [byteField, check_ok, pure_ok] at written
  exact written.2.symm

theorem u16ArrayLength (value : RingArray) : (u16Array value).length = 1024 := by
  have pairs : ∀ values : List UInt16, (values.flatMap fun value => bigEndian 2 value.toNat).length = 2 * values.length := by
    intro values
    induction values with
    | nil => rfl
    | cons value rest ih =>
      rw [List.flatMap_cons, List.length_append, ih, Wire.bigEndianLength, List.length_cons]
      omega
  rw [u16Array, pairs, Vector.length_toList]

theorem readsBytes {maximum : Nat} {value : Bytes} (small : maximum < 2 ^ 32) (short : value.length ≤ maximum) :
    Reads (readBytes maximum) (bigEndian 4 value.length ++ value) value := by
  intro rest
  rw [List.append_assoc]
  exact (Wire.takePrefixed32Read small).mpr ⟨short, rfl⟩

theorem readsU16Values {n : Nat} (value : Vector UInt16 n) :
    Reads (readU16Array n) (value.toList.flatMap fun coefficient => bigEndian 2 coefficient.toNat) value := by
  induction n with
  | zero =>
    obtain rfl : value = #v[] := Vector.eq_empty
    exact .pure _
  | succ n ih =>
    have parts : value.pop.push value.back = value := Vector.push_pop_back value
    rw [← parts, Vector.toList_push, List.flatMap_append, List.flatMap_singleton]
    exact (ih value.pop).bind ((Wire.readsU16 _ value.back).returns value.pop.push)

theorem readsU16Array (value : RingArray) : Reads (readU16Array ringDegree) (u16Array value) value := readsU16Values value

theorem chunkEncoded {chunk : BlindSigRequestChunk} (short : chunk.data.length ≤ maxBlindSigRequestBytes) :
    encodeBlindsigRequestChunk chunk = .ok (bigEndian 4 chunk.totalLength.toNat ++ (bigEndian 4 chunk.chunkIndex.toNat ++
      (bigEndian 4 chunk.totalChunks.toNat ++ (bigEndian 4 chunk.data.length ++ chunk.data)))) := by
  have field := byteFieldOk (short.trans (by decide : maxBlindSigRequestBytes ≤ 4294967295))
  rw [encodeBlindsigRequestChunk, throwIf_not (Nat.not_lt.mpr short), field]
  rfl

theorem decodeChunkEncoded {chunk : BlindSigRequestChunk} (within : chunk.totalLength.toNat ≤ maxBlindSigRequestBytes)
    (short : chunk.data.length ≤ maxBlindSigRequestBytes) : ∃ bytes, encodeBlindsigRequestChunk chunk = .ok bytes ∧
      decodeBlindsigRequestChunk bytes = .ok chunk := by
  refine ⟨_, chunkEncoded short, ?_⟩
  suffices reads : Reads readBlindsigRequestChunk _ chunk from reads.exhausts.readAll _
  refine (Wire.readsU32 _ chunk.totalLength).bind (.behind (throwIf_not (Nat.not_lt.mpr within)) ?_)
  refine (Wire.readsU32 _ chunk.chunkIndex).bind ((Wire.readsU32 _ chunk.totalChunks).bind ?_)
  exact (readsBytes (by decide) short).returns fun data =>
    BlindSigRequestChunk.mk chunk.totalLength chunk.chunkIndex chunk.totalChunks data

theorem rawFree {request : SessionRequest} (raw : request.credentialIssuance = false)
    (room : request.issuanceRoomId = Vector.replicate 32 0) (epoch : request.credentialEpoch = 0)
    (receipt : request.issuanceCompletionReceipt = []) (signature : request.issuanceAuthorizationSignature = Vector.replicate 64 0)
    (signatureMldsa65 : request.issuanceAuthorizationSignatureMldsa65 = Vector.replicate 3309 0) : checkIssuance request = .ok () := by
  rw [checkIssuance, raw, if_neg Bool.false_ne_true, room, epoch, receipt, signature, signatureMldsa65]
  exact throwIf_not (by simp only [ne_eq, not_true_eq_false, or_self, not_false_eq_true])

/- The length a request is declared with. -/
def SessionRequest.encodedLength (request : SessionRequest) : Nat :=
  8 * 1024 + (1 + (32 + (4 + ((if request.credentialIssuance then 4 + request.issuanceCompletionReceipt.length + (64 + 3309) else 0) +
    (4 + request.pi1Receipt.length)))))

theorem encodedParts {request : SessionRequest} {bytes : Bytes} (encoded : encodeAssembledRequest request = .ok bytes) :
    request.pi1Receipt.length ≤ maxBlindSigRequestBytes ∧ checkIssuance request = .ok () ∧
      ∃ issuance, issuanceFields request = .ok issuance ∧
        bytes = u16Array request.c ++ (u16Array request.b ++ (u16Array request.encA ++ (u16Array request.encPk ++
          (u16Array request.ct1R ++ (u16Array request.ct2R ++ (u16Array request.ct1Mu ++ (u16Array request.ct2Mu ++
          ([if request.credentialIssuance then 1 else 0] ++ (request.issuanceRoomId.toList ++
          (bigEndian 4 request.credentialEpoch.toNat ++ (issuance ++ (bigEndian 4 request.pi1Receipt.length ++
          request.pi1Receipt)))))))))))) := by
  simp only [encodeAssembledRequest, check_ok, throwIf_ok, Nat.not_lt] at encoded
  obtain ⟨short, checked, fields⟩ := encoded
  simp only [bind_ok, pure_ok] at fields
  obtain ⟨issuance, carried, receipt, written, rfl⟩ := fields
  exact ⟨short, checked, issuance, carried, by rw [byteFieldWritten written]⟩

theorem issuanceWritten {request : SessionRequest} {issuance : Bytes} (carried : issuanceFields request = .ok issuance) :
    issuance = if request.credentialIssuance then bigEndian 4 request.issuanceCompletionReceipt.length ++
      (request.issuanceCompletionReceipt ++ (request.issuanceAuthorizationSignature.toList ++
        request.issuanceAuthorizationSignatureMldsa65.toList)) else [] := by
  unfold issuanceFields at carried
  split at carried
  next credential =>
    simp only [bind_ok, pure_ok] at carried
    obtain ⟨receipt, written, rfl⟩ := carried
    rw [byteFieldWritten written, List.append_assoc, if_pos credential]
  next raw => rw [if_neg raw, pure_ok.mp carried]

theorem encodedLengthIs {request : SessionRequest} {bytes : Bytes} (encoded : encodeAssembledRequest request = .ok bytes) :
    bytes.length = request.encodedLength := by
  obtain ⟨_, _, issuance, carried, rfl⟩ := encodedParts encoded
  rw [issuanceWritten carried, SessionRequest.encodedLength]
  split <;>
    simp only [List.length_append, u16ArrayLength, Vector.length_toList, Wire.bigEndianLength, List.length_singleton,
      List.length_nil] <;>
    omega

theorem readsIssuance {request : SessionRequest} {issuance : Bytes} (checked : checkIssuance request = .ok ())
    (carried : issuanceFields request = .ok issuance) : Reads (readIssuance request.credentialIssuance) issuance
      ⟨request.issuanceCompletionReceipt, request.issuanceAuthorizationSignature, request.issuanceAuthorizationSignatureMldsa65⟩ := by
  rw [issuanceWritten carried]
  unfold readIssuance
  unfold checkIssuance at checked
  split at checked
  next credential =>
    simp only [check_ok, throwIf_ok, Nat.not_lt] at checked
    rw [if_pos credential, if_pos credential, ← List.append_assoc]
    refine (readsBytes (by decide) checked.2).bind (.behind (throwIf_not checked.1) ?_)
    refine (Wire.readsFixed _ request.issuanceAuthorizationSignature).bind ?_
    exact (Wire.readsFixed _ request.issuanceAuthorizationSignatureMldsa65).returns fun signature =>
      IssuanceFields.mk request.issuanceCompletionReceipt request.issuanceAuthorizationSignature signature
  next raw =>
    simp only [throwIf_ok, not_or, ne_eq, Decidable.not_not] at checked
    obtain ⟨_, _, noReceipt, noSignature, noSignatureMldsa65⟩ := checked
    rw [if_neg raw, if_neg raw, noReceipt, noSignature, noSignatureMldsa65]
    exact .pure _

/- A request that could be encoded is decoded to the same request. -/
theorem decodeRequestEncoded {request : SessionRequest} {bytes : Bytes} (encoded : encodeAssembledRequest request = .ok bytes) :
    decodeAssembledRequest bytes = .ok request := by
  obtain ⟨short, checked, issuance, carried, rfl⟩ := encodedParts encoded
  suffices reads : Reads readAssembledRequest _ request by
    have raw : ¬(request.credentialIssuance = false ∧
        (request.issuanceRoomId ≠ Vector.replicate 32 0 ∨ request.credentialEpoch ≠ 0)) := by
      intro metadata
      unfold checkIssuance at checked
      rw [metadata.1, if_neg Bool.false_ne_true, throwIf_ok] at checked
      exact checked (metadata.2.imp_right .inl)
    rw [decodeAssembledRequest, reads.exhausts.readAll]
    exact (congrArg (· >>= fun _ => pure request) (throwIf_not raw)).trans rfl
  obtain ⟨flag, given, small, same⟩ : ∃ flag : UInt8, (if request.credentialIssuance then 1 else 0) = flag ∧ ¬flag > 1 ∧
      (flag == 1) = request.credentialIssuance := by
    cases request.credentialIssuance with
    | true => exact ⟨1, rfl, by decide, rfl⟩
    | false => exact ⟨0, rfl, by decide, rfl⟩
  rw [given]
  have readsFlag : Reads (u8 truncated) [flag] flag := fun _ => Wire.u8Read.mpr rfl
  refine (readsU16Array request.c).bind ((readsU16Array request.b).bind ((readsU16Array request.encA).bind ?_))
  refine (readsU16Array request.encPk).bind ((readsU16Array request.ct1R).bind ((readsU16Array request.ct2R).bind ?_))
  refine (readsU16Array request.ct1Mu).bind ((readsU16Array request.ct2Mu).bind ?_)
  refine readsFlag.bind (.behind (throwIf_not small) ?_)
  refine (Wire.readsFixed _ request.issuanceRoomId).bind ((Wire.readsU32 _ request.credentialEpoch).bind ?_)
  rw [same]
  refine (readsIssuance checked carried).bind ?_
  exact (readsBytes (by decide) short).returns fun pi1Receipt => { request with pi1Receipt }

end TradeP2P.Credential
