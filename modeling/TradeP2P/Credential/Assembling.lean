import TradeP2P.Credential.Chunking
import TradeP2P.Lib.Methods

/-! What the assembler makes of the chunks it is given, and a request on its way through it. -/
namespace TradeP2P.Credential
open Wire (Bytes bigEndian)
open Checks Machine Methods

namespace BlindSigChunkAssembler

/- The chunk opens a stream, or is of the one there is. -/
structure Opens (assembler : BlindSigChunkAssembler) (chunk : BlindSigRequestChunk) : Prop where
  incomplete : assembler.complete = false
  within : chunk.totalLength.toNat ≤ maxBlindSigRequestBytes
  counted : chunk.totalChunks ≠ 0
  stream : assembler.started = true →
    chunk.totalLength = assembler.expectedTotalLength ∧ chunk.totalChunks = assembler.expectedTotalChunks

/- It is the next chunk of its stream. -/
structure Continues (assembler : BlindSigChunkAssembler) (chunk : BlindSigRequestChunk) : Prop extends Opens assembler chunk where
  next : chunk.chunkIndex = assembler.nextChunkIndex
  fits : assembler.buffer.length + chunk.data.length ≤ chunk.totalLength.toNat

def opened (assembler : BlindSigChunkAssembler) (chunk : BlindSigRequestChunk) : BlindSigChunkAssembler :=
  if assembler.started then assembler else assembler.start chunk

/- The assembler with the chunk in its buffer. -/
def filled (assembler : BlindSigChunkAssembler) (chunk : BlindSigRequestChunk) : BlindSigChunkAssembler where
  buffer := assembler.buffer ++ chunk.data
  expectedTotalLength := chunk.totalLength
  expectedTotalChunks := chunk.totalChunks
  nextChunkIndex := assembler.nextChunkIndex + 1
  started := true
  complete := false

def Last (assembler : BlindSigChunkAssembler) (chunk : BlindSigRequestChunk) : Prop :=
  assembler.nextChunkIndex + 1 = chunk.totalChunks

def Full (assembler : BlindSigChunkAssembler) (chunk : BlindSigRequestChunk) : Prop :=
  (assembler.buffer ++ chunk.data).length = chunk.totalLength.toNat

variable {assembler left : BlindSigChunkAssembler} {chunk : BlindSigRequestChunk} {complete : Bool}

theorem Opens.opened (opens : assembler.Opens chunk) : assembler.opened chunk =
    { assembler.start chunk with complete := false } := by
  have incomplete := opens.incomplete
  unfold BlindSigChunkAssembler.opened start
  split
  next started =>
    rw [(opens.stream started).1, (opens.stream started).2, ← incomplete, ← started]
  next fresh => rw [← incomplete]

theorem putChunkRun : putChunk chunk assembler =
    if chunk.chunkIndex ≠ assembler.nextChunkIndex then .error (.runtimeError "blind-sig chunk arrived out of order") assembler
    else if assembler.buffer.length + chunk.data.length > assembler.expectedTotalLength.toNat then
      .error (.runtimeError "blind-sig chunk stream exceeds its own declared total_length") assembler
    else if assembler.nextChunkIndex + 1 = assembler.expectedTotalChunks then
      if (assembler.buffer ++ chunk.data).length ≠ assembler.expectedTotalLength.toNat then
        .error (.runtimeError "blind-sig chunk stream completed short of its declared total_length") (assembler.insert chunk.data)
      else .ok true { assembler.insert chunk.data with complete := true }
    else .ok false (assembler.insert chunk.data) := by
  unfold putChunk
  simp only [getThen, modifyThen, setThen, checkThen, ifThen, returned]
  rfl

theorem addChunkRun : addChunk chunk assembler =
    if assembler.complete = true then .error (.runtimeError "blind-sig chunk received after assembly already completed") assembler
    else if chunk.totalLength.toNat > maxBlindSigRequestBytes then .error declaresTooMuch assembler
    else if chunk.totalChunks = 0 then .error (.runtimeError "blind-sig chunk declares zero total_chunks") assembler
    else if assembler.started = true then
      if chunk.totalLength ≠ assembler.expectedTotalLength ∨ chunk.totalChunks ≠ assembler.expectedTotalChunks then
        .error (.runtimeError "blind-sig chunk's total_length/total_chunks changed mid-stream") assembler
      else putChunk chunk assembler
    else putChunk chunk (assembler.start chunk) := by
  unfold addChunk
  simp only [getThen, modifyThen, checkThen, ifThen]

/-! What a call does, case by case. -/

theorem addOpens (opens : assembler.Opens chunk) : addChunk chunk assembler = putChunk chunk (assembler.opened chunk) := by
  rw [addChunkRun, if_neg (by simp [opens.incomplete]), if_neg (Nat.not_lt.mpr opens.within), if_neg opens.counted]
  unfold BlindSigChunkAssembler.opened
  split
  next started => rw [if_neg (by simp [opens.stream started])]
  next fresh => rfl

theorem addRefuses (refused : ¬assembler.Opens chunk) : ∃ e, addChunk chunk assembler = .error e assembler := by
  rw [addChunkRun]
  split_ifs with complete long none_ started changed
  · exact ⟨_, rfl⟩
  · exact ⟨_, rfl⟩
  · exact ⟨_, rfl⟩
  · exact ⟨_, rfl⟩
  · refine absurd ⟨by simpa using complete, Nat.not_lt.mp long, none_, fun _ => ?_⟩ refused
    exact ⟨not_not.mp fun other => changed (.inl other), not_not.mp fun other => changed (.inr other)⟩
  · exact absurd ⟨by simpa using complete, Nat.not_lt.mp long, none_, fun runs => absurd runs started⟩ refused

theorem addMisplaced (opens : assembler.Opens chunk) (misplaced : ¬assembler.Continues chunk) :
    ∃ e, addChunk chunk assembler = .error e (assembler.opened chunk) := by
  rw [addOpens opens, putChunkRun]
  split_ifs with order long
  · exact ⟨_, rfl⟩
  · exact ⟨_, rfl⟩
  all_goals
    rw [opens.opened] at order long
    exact absurd ⟨opens, not_not.mp order, Nat.not_lt.mp long⟩ misplaced

theorem Continues.put (continues : assembler.Continues chunk) : addChunk chunk assembler =
    if assembler.nextChunkIndex + 1 = chunk.totalChunks then
      if (assembler.buffer ++ chunk.data).length ≠ chunk.totalLength.toNat then
        .error (.runtimeError "blind-sig chunk stream completed short of its declared total_length") (assembler.filled chunk)
      else .ok true { assembler.filled chunk with complete := true }
    else .ok false (assembler.filled chunk) := by
  have same := continues.toOpens.opened
  have next : ¬chunk.chunkIndex ≠ (assembler.opened chunk).nextChunkIndex := by
    rw [same]
    exact not_not.mpr continues.next
  have fits : ¬(assembler.opened chunk).buffer.length + chunk.data.length > (assembler.opened chunk).expectedTotalLength.toNat := by
    rw [same]
    exact Nat.not_lt.mpr continues.fits
  rw [addOpens continues.toOpens, putChunkRun, if_neg next, if_neg fits, same]
  rfl

theorem addShort (continues : assembler.Continues chunk) (last : assembler.Last chunk) (short : ¬assembler.Full chunk) :
    ∃ e, addChunk chunk assembler = .error e (assembler.filled chunk) := by
  unfold Last at last
  unfold Full at short
  rw [continues.put, if_pos last, if_pos short]
  exact ⟨_, rfl⟩

theorem addCompletes (continues : assembler.Continues chunk) (last : assembler.Last chunk) (full : assembler.Full chunk) :
    addChunk chunk assembler = .ok true { assembler.filled chunk with complete := true } := by
  unfold Last at last
  unfold Full at full
  rw [continues.put, if_pos last, if_neg fun short : _ ≠ _ => short full]

theorem addGoesOn (continues : assembler.Continues chunk) (more : ¬assembler.Last chunk) :
    addChunk chunk assembler = .ok false (assembler.filled chunk) := by
  unfold Last at more
  rw [continues.put, if_neg more]

/- What a call that returned has found, and what it leaves. -/
theorem addReturns (returns : addChunk chunk assembler = .ok complete left) : assembler.Continues chunk ∧
    ((assembler.Full chunk ∧ complete = true ∧ left = { assembler.filled chunk with complete := true }) ∨
      (complete = false ∧ left = assembler.filled chunk)) := by
  by_cases opens : assembler.Opens chunk
  case neg =>
    obtain ⟨e, refused⟩ := addRefuses opens
    rw [refused] at returns
    cases returns
  by_cases continues : assembler.Continues chunk
  case neg =>
    obtain ⟨e, misplaced⟩ := addMisplaced opens continues
    rw [misplaced] at returns
    cases returns
  refine ⟨continues, ?_⟩
  rw [continues.put] at returns
  split_ifs at returns with last short
  · obtain ⟨rfl, rfl⟩ := EStateM.Result.ok.inj returns
    exact .inl ⟨not_not.mp short, rfl, rfl⟩
  · obtain ⟨rfl, rfl⟩ := EStateM.Result.ok.inj returns
    exact .inr ⟨rfl, rfl⟩

/-! The buffer stays within the limit, whatever is thrown on the way. -/

structure Bounded (assembler : BlindSigChunkAssembler) : Prop where
  fresh : assembler.started = false → assembler.buffer = []
  declared : assembler.started = true → assembler.expectedTotalLength.toNat ≤ maxBlindSigRequestBytes ∧
    assembler.buffer.length ≤ assembler.expectedTotalLength.toNat

theorem Bounded.buffer (bounded : assembler.Bounded) : assembler.buffer.length ≤ maxBlindSigRequestBytes := by
  cases started : assembler.started with
  | false =>
    rw [bounded.fresh started]
    exact Nat.zero_le _
  | true => exact (bounded.declared started).2.trans (bounded.declared started).1

theorem Bounded.opened (bounded : assembler.Bounded) (opens : assembler.Opens chunk) : (assembler.opened chunk).Bounded := by
  unfold BlindSigChunkAssembler.opened
  split
  next => exact bounded
  next fresh =>
    refine ⟨fun never => (by cases never), fun _ => ⟨opens.within, ?_⟩⟩
    show assembler.buffer.length ≤ _
    rw [bounded.fresh (by simpa using fresh)]
    exact Nat.zero_le _

theorem Continues.bounded (continues : assembler.Continues chunk) (complete : Bool) :
    Bounded { assembler.filled chunk with complete } := by
  refine ⟨fun never => (by cases never), fun _ => ⟨continues.within, ?_⟩⟩
  show (assembler.buffer ++ chunk.data).length ≤ chunk.totalLength.toNat
  rw [List.length_append]
  exact continues.fits

theorem Bounded.added (bounded : assembler.Bounded) {chunks : List BlindSigRequestChunk} {returned : List Bool}
    (returns : addChunks chunks assembler = .ok returned left) : left.Bounded := by
  induction chunks generalizing assembler returned with
  | nil =>
    simp only [addChunks, pure_returns] at returns
    exact returns.2 ▸ bounded
  | cons chunk rest ih =>
    simp only [addChunks, bind_returns, pure_returns] at returns
    obtain ⟨complete, mid, first, others, _, after, _, rfl⟩ := returns
    obtain ⟨continues, ⟨_, _, rfl⟩ | ⟨_, rfl⟩⟩ := addReturns first
    · exact ih (continues.bounded true) after
    · exact ih (continues.bounded false) after

theorem Bounded.after (bounded : assembler.Bounded) (chunk : BlindSigRequestChunk) : (assembler.after chunk).Bounded := by
  unfold BlindSigChunkAssembler.after
  by_cases opens : assembler.Opens chunk
  case neg =>
    obtain ⟨e, refused⟩ := addRefuses opens
    rw [refused]
    exact bounded
  by_cases continues : assembler.Continues chunk
  case neg =>
    obtain ⟨e, misplaced⟩ := addMisplaced opens continues
    rw [misplaced]
    exact bounded.opened opens
  rw [continues.put]
  split_ifs
  · exact continues.bounded false
  · exact continues.bounded true
  · exact continues.bounded false

theorem Bounded.fed (bounded : assembler.Bounded) (chunks : List BlindSigRequestChunk) : (assembler.fed chunks).Bounded := by
  induction chunks generalizing assembler with
  | nil => exact bounded
  | cons chunk rest ih => exact ih (bounded.after chunk)

/-! What a stream that came through has put together. -/

/- A run that goes on after a completion throws. -/
theorem completed (done : assembler.complete = true) {chunks : List BlindSigRequestChunk} {returned : List Bool}
    (returns : addChunks chunks assembler = .ok returned left) : chunks = [] := by
  cases chunks with
  | nil => rfl
  | cons chunk rest =>
    simp only [addChunks, bind_returns] at returns
    obtain ⟨_, _, first, _⟩ := returns
    have found := (addReturns first).1.incomplete
    rw [done] at found
    cases found

/- The chunks of a stream that completes are one after the other in its buffer, and each of them told its length. -/
theorem assembled {chunks : List BlindSigRequestChunk} {returned : List Bool}
    (returns : addChunks chunks assembler = .ok returned left) (done : true ∈ returned) :
    left.buffer = assembler.buffer ++ chunks.flatMap BlindSigRequestChunk.data ∧
      returned = List.replicate (chunks.length - 1) false ++ [true] ∧
      (∀ chunk ∈ chunks, chunk.totalLength = left.expectedTotalLength) ∧
      (assembler.started = true → assembler.expectedTotalLength = left.expectedTotalLength) ∧
      left.buffer.length = left.expectedTotalLength.toNat := by
  induction chunks generalizing assembler returned with
  | nil =>
    simp only [addChunks, pure_returns] at returns
    obtain ⟨rfl, _⟩ := returns
    cases done
  | cons chunk rest ih =>
    simp only [addChunks, bind_returns, pure_returns] at returns
    obtain ⟨complete, mid, first, others, _, after, rfl, rfl⟩ := returns
    obtain ⟨continues, ⟨full, rfl, rfl⟩ | ⟨rfl, rfl⟩⟩ := addReturns first
    · obtain rfl := completed rfl after
      simp only [addChunks, pure_returns] at after
      obtain ⟨rfl, rfl⟩ := after
      exact ⟨by simp [filled], rfl, by simp [filled], fun started => (continues.stream started).1.symm, full⟩
    · have later : true ∈ others := by simpa using done
      have some_ : rest.length ≠ 0 := by
        intro none_
        obtain rfl := List.length_eq_zero_iff.mp none_
        simp only [addChunks, pure_returns] at after
        rw [← after.1] at later
        cases later
      obtain ⟨buffer, rfl, declared, kept, full⟩ := ih after later
      have told : chunk.totalLength = _ := kept rfl
      refine ⟨?_, ?_, List.forall_mem_cons.mpr ⟨told, declared⟩, fun started => (continues.stream started).1.symm.trans told, full⟩
      · rw [buffer, List.flatMap_cons, ← List.append_assoc]
        rfl
      · rw [List.length_cons, Nat.add_sub_cancel, ← List.cons_append, ← List.replicate_succ, Nat.sub_add_cancel (by omega)]

/-! The chunks of a byte string, put together again. -/

/- The chunk at a place of the string. -/
def piece (whole : Bytes) (i : Nat) : BlindSigRequestChunk where
  totalLength := .ofNat whole.length
  chunkIndex := .ofNat i
  totalChunks := .ofNat ((whole.length + chunkPayloadSize - 1) / chunkPayloadSize)
  data := (whole.drop (i * chunkPayloadSize)).take chunkPayloadSize

/- The first chunks of the string are in the buffer. -/
structure Holds (whole : Bytes) (i : Nat) (assembler : BlindSigChunkAssembler) : Prop where
  incomplete : assembler.complete = false
  buffer : assembler.buffer = whole.take (i * chunkPayloadSize)
  next : assembler.nextChunkIndex = .ofNat i
  stream : assembler.started = true → (piece whole i).totalLength = assembler.expectedTotalLength ∧
    (piece whole i).totalChunks = assembler.expectedTotalChunks

theorem Holds.start (whole : Bytes) : Holds whole 0 {} :=
  ⟨rfl, by simp, rfl, fun never => (by cases never)⟩

section Pieces
variable {whole : Bytes} {count i : Nat}

theorem Holds.grows (holds : Holds whole i assembler) :
    assembler.buffer ++ (piece whole i).data = whole.take ((i + 1) * chunkPayloadSize) := by
  rw [holds.buffer, piece, ← List.take_add, Nat.succ_mul]

theorem Holds.step (holds : Holds whole i assembler) : Holds whole (i + 1) (assembler.filled (piece whole i)) := by
  refine ⟨rfl, holds.grows, ?_, fun _ => ⟨rfl, rfl⟩⟩
  show assembler.nextChunkIndex + 1 = _
  rw [holds.next, UInt32.ofNat_add]
  rfl

variable (few : whole.length ≤ maxBlindSigRequestBytes)
include few

theorem pieceLength : (piece whole i).totalLength.toNat = whole.length :=
  UInt32.toNat_ofNat_of_lt' (by
    simp only [maxBlindSigRequestBytes] at few
    show whole.length < 2 ^ 32
    omega)

variable (counted : (whole.length + chunkPayloadSize - 1) / chunkPayloadSize = count)
include counted

theorem countSmall : count ≤ 256 := by
  simp only [chunkPayloadSize, maxBlindSigRequestBytes] at few counted
  omega

theorem Holds.continues (holds : Holds whole i assembler) (inside : i < count) : assembler.Continues (piece whole i) := by
  have length := pieceLength few (i := i)
  have small := countSmall few counted
  refine ⟨⟨holds.incomplete, length ▸ few, ?_, holds.stream⟩, holds.next.symm, ?_⟩
  · intro none_
    have zero : count % 2 ^ 32 = 0 := by
      have same := congrArg UInt32.toNat none_
      rwa [piece, counted, UInt32.toNat_ofNat'] at same
    omega
  · rw [length, ← List.length_append, holds.grows]
    exact List.length_take_le' ..

theorem Holds.last (holds : Holds whole i assembler) (inside : i < count) :
    assembler.Last (piece whole i) ↔ i + 1 = count := by
  have small := countSmall few counted
  have step : assembler.nextChunkIndex + 1 = UInt32.ofNat (i + 1) := by
    rw [holds.next, UInt32.ofNat_add]
    rfl
  rw [Last, step, piece, counted, ← UInt32.toNat_inj, UInt32.toNat_ofNat', UInt32.toNat_ofNat', Nat.mod_eq_of_lt (by omega),
    Nat.mod_eq_of_lt (by omega)]

/- The chunks from a place on: only the last of them completes. -/
theorem Holds.rest (more : Nat) (holds : Holds whole i assembler) (left_ : i + (more + 1) = count) :
    ∃ done, addChunks ((List.range' i (more + 1)).map (piece whole)) assembler = .ok (List.replicate more false ++ [true]) done ∧
      done.buffer = whole := by
  induction more generalizing i assembler with
  | zero =>
    have last : i + 1 = count := left_
    have continues := holds.continues few counted (by omega)
    have whole_ : whole.take ((i + 1) * chunkPayloadSize) = whole := by
      refine List.take_of_length_le ?_
      rw [last, ← counted]
      simp only [chunkPayloadSize]
      omega
    have grown := holds.grows.trans whole_
    have full : assembler.Full (piece whole i) := by
      rw [Full, grown, pieceLength few]
    refine ⟨{ assembler.filled (piece whole i) with complete := true }, ?_, grown⟩
    have only := addCompletes continues ((holds.last few counted (by omega)).mpr last) full
    show addChunks [piece whole i] assembler = .ok [true] _
    rw [addChunks, bind_run, only]
    rfl
  | succ more ih =>
    have continues := holds.continues few counted (by omega)
    have first := addGoesOn continues (mt (holds.last few counted (by omega)).mp (by omega))
    obtain ⟨done, others, buffer⟩ := ih holds.step (by omega)
    refine ⟨done, ?_, buffer⟩
    rw [List.range'_succ, List.map_cons, addChunks, bind_run, first]
    dsimp only
    rw [bind_run, others]
    rfl

end Pieces

end BlindSigChunkAssembler

/-! The way of a request from its encoding to its decoding. -/

section Transfer
variable {whole : Bytes}
open BlindSigChunkAssembler

theorem pieceShort (i : Nat) : (piece whole i).data.length ≤ maxBlindSigRequestBytes :=
  (List.length_take_le ..).trans (by decide)

theorem sent (short : whole.length ≤ 4294967295) : sendChunked whole =
    .ok ((List.range ((whole.length + chunkPayloadSize - 1) / chunkPayloadSize)).map (piece whole)) := by
  rw [sendChunked, throwIf_not (Nat.not_lt.mpr short)]
  rfl

theorem someCount (some_ : 1 ≤ whole.length) : ∃ more, (whole.length + chunkPayloadSize - 1) / chunkPayloadSize = more + 1 := by
  refine ⟨(whole.length - 1) / chunkPayloadSize, ?_⟩
  simp only [chunkPayloadSize]
  omega

/- The chunks of a string, their frames, and the assembler at the other end. -/
theorem wayThrough (some_ : 1 ≤ whole.length) (few : whole.length ≤ maxBlindSigRequestBytes) : ∃ chunks frames more done,
    sendChunked whole = .ok chunks ∧ chunks.mapM encodeBlindsigRequestChunk = .ok frames ∧
      frames.mapM decodeBlindsigRequestChunk = .ok chunks ∧
      addChunks chunks {} = .ok (List.replicate more false ++ [true]) done ∧ done.buffer = whole := by
  obtain ⟨more, counted⟩ := someCount some_
  obtain ⟨frames, encoded, received⟩ : ∃ frames, ((List.range (more + 1)).map (piece whole)).mapM encodeBlindsigRequestChunk = .ok frames ∧
      frames.mapM decodeBlindsigRequestChunk = .ok ((List.range (more + 1)).map (piece whole)) := by
    refine mapM_back fun chunk mem => ?_
    obtain ⟨i, _, rfl⟩ := List.mem_map.mp mem
    exact decodeChunkEncoded ((pieceLength few).le.trans few) (pieceShort i)
  obtain ⟨done, returned, buffer⟩ := (Holds.start whole).rest few counted more (Nat.zero_add _)
  rw [← List.range_eq_range'] at returned
  refine ⟨_, frames, more, done, ?_, encoded, received, returned, buffer⟩
  rw [sent (few.trans (by decide)), counted]

theorem transferred (some_ : 1 ≤ whole.length) (few : whole.length ≤ maxBlindSigRequestBytes) :
    ∃ more, transfer whole = .ok (List.replicate more false ++ [true], whole) := by
  obtain ⟨chunks, frames, more, done, sent, encoded, received, returned, buffer⟩ := wayThrough some_ few
  refine ⟨more, ?_⟩
  simp only [transfer, bind_ok]
  refine ⟨chunks, sent, frames, encoded, chunks, received, ?_⟩
  rw [returned]
  dsimp only
  rw [buffer]

theorem firstRefused {chunk : BlindSigRequestChunk} {frame : Bytes} (many : maxBlindSigRequestBytes < chunk.totalLength.toNat)
    (encoded : encodeBlindsigRequestChunk chunk = .ok frame) : decodeBlindsigRequestChunk frame = .error declaresTooMuch := by
  simp only [encodeBlindsigRequestChunk, check_ok, throwIf_ok] at encoded
  obtain ⟨_, field⟩ := encoded
  simp only [bind_ok, pure_ok] at field
  obtain ⟨data, _, rfl⟩ := field
  have length := Wire.readsU32 truncated chunk.totalLength (bigEndian 4 chunk.chunkIndex.toNat ++
    (bigEndian 4 chunk.totalChunks.toNat ++ data))
  unfold decodeBlindsigRequestChunk readBlindsigRequestChunk Wire.readAll
  simp only [Bind.bind, StateT.bind, length, Except.bind, throwIf_bad many]
  rfl

/- A string that is too long for the mediator's side is refused with its first chunk. -/
theorem untransferred (many : maxBlindSigRequestBytes < whole.length) (short : whole.length ≤ 4294967295) :
    transfer whole = .error declaresTooMuch := by
  obtain ⟨more, counted⟩ := someCount (Nat.one_le_of_lt many)
  have declared : (piece whole 0).totalLength.toNat = whole.length := UInt32.toNat_ofNat_of_lt' (Nat.lt_succ_of_le short)
  obtain ⟨frame, first⟩ : ∃ frame, encodeBlindsigRequestChunk (piece whole 0) = .ok frame := ⟨_, chunkEncoded (pieceShort 0)⟩
  obtain ⟨frames, others⟩ : ∃ frames, ((List.range' 1 more).map (piece whole)).mapM encodeBlindsigRequestChunk = .ok frames := by
    refine mapM_total fun chunk mem => ?_
    obtain ⟨i, _, rfl⟩ := List.mem_map.mp mem
    exact ⟨_, chunkEncoded (pieceShort i)⟩
  have encoded : ((List.range (more + 1)).map (piece whole)).mapM encodeBlindsigRequestChunk = .ok (frame :: frames) := by
    rw [List.range_eq_range', List.range'_succ, List.map_cons, List.mapM_cons, first]
    show (do
      let frames ← ((List.range' 1 more).map (piece whole)).mapM encodeBlindsigRequestChunk
      return frame :: frames) = _
    rw [others]
    rfl
  have refused := firstRefused (declared ▸ many) first
  have received : (frame :: frames).mapM decodeBlindsigRequestChunk = .error declaresTooMuch := by
    rw [List.mapM_cons, refused]
    rfl
  rw [transfer, sent short, counted, bind_next, encoded, bind_next, received, bind_stops]

theorem encodedShort {request : SessionRequest} {bytes : Bytes} (encoded : encodeAssembledRequest request = .ok bytes) :
    bytes.length ≤ 4294967295 := by
  obtain ⟨short, checked, _⟩ := encodedParts encoded
  rw [encodedLengthIs encoded, SessionRequest.encodedLength]
  simp only [maxBlindSigRequestBytes] at short
  split
  next credential =>
    rw [checkIssuance, if_pos credential] at checked
    simp only [check_ok, throwIf_ok, Nat.not_lt] at checked
    have bound := checked.2
    simp only [maxFramePayload] at bound
    omega
  next => omega

/- What is sent in chunks is put together from them, and nothing else is; of the requests that can be encoded, those arrive
that are not longer than the mediator's side takes. -/
theorem chunkedTransfer (request : SessionRequest) :
    (∀ whole : Bytes, 1 ≤ whole.length → whole.length ≤ maxBlindSigRequestBytes →
      ∃ more, transfer whole = .ok (List.replicate more false ++ [true], whole)) ∧
    (∀ chunks returned assembler, addChunks chunks {} = .ok returned assembler → true ∈ returned →
      returned = List.replicate (chunks.length - 1) false ++ [true] ∧
        assembler.buffer = chunks.flatMap BlindSigRequestChunk.data ∧
        (∀ chunk ∈ chunks, chunk.totalLength.toNat = assembler.buffer.length) ∧
        assembler.buffer.length ≤ maxBlindSigRequestBytes) ∧
    (∀ chunks, (fed {} chunks).buffer.length ≤ maxBlindSigRequestBytes) ∧
    ((∀ bytes, encodeAssembledRequest request = .ok bytes →
        ∃ more, transfer bytes = .ok (List.replicate more false ++ [true], bytes) ∧ decodeAssembledRequest bytes = .ok request) ↔
      ((∃ bytes, encodeAssembledRequest request = .ok bytes) → request.encodedLength ≤ maxBlindSigRequestBytes)) := by
  have fresh : Bounded {} := ⟨fun _ => rfl, fun never => (by cases never)⟩
  refine ⟨fun whole => transferred, ?_, fun chunks => (fresh.fed chunks).buffer, ?_, ?_⟩
  · intro chunks returned assembler returns done
    obtain ⟨buffer, all, declared, _, full⟩ := assembled returns done
    have bounded := fresh.added returns
    exact ⟨all, buffer, fun chunk mem => (congrArg UInt32.toNat (declared chunk mem)).trans full.symm, bounded.buffer⟩
  · intro arrives encoded
    obtain ⟨bytes, encoded⟩ := encoded
    obtain ⟨more, arrived, _⟩ := arrives bytes encoded
    by_contra long
    have length := encodedLengthIs encoded
    rw [untransferred (length ▸ Nat.lt_of_not_le long) (encodedShort encoded)] at arrived
    cases arrived
  · intro fits bytes encoded
    have length := encodedLengthIs encoded
    have some_ : 1 ≤ bytes.length := by
      rw [length, SessionRequest.encodedLength]
      omega
    obtain ⟨more, arrived⟩ := transferred some_ (length ▸ fits ⟨bytes, encoded⟩)
    exact ⟨more, arrived, decodeRequestEncoded encoded⟩

/- The largest receipt that a request may carry leaves no room for the rest of it. -/
def largestReceipt : SessionRequest where
  c := Vector.replicate 512 0
  b := Vector.replicate 512 0
  encA := Vector.replicate 512 0
  encPk := Vector.replicate 512 0
  ct1R := Vector.replicate 512 0
  ct2R := Vector.replicate 512 0
  ct1Mu := Vector.replicate 512 0
  ct2Mu := Vector.replicate 512 0
  issuanceRoomId := Vector.replicate 32 0
  pi1Receipt := List.replicate maxBlindSigRequestBytes 0

theorem rawEncoded {request : SessionRequest} (raw : request.credentialIssuance = false)
    (short : ¬request.pi1Receipt.length > maxBlindSigRequestBytes) (free : checkIssuance request = .ok ()) :
    ∃ bytes, encodeAssembledRequest request = .ok bytes := by
  have issuance : issuanceFields request = .ok [] := by
    rw [issuanceFields, raw]
    rfl
  have receipt := byteFieldOk ((Nat.le_of_not_lt short).trans (by decide))
  exact ⟨_, by
    rw [encodeAssembledRequest, throwIf_not short, free, issuance, receipt]
    rfl⟩

theorem largestUntransferred : ∃ bytes, encodeAssembledRequest largestReceipt = .ok bytes ∧ transfer bytes = .error declaresTooMuch := by
  have receipt : largestReceipt.pi1Receipt.length = maxBlindSigRequestBytes := List.length_replicate
  have short : ¬largestReceipt.pi1Receipt.length > maxBlindSigRequestBytes := receipt ▸ Nat.lt_irrefl _
  have raw : checkIssuance largestReceipt = .ok () := rawFree rfl rfl rfl rfl rfl rfl
  obtain ⟨bytes, encoded⟩ := rawEncoded rfl short raw
  refine ⟨bytes, encoded, untransferred ?_ (encodedShort encoded)⟩
  rw [encodedLengthIs encoded, SessionRequest.encodedLength, receipt]
  omega

end Transfer
end TradeP2P.Credential
