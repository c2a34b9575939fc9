import TradeP2P.Hub.Room
import TradeP2P.Journal.Records
import TradeP2P.Lib.Fields
import TradeP2P.Mediator.Standing
import TradeP2P.Protocol.Codec

/-! The file of the rooms that outlive a restart of the mediator, and what is made of it when the mediator starts. -/
namespace TradeP2P
open Wire (Bytes Reader ascii bigEndian takePrefixed takePrefixed32 u8 u16 u32 u64 fixed readAll readMany writeMany)
open Checks

inductive PersistenceError where
  | format (text : String)
  | standard (e : Error)
  deriving DecidableEq, Repr

def persistedRoomFormatVersion : UInt16 := 1
def persistedRoomMagic : Vector UInt8 4 := #v[0x54, 0x50, 0x52, 0x53]
def maxRoomBodyLength : Nat := 8192
def maxRoomCount : Nat := 4096

/- A room in the file. The state is a byte; any byte is cast to a state. -/
structure RoomOnDisk where
  roomId : RoomId
  partyA : ClientId
  partyB : ClientId
  terms : TradeTerms
  fee : FeeTerms
  state : UInt8
  roundIndex : UInt32
  legIndex : UInt8
  abortReason : Bytes
  updatedAt : UInt64
  deriving DecidableEq, Repr

structure PersistedRoomFile where
  formatVersion : UInt16 := persistedRoomFormatVersion
  rooms : List RoomOnDisk
  deriving DecidableEq, Repr

def persistedFieldTooLong : Error := .invalidArgument "persisted room field exceeds protocol limit"

def appendFeeTerms (fee : FeeTerms) : Except Error Bytes := do
  validateFeeTerms fee
  let asset ← Wire.lengthPrefixed persistedFieldTooLong fee.asset maxAssetCodeLength
  let address ← Wire.lengthPrefixed persistedFieldTooLong fee.address maxAddressLength
  return asset ++ (bigEndian 8 fee.amount.toNat ++ address)

def bytesU32 (value : Bytes) : Bytes := bigEndian 4 value.length ++ value

def encodeOneRoom (room : RoomOnDisk) : Except Error Bytes := do
  let encodedTerms ← encodeTerms room.terms
  let fee ← appendFeeTerms room.fee
  let abortReason ← Wire.lengthPrefixed persistedFieldTooLong room.abortReason maxReasonLength
  return room.roomId.toList ++ (room.partyA.toList ++ (room.partyB.toList ++ (bytesU32 encodedTerms ++ (fee ++ ([room.state] ++
    (bigEndian 4 room.roundIndex.toNat ++ ([room.legIndex] ++ (abortReason ++ bigEndian 8 room.updatedAt.toNat))))))))

def truncatedRoomFile : PersistenceError := .format "truncated persisted room file"
def longRoomField : PersistenceError := .format "persisted room field exceeds maximum allowed length"
def longRoomList : PersistenceError := .format "persisted room list exceeds maximum allowed length"
def trailingRoomBytes : PersistenceError := .format "trailing bytes after persisted room file"

def persistenceEscaping {α : Type} (x : Except Error α) : Except PersistenceError α := x.mapError .standard

def readPersistedFee : Reader PersistenceError FeeTerms := do
  let asset ← takePrefixed truncatedRoomFile longRoomField maxAssetCodeLength
  let amount ← u64 truncatedRoomFile
  let address ← takePrefixed truncatedRoomFile longRoomField maxAddressLength
  persistenceEscaping (validateFeeTerms { asset, amount, address })
  return { asset, amount, address }

def readOneRoom : Reader PersistenceError RoomOnDisk := do
  let roomId ← fixed truncatedRoomFile 32
  let partyA ← fixed truncatedRoomFile 16
  let partyB ← fixed truncatedRoomFile 16
  let encodedTerms ← takePrefixed32 truncatedRoomFile longRoomList maxRoomBodyLength
  let terms ← persistenceEscaping (decodeTerms encodedTerms)
  let fee ← readPersistedFee
  let state ← u8 truncatedRoomFile
  let roundIndex ← u32 truncatedRoomFile
  let legIndex ← u8 truncatedRoomFile
  let abortReason ← takePrefixed truncatedRoomFile longRoomField maxReasonLength
  let updatedAt ← u64 truncatedRoomFile
  return { roomId, partyA, partyB, terms, fee, state, roundIndex, legIndex, abortReason, updatedAt }

def readWholeRoom (body : Bytes) : Except PersistenceError RoomOnDisk := do
  let room ← readAll trailingRoomBytes readOneRoom body
  persistenceEscaping (validateRoomId room.roomId)
  persistenceEscaping (validateClientId room.partyA)
  persistenceEscaping (validateClientId room.partyB)
  throwIf (room.legIndex > 1) (.format "persisted room has invalid leg index")
  return room

-- What the protocol's own checks throw is thrown as a malformed file.
def decodeOneRoom (body : Bytes) : Except PersistenceError RoomOnDisk :=
  match readWholeRoom body with
  | .error (.standard e) => .error (.format ("malformed persisted room: " ++ e.text))
  | other => other

def appendRoom (room : RoomOnDisk) : Except Error Bytes := do
  let body ← encodeOneRoom room
  return bytesU32 body

def encodePersistedRooms (file : PersistedRoomFile) : Except Error Bytes := do
  throwIf (file.rooms.length > maxRoomCount) (.invalidArgument "persisted room file exceeds maximum room count")
  let rooms ← writeMany appendRoom file.rooms
  return persistedRoomMagic.toList ++ (bigEndian 2 file.formatVersion.toNat ++ (bigEndian 4 file.rooms.length ++ rooms))

def readPersistedRoom : Reader PersistenceError RoomOnDisk := do
  let body ← takePrefixed32 truncatedRoomFile longRoomList maxRoomBodyLength
  decodeOneRoom body

def readPersistedRooms : Reader PersistenceError PersistedRoomFile := do
  let magic ← fixed truncatedRoomFile 4
  throwIf (magic ≠ persistedRoomMagic) (PersistenceError.format "not a tradep2p persisted-room file (bad magic)")
  let formatVersion ← u16 truncatedRoomFile
  throwIf (formatVersion ≠ persistedRoomFormatVersion)
    (PersistenceError.format "unsupported persisted-room file format version")
  let count ← u32 truncatedRoomFile
  throwIf (count.toNat > maxRoomCount) (PersistenceError.format "persisted room file exceeds maximum room count")
  let rooms ← readMany readPersistedRoom count.toNat
  return { formatVersion, rooms }

def decodePersistedRooms (bytes : Bytes) : Except PersistenceError PersistedRoomFile :=
  readAll trailingRoomBytes readPersistedRooms bytes

/-! What the readers accept. -/
section Format
attribute [local simp] bind_ok check_ok pure_ok throwIf_ok
variable {input rest body bytes : Bytes} {room : RoomOnDisk} {fee : FeeTerms}

@[simp] theorem persistenceEscapingOk {α : Type} {x : Except Error α} {a : α} : persistenceEscaping x = .ok a ↔ x = .ok a := by
  cases x <;> simp [persistenceEscaping, Except.mapError]

theorem decodeTermsOk {terms : TradeTerms} : decodeTerms bytes = .ok terms ↔ encodeTerms terms = .ok bytes := invertsTerms.whole

theorem persistedFeeRead : readPersistedFee input = .ok (fee, rest) ↔ ∃ bytes, appendFeeTerms fee = .ok bytes ∧ input = bytes ++ rest := by
  cases fee
  simp [readPersistedFee, appendFeeTerms, Wire.takePrefixedRead, Wire.lengthPrefixedOk]
  tauto

theorem oneRoomRead : readOneRoom input = .ok (room, rest) ↔ ∃ bytes, encodeOneRoom room = .ok bytes ∧ input = bytes ++ rest := by
  have bound : maxRoomBodyLength < 2 ^ 32 := by decide
  cases room
  simp [readOneRoom, encodeOneRoom, Wire.takePrefixedRead, Wire.lengthPrefixedOk, Wire.takePrefixed32Read bound, persistedFeeRead,
    decodeTermsOk, bytesU32]
  constructor
  · rintro ⟨terms, fee, same, _, termsWritten, feeWritten, reason⟩
    exact ⟨terms, fee, ⟨termsWritten, feeWritten, reason⟩, same⟩
  · rintro ⟨terms, fee, ⟨termsWritten, feeWritten, reason⟩, same⟩
    have short : terms.length ≤ maxRoomBodyLength := Nat.le_trans (Codec.termsLength termsWritten) (by decide)
    exact ⟨terms, fee, same, short, termsWritten, feeWritten, reason⟩

/- The checks that the reader makes and the writer does not. -/
structure RoomOnDisk.Tidy (room : RoomOnDisk) : Prop where
  roomId : validateRoomId room.roomId = .ok ()
  partyA : validateClientId room.partyA = .ok ()
  partyB : validateClientId room.partyB = .ok ()
  leg : room.legIndex ≤ 1

theorem decodeOneRoomOk : decodeOneRoom body = .ok room ↔ encodeOneRoom room = .ok body ∧ room.Tidy := by
  have caught : decodeOneRoom body = .ok room ↔ readWholeRoom body = .ok room := by
    simp only [decodeOneRoom]
    split
    · rename_i e thrown
      simp [thrown]
    · rfl
  rw [caught]
  simp only [readWholeRoom, bind_ok, exists_const, persistenceEscapingOk, throwIf_ok, pure_ok, Wire.readAllOk, oneRoomRead,
    List.append_nil, UInt8.not_lt, gt_iff_lt]
  constructor
  · rintro ⟨room, ⟨bytes, written, rfl⟩, _, roomId, _, partyA, _, partyB, leg, rfl⟩
    exact ⟨written, roomId, partyA, partyB, leg⟩
  · rintro ⟨written, roomId, partyA, partyB, leg⟩
    exact ⟨room, ⟨body, written, rfl⟩, (), roomId, (), partyA, (), partyB, leg, rfl⟩

theorem feeLength (written : appendFeeTerms fee = .ok bytes) : bytes.length ≤ 284 := by
  simp only [appendFeeTerms, bind_ok, pure_ok, Wire.lengthPrefixedOk] at written
  obtain ⟨_, _, asset, ⟨shortAsset, _, rfl⟩, address, ⟨shortAddress, _, rfl⟩, rfl⟩ := written
  simp only [Wire.prefixed, List.length_append, Wire.bigEndianLength]
  unfold maxAssetCodeLength at shortAsset
  unfold maxAddressLength at shortAddress
  omega

theorem bodyLength (written : encodeOneRoom room = .ok body) : body.length ≤ maxRoomBodyLength := by
  simp only [encodeOneRoom, bind_ok, pure_ok, Wire.lengthPrefixedOk] at written
  obtain ⟨terms, termsWritten, fee, feeWritten, reason, ⟨shortReason, _, rfl⟩, rfl⟩ := written
  have shortTerms := Codec.termsLength termsWritten
  have shortFee := feeLength feeWritten
  simp only [bytesU32, Wire.prefixed, List.length_append, Wire.bigEndianLength, Vector.length_toList, List.length_cons, List.length_nil]
  unfold maxReasonLength at shortReason
  unfold maxRoomBodyLength
  omega

/- A room behind its length; the tidy ones are those the reader makes. -/
theorem persistedRoomRead : readPersistedRoom input = .ok (room, rest) ↔
    room.Tidy ∧ ∃ bytes, appendRoom room = .ok bytes ∧ input = bytes ++ rest := by
  have bound : maxRoomBodyLength < 2 ^ 32 := by decide
  simp only [readPersistedRoom, appendRoom, Wire.bindRead, Wire.takePrefixed32Read bound, Wire.checkRead, decodeOneRoomOk, bind_ok,
    pure_ok, bytesU32]
  constructor
  · rintro ⟨body, _, ⟨_, rfl⟩, ⟨written, tidy⟩, rfl⟩
    exact ⟨tidy, _, ⟨body, written, rfl⟩, by rw [List.append_assoc]⟩
  · rintro ⟨tidy, _, ⟨body, written, rfl⟩, rfl⟩
    exact ⟨body, rest, ⟨bodyLength written, by rw [List.append_assoc]⟩, ⟨written, tidy⟩, rfl⟩

theorem persistedRoomsRead {rooms : List RoomOnDisk} {count : Nat} : readMany readPersistedRoom count input = .ok (rooms, rest) ↔
    rooms.length = count ∧ (∀ room ∈ rooms, room.Tidy) ∧ ∃ bytes, writeMany appendRoom rooms = .ok bytes ∧ input = bytes ++ rest := by
  induction count generalizing input rest rooms with
  | zero =>
    simp only [readMany, Wire.pureRead, List.length_eq_zero_iff]
    constructor
    · rintro ⟨rfl, rfl⟩
      exact ⟨rfl, by simp, [], rfl, rfl⟩
    · rintro ⟨rfl, _, _, written, rfl⟩
      obtain rfl := Except.ok.inj written
      exact ⟨rfl, rfl⟩
  | succ count ih =>
    simp only [readMany, Wire.bindRead, Wire.pureRead, persistedRoomRead, ih]
    cases rooms with
    | nil => simp
    | cons room more =>
      simp only [writeMany, bind_ok, pure_ok, List.cons.injEq, List.length_cons, Nat.add_right_cancel_iff, List.forall_mem_cons]
      constructor
      · rintro ⟨_, _, ⟨tidy, front, written, rfl⟩, _, _, ⟨rfl, others, back, many, rfl⟩, ⟨rfl, rfl⟩, rfl⟩
        exact ⟨rfl, ⟨tidy, others⟩, _, ⟨front, written, back, many, rfl⟩, by rw [List.append_assoc]⟩
      · rintro ⟨rfl, ⟨tidy, others⟩, _, ⟨front, written, back, many, rfl⟩, rfl⟩
        exact ⟨_, _, ⟨tidy, front, written, List.append_assoc _ _ _⟩, _, _, ⟨rfl, others, back, many, rfl⟩, ⟨rfl, rfl⟩, rfl⟩

theorem decodePersistedRoomsOk {file : PersistedRoomFile} : decodePersistedRooms bytes = .ok file ↔
    encodePersistedRooms file = .ok bytes ∧ file.formatVersion = persistedRoomFormatVersion ∧ ∀ room ∈ file.rooms, room.Tidy := by
  obtain ⟨formatVersion, rooms⟩ := file
  simp only [decodePersistedRooms, readPersistedRooms, encodePersistedRooms, Wire.readAllOk, Wire.bindRead, Wire.fixedRead, Wire.checkRead,
    Wire.u16Read, Wire.u32Read, Wire.pureRead, throwIf_ok, persistedRoomsRead, bind_ok, exists_const, pure_ok]
  constructor
  · rintro ⟨magic, _, rfl, _, ⟨known, rfl⟩, version, _, rfl, _, ⟨current, rfl⟩, count, _, rfl, _, ⟨few, rfl⟩, rooms', _,
      ⟨whole, tidy, written, many, rfl⟩, same, rfl⟩
    obtain ⟨rfl, rfl⟩ := PersistedRoomFile.mk.inj same
    obtain rfl := not_not.mp known
    refine ⟨⟨by omega, written, many, ?_⟩, not_not.mp current, tidy⟩
    rw [whole, List.append_nil]
  · rintro ⟨⟨few, written, many, rfl⟩, rfl, tidy⟩
    have short : rooms.length ≤ 4096 := Nat.le_of_not_lt few
    have count : (UInt32.ofNat rooms.length).toNat = rooms.length := UInt32.toNat_ofNat_of_lt' (by show _ < 2 ^ 32; omega)
    refine ⟨persistedRoomMagic, _, rfl, _, ⟨by simp, rfl⟩, persistedRoomFormatVersion, _, rfl, _, ⟨by simp, rfl⟩,
      UInt32.ofNat rooms.length, written, by rw [count], _, ⟨by rw [count]; exact few, rfl⟩, rooms, [], ?_, rfl, rfl⟩
    exact ⟨count.symm, tidy, written, many, (List.append_nil written).symm⟩

end Format

/-! The sessions that are restored from a file. -/

/- A session as `restore` leaves it: any byte may stand for its state. -/
structure RestoredSession where
  creator : CreateRoomMessage
  roomId : RoomId
  receiveAddressB : Bytes
  fee : FeeTerms
  state : UInt8
  roundIndex : UInt32
  legIndex : UInt8
  abortReason : Bytes
  requireFeeConfirmation : Bool
  feePosition : FeePosition
  deriving DecidableEq, Repr

def restoreByte (roomId : RoomId) (terms : TradeTerms) (receiveAddressA receiveAddressB : Bytes) (fee : FeeTerms) (state : UInt8)
    (roundIndex : UInt32) (legIndex : UInt8) (abortReason : Bytes) (requireFeeConfirmation : Bool) (feePosition : FeePosition) :
    Except Error RestoredSession := do
  validateTerms terms
  validateRoomId roomId
  validateFeeTerms fee
  if !receiveAddressA.isEmpty then validateAddress receiveAddressA
  if !receiveAddressB.isEmpty then validateAddress receiveAddressB
  throwIf (roundIndex > terms.rounds) (.invalidArgument "restored round index exceeds configured rounds")
  throwIf (legIndex > 1) (.invalidArgument "restored leg index must be 0 or 1")
  return { creator := ⟨terms, receiveAddressA⟩, roomId, receiveAddressB, fee, state, roundIndex,
           legIndex, abortReason, requireFeeConfirmation, feePosition }

-- The addresses are not in the file.
def RoomOnDisk.restore (room : RoomOnDisk) (requireFeeConfirmation : Bool) (feePosition : FeePosition) : Except Error RestoredSession :=
  restoreByte room.roomId room.terms [] [] room.fee room.state room.roundIndex room.legIndex room.abortReason
    requireFeeConfirmation feePosition

def MediatorSession.onDisk (s : MediatorSession) : RestoredSession where
  creator := s.creator
  roomId := s.roomId
  receiveAddressB := s.receiveAddressB
  fee := s.fee
  state := s.state.toByte
  roundIndex := s.roundIndex
  legIndex := s.legIndex
  abortReason := s.abortReason
  requireFeeConfirmation := s.requireFeeConfirmation
  feePosition := s.feePosition

/- Some run of a session on these terms comes to stand here. -/
def RestoredSession.Reachable (s : RestoredSession) : Prop :=
  ∃ state, SessionState.ofByte s.state = some state ∧
    MediatorSession.Reachable s.creator.terms s.fee state s.roundIndex s.legIndex

/- The state of a room, its round and its leg fit each other. -/
def RoomOnDisk.InPlace (room : RoomOnDisk) : Prop :=
  ∃ state, SessionState.ofByte room.state = some state ∧
    MediatorSession.Standing room.terms room.fee state room.roundIndex.toNat room.legIndex.toNat

/- Every session that is restored from the file is a reachable one. -/
def RestoresReachable (bytes : Bytes) : Prop :=
  ∀ file, decodePersistedRooms bytes = .ok file → ∀ room ∈ file.rooms, ∀ confirm feePosition session,
    room.restore confirm feePosition = .ok session → session.Reachable

structure RoomOnDisk.Valid (room : RoomOnDisk) : Prop extends room.Tidy where
  terms : validateTerms room.terms = .ok ()
  fee : validateFeeTerms room.fee = .ok ()
  abortReason : room.abortReason.length ≤ maxReasonLength

section Restored
variable {room : RoomOnDisk} {confirm : Bool} {feePosition : FeePosition} {session : RestoredSession} {bytes : Bytes}

/- A state that is one is restored as it is by the session's own `restore`. -/
theorem restoreByteKnown (roomId : RoomId) (terms : TradeTerms) (addressA addressB : Bytes) (fee : FeeTerms) (state : SessionState)
    (roundIndex : UInt32) (legIndex : UInt8) (abortReason : Bytes) (confirm : Bool) (feePosition : FeePosition) :
    restoreByte roomId terms addressA addressB fee state.toByte roundIndex legIndex abortReason confirm feePosition =
      (MediatorSession.restore roomId terms addressA addressB fee state roundIndex legIndex abortReason confirm feePosition).map
        MediatorSession.onDisk := by
  simp only [restoreByte, MediatorSession.restore, bind, Except.bind]
  cases validateTerms terms with
  | error e => rfl
  | ok _ =>
    cases validateRoomId roomId with
    | error e => rfl
    | ok _ =>
      cases validateFeeTerms fee with
      | error e => rfl
      | ok _ =>
        generalize throwIf (roundIndex > terms.rounds) _ = rounds
        generalize throwIf (legIndex > 1) _ = leg
        cases validateAddress addressA <;> cases validateAddress addressB <;> cases addressA.isEmpty <;> cases addressB.isEmpty <;>
          cases rounds <;> cases leg <;> rfl

/- A room that the running mediator keeps, as it is written. -/
def PersistedRoom.onDisk (kept : PersistedRoom) : RoomOnDisk where
  roomId := kept.roomId
  partyA := kept.partyA
  partyB := kept.partyB
  terms := kept.terms
  fee := kept.fee
  state := kept.state.toByte
  roundIndex := kept.roundIndex
  legIndex := kept.legIndex
  abortReason := kept.abortReason
  updatedAt := kept.updatedAt

theorem restoreKept (kept : PersistedRoom) (confirm : Bool) (feePosition : FeePosition) :
    kept.onDisk.restore confirm feePosition =
      (MediatorSession.restore kept.roomId kept.terms [] [] kept.fee kept.state kept.roundIndex kept.legIndex kept.abortReason
        confirm feePosition).map MediatorSession.onDisk :=
  restoreByteKnown kept.roomId kept.terms [] [] kept.fee kept.state kept.roundIndex kept.legIndex kept.abortReason confirm feePosition

theorem restoreOk : room.restore confirm feePosition = .ok session ↔
    (validateTerms room.terms = .ok () ∧ validateRoomId room.roomId = .ok () ∧ validateFeeTerms room.fee = .ok () ∧
      room.roundIndex ≤ room.terms.rounds ∧ room.legIndex ≤ 1) ∧
    { creator := ⟨room.terms, []⟩, roomId := room.roomId, receiveAddressB := [], fee := room.fee, state := room.state,
      roundIndex := room.roundIndex, legIndex := room.legIndex, abortReason := room.abortReason,
      requireFeeConfirmation := confirm, feePosition } = session := by
  simp only [RoomOnDisk.restore, restoreByte, List.isEmpty_nil, Bool.not_true, Bool.false_eq_true, if_false]
  simp only [check_ok, pure_ok, throwIf_ok, gt_iff_lt, UInt32.not_lt, UInt8.not_lt, and_assoc]

/- What a room's own writing and reading have checked. -/
theorem writtenOpens (written : encodeOneRoom room = .ok bytes) : MediatorSession.Opens room.terms room.fee := by
  simp only [encodeOneRoom, bind_ok] at written
  obtain ⟨terms, termsWritten, fee, feeWritten, _⟩ := written
  exact ⟨(check_ok.mp termsWritten).1, (check_ok.mp feeWritten).1⟩

theorem encodedEach {file : PersistedRoomFile} (written : encodePersistedRooms file = .ok bytes) :
    ∀ room ∈ file.rooms, ∃ body, encodeOneRoom room = .ok body := by
  intro room mem
  obtain ⟨_, rooms, many, _⟩ := (check_ok.mp written).imp_right bind_ok.mp
  obtain ⟨_, appended⟩ := Wire.writtenEach many room mem
  obtain ⟨body, encoded, _⟩ := bind_ok.mp appended
  exact ⟨body, encoded⟩

theorem restoredReachable (opens : MediatorSession.Opens room.terms room.fee) (tidy : room.Tidy) :
    (∀ confirm feePosition session, room.restore confirm feePosition = .ok session → session.Reachable) ↔
      (room.roundIndex ≤ room.terms.rounds → room.InPlace) := by
  constructor
  · intro reaches within
    have restored : room.restore false .afterLastRound = .ok _ := restoreOk.mpr ⟨⟨opens.terms, tidy.roomId, opens.fee, within, tidy.leg⟩, rfl⟩
    obtain ⟨state, byte, reachable⟩ := reaches _ _ _ restored
    exact ⟨state, byte, (MediatorSession.reachableIff opens).mp reachable⟩
  · intro inPlace confirm feePosition session restored
    obtain ⟨⟨_, _, _, within, _⟩, rfl⟩ := restoreOk.mp restored
    obtain ⟨state, byte, stands⟩ := inPlace within
    exact ⟨state, byte, (MediatorSession.reachableIff opens).mpr stands⟩

theorem restoresReachableIff (bytes : Bytes) : RestoresReachable bytes ↔
    ∀ file, decodePersistedRooms bytes = .ok file → ∀ room ∈ file.rooms, room.roundIndex ≤ room.terms.rounds → room.InPlace := by
  refine forall₂_congr fun file decoded => forall₂_congr fun room mem => ?_
  obtain ⟨written, _, tidy⟩ := decodePersistedRoomsOk.mp decoded
  obtain ⟨body, encoded⟩ := encodedEach written room mem
  exact restoredReachable (writtenOpens encoded) (tidy room mem)

theorem validateAssetShort {asset : Bytes} (valid : validateAsset asset = .ok ()) : Fits asset maxAssetCodeLength := by
  simp only [validateAsset, check_ok, throwIf_ok, not_or] at valid
  have short := Nat.le_of_not_lt valid.1.2
  unfold maxAssetCodeLength at short
  exact ⟨short, by omega⟩

theorem validAddressShort {address : Bytes} (valid : validateAddress address = .ok ()) : Fits address maxAddressLength := by
  simp only [validateAddress, validatePrintable, check_ok, throwIf_ok, not_or] at valid
  have short := Nat.le_of_not_lt valid.1.2
  unfold maxAddressLength at short
  exact ⟨short, by omega⟩

theorem validTermsEncode {terms : TradeTerms} (valid : validateTerms terms = .ok ()) : ∃ bytes, encodeTerms terms = .ok bytes := by
  have checks := valid
  simp only [validateTerms, check_ok] at checks
  have assetA := shortStringOk.mpr ⟨validateAssetShort checks.2.1, rfl⟩
  have assetB := shortStringOk.mpr ⟨validateAssetShort checks.2.2.1, rfl⟩
  exact ⟨_, check_ok.mpr ⟨valid, bind_ok.mpr ⟨_, assetA, bind_ok.mpr ⟨_, assetB, rfl⟩⟩⟩⟩

theorem validFeeAppends {fee : FeeTerms} (valid : validateFeeTerms fee = .ok ()) : ∃ bytes, appendFeeTerms fee = .ok bytes := by
  have short : Fits fee.asset maxAssetCodeLength ∧ Fits fee.address maxAddressLength := by
    have checks := valid
    simp only [validateFeeTerms] at checks
    split at checks
    · simp only [throwIf_ok, List.isEmpty_iff, not_or, not_not] at checks
      rw [checks.1, checks.2]
      exact ⟨⟨Nat.zero_le _, Nat.zero_le _⟩, Nat.zero_le _, Nat.zero_le _⟩
    · simp only [check_ok] at checks
      exact ⟨validateAssetShort checks.1, validAddressShort checks.2⟩
  have asset : Wire.lengthPrefixed persistedFieldTooLong fee.asset maxAssetCodeLength = .ok _ := Wire.lengthPrefixedOk.mpr ⟨short.1.1, short.1.2, rfl⟩
  have address : Wire.lengthPrefixed persistedFieldTooLong fee.address maxAddressLength = .ok _ := Wire.lengthPrefixedOk.mpr ⟨short.2.1, short.2.2, rfl⟩
  exact ⟨_, check_ok.mpr ⟨valid, bind_ok.mpr ⟨_, asset, bind_ok.mpr ⟨_, address, rfl⟩⟩⟩⟩

theorem RoomOnDisk.Valid.appends (valid : room.Valid) : ∃ bytes, appendRoom room = .ok bytes := by
  obtain ⟨terms, termsWritten⟩ := validTermsEncode valid.terms
  obtain ⟨fee, feeWritten⟩ := validFeeAppends valid.fee
  have short := valid.abortReason
  unfold maxReasonLength at short
  have reason : Wire.lengthPrefixed persistedFieldTooLong room.abortReason maxReasonLength = .ok _ :=
    Wire.lengthPrefixedOk.mpr ⟨valid.abortReason, by omega, rfl⟩
  exact ⟨_, bind_ok.mpr ⟨_, bind_ok.mpr ⟨_, termsWritten, bind_ok.mpr ⟨_, feeWritten, bind_ok.mpr ⟨_, reason, rfl⟩⟩⟩, rfl⟩⟩

theorem roomsReadBack {rooms : List RoomOnDisk} (few : rooms.length ≤ maxRoomCount) (valid : ∀ room ∈ rooms, room.Valid) :
    ∃ bytes, encodePersistedRooms { rooms } = .ok bytes ∧ decodePersistedRooms bytes = .ok { rooms } := by
  obtain ⟨written, many⟩ := Wire.writeManyAll fun room mem => (valid room mem).appends
  obtain ⟨bytes, encoded⟩ : ∃ bytes, encodePersistedRooms { rooms } = .ok bytes :=
    ⟨_, check_ok.mpr ⟨throwIf_not (Nat.not_lt_of_le few), bind_ok.mpr ⟨written, many, rfl⟩⟩⟩
  exact ⟨bytes, encoded, decodePersistedRoomsOk.mpr ⟨encoded, rfl, fun room mem => (valid room mem).toTidy⟩⟩

end Restored

/- Valid rooms are read back as they were written; the sessions restored from a file are reachable if its rooms are in place. -/
theorem roomFileKept (bytes : Bytes) :
    (∀ rooms : List RoomOnDisk, rooms.length ≤ maxRoomCount → (∀ room ∈ rooms, room.Valid) →
      ∃ bytes, encodePersistedRooms { rooms } = .ok bytes ∧ decodePersistedRooms bytes = .ok { rooms }) ∧
    (RestoresReachable bytes ↔ ∀ file, decodePersistedRooms bytes = .ok file → ∀ room ∈ file.rooms,
      room.roundIndex ≤ room.terms.rounds → room.InPlace) :=
  ⟨fun _ few valid => roomsReadBack few valid, restoresReachableIff bytes⟩

/-! A room whose state is no state, and one that waits in a round after the last. -/

def misplacedRoom (state : UInt8) (roundIndex : UInt32) : RoomOnDisk where
  roomId := MediatorSession.swapRoom
  partyA := Vector.replicate 16 1
  partyB := Vector.replicate 16 2
  terms := MediatorSession.swapCreator.terms
  fee := MediatorSession.swapFee
  state := state
  roundIndex := roundIndex
  legIndex := 0
  abortReason := []
  updatedAt := 0

theorem misplacedValid (state : UInt8) (roundIndex : UInt32) : (misplacedRoom state roundIndex).Valid where
  roomId := (by decide : validateRoomId MediatorSession.swapRoom = .ok ())
  partyA := (by decide : validateClientId (Vector.replicate 16 1) = .ok ())
  partyB := (by decide : validateClientId (Vector.replicate 16 2) = .ok ())
  leg := (by decide : (0 : UInt8) ≤ 1)
  terms := (by decide : validateTerms MediatorSession.swapCreator.terms = .ok ())
  fee := (by decide : validateFeeTerms MediatorSession.swapFee = .ok ())
  abortReason := Nat.zero_le _

theorem misplacedRestored : (∃ bytes, decodePersistedRooms bytes = .ok { rooms := [misplacedRoom 9 0] } ∧ ¬RestoresReachable bytes) ∧
    ∃ bytes, decodePersistedRooms bytes = .ok { rooms := [misplacedRoom 1 2] } ∧ ¬RestoresReachable bytes := by
  have written (state : UInt8) (roundIndex : UInt32) :
      ∃ bytes, decodePersistedRooms bytes = .ok { rooms := [misplacedRoom state roundIndex] } := by
    have valid : ∀ room ∈ [misplacedRoom state roundIndex], room.Valid := by simpa using misplacedValid state roundIndex
    obtain ⟨bytes, _, decoded⟩ := roomsReadBack (Nat.le_of_ble_eq_true rfl) valid
    exact ⟨bytes, decoded⟩
  have apart {bytes : Bytes} {state : UInt8} {roundIndex : UInt32}
      (decoded : decodePersistedRooms bytes = .ok { rooms := [misplacedRoom state roundIndex] })
      (within : roundIndex ≤ 2) (misplaced : ¬(misplacedRoom state roundIndex).InPlace) : ¬RestoresReachable bytes := by
    rw [restoresReachableIff]
    exact fun all => misplaced (all _ decoded _ (by simp) within)
  obtain ⟨unknown, decodedUnknown⟩ := written 9 0
  obtain ⟨beyond, decodedBeyond⟩ := written 1 2
  refine ⟨⟨unknown, decodedUnknown, apart decodedUnknown (by decide) ?_⟩, beyond, decodedBeyond, apart decodedBeyond (by decide) ?_⟩
  · rintro ⟨state, byte, _⟩
    cases byte
  · rintro ⟨state, byte, stands⟩
    cases byte
    exact absurd stands (by decide)

end TradeP2P
