import TradeP2P.Credential.IssuanceStore

/-! The tickets of blind-signature requests that wait for the operator: one file each, named by its
id, replaced by a rename. -/
namespace TradeP2P.Credential
open Wire (Bytes ascii bigEndian Inverts readMany writeMany)
open Checks
open Directory (Files)

def ringDegree : Nat := 512
def maxTicketFileLength : Nat := 32768

abbrev TicketId := Vector UInt8 32
abbrev PolyQ := List Int64

inductive TicketStatus where | pending | signed
  deriving DecidableEq, Repr

def TicketStatus.toByte : TicketStatus → UInt8
  | .pending => 0
  | .signed => 1

structure Signature where
  s0 : PolyQ
  s1 : PolyQ
  deriving DecidableEq, Repr

structure Ticket where
  ticketId : TicketId
  c : PolyQ
  receivedAtUnixSeconds : UInt64
  status : TicketStatus := .pending
  signature : Option Signature := none
  deriving DecidableEq, Repr

inductive TicketStoreError where
  | full (text : String)
  | format (text : String)
  | other (error : Error)
  deriving DecidableEq, Repr

def TicketStoreError.text : TicketStoreError → String
  | .full text | .format text => text
  | .other (.invalidArgument text) | .other (.logicError text) | .other (.runtimeError text) => text

namespace Ticket

def magic : Vector UInt8 4 := #v[0x54, 0x50, 0x51, 0x4b]
def formatVersion : UInt16 := 1

def encodeCoefficient (coefficient : Int64) : Except TicketStoreError Bytes :=
  .ok (bigEndian 8 coefficient.toUInt64.toNat)

def encode (ticket : Ticket) : Except TicketStoreError Bytes := do
  let c ← writeMany encodeCoefficient ticket.c
  let head := magic.toList ++ (bigEndian 2 formatVersion.toNat ++ (ticket.ticketId.toList ++
    (bigEndian 8 ticket.receivedAtUnixSeconds.toNat ++ ([ticket.status.toByte] ++ (bigEndian 4 ringDegree ++ c)))))
  match ticket.status, ticket.signature with
  | .pending, _ => return head
  | .signed, none => throw (.other (.invalidArgument "q7933 ticket store: kSigned ticket is missing its signature"))
  | .signed, some signature => do
      let s0 ← writeMany encodeCoefficient signature.s0
      let s1 ← writeMany encodeCoefficient signature.s1
      return head ++ (s0 ++ s1)

def truncated : TicketStoreError := .format "truncated q7933 ticket file"

def coefficient : Wire.Reader TicketStoreError Int64 := do
  let bits ← Wire.u64 truncated
  return bits.toInt64

def poly : Wire.Reader TicketStoreError PolyQ := readMany coefficient ringDegree

def fields : Wire.Reader TicketStoreError Ticket := do
  let found ← Wire.fixed truncated 4
  throwIf (found ≠ magic) (TicketStoreError.format "not a tradep2p q7933 ticket file (bad magic)")
  let version ← Wire.u16 truncated
  throwIf (version ≠ formatVersion) (TicketStoreError.format "unsupported q7933 ticket file format version")
  let ticketId ← Wire.fixed truncated 32
  let receivedAtUnixSeconds ← Wire.u64 truncated
  let status ← Wire.u8 truncated
  throwIf (status ≠ 0 ∧ status ≠ 1) (TicketStoreError.format "unknown q7933 ticket status byte")
  let degree ← Wire.u32 truncated
  throwIf (degree ≠ 512) (TicketStoreError.format "q7933 ticket file has the wrong ring degree")
  let c ← poly
  if status = 1 then do
    let s0 ← poly
    let s1 ← poly
    return { ticketId, c, receivedAtUnixSeconds, status := .signed, signature := some ⟨s0, s1⟩ }
  else
    return { ticketId, c, receivedAtUnixSeconds }

def decode (bytes : Bytes) : Except TicketStoreError Ticket :=
  Wire.readAll (.format "trailing bytes after q7933 ticket record") fields bytes

/- What the store writes: polynomials of the ring's degree, and a signature when the ticket is signed. -/
structure WellFormed (ticket : Ticket) : Prop where
  c : ticket.c.length = ringDegree
  pending : ticket.status = .pending → ticket.signature = none
  signed : ticket.status = .signed → ∃ signature, ticket.signature = some signature ∧
    signature.s0.length = ringDegree ∧ signature.s1.length = ringDegree

theorem coefficientInverts : Inverts coefficient encodeCoefficient := by
  intro input rest value
  simp only [coefficient, encodeCoefficient, Wire.bindRead, Wire.u64Read, Wire.pureRead]
  constructor
  · intro read
    obtain ⟨bits, _, rfl, rfl, rfl⟩ := read
    exact ⟨_, rfl, by simp⟩
  · intro written
    obtain ⟨bytes, same, rfl⟩ := written
    obtain rfl := Except.ok.inj same
    exact ⟨value.toUInt64, rest, rfl, by simp, rfl⟩

theorem polyRead {input rest : Bytes} {p : PolyQ} : poly input = .ok (p, rest) ↔
    p.length = ringDegree ∧ ∃ bytes, writeMany encodeCoefficient p = .ok bytes ∧ input = bytes ++ rest :=
  coefficientInverts.many

theorem polyWritten (p : PolyQ) : ∃ bytes, writeMany encodeCoefficient p = .ok bytes :=
  Wire.writesMany _ _ fun _ _ => ⟨_, rfl⟩

theorem encodeOk {ticket : Ticket} (fine : ticket.WellFormed) : ∃ bytes, ticket.encode = .ok bytes := by
  obtain ⟨c, writtenC⟩ := polyWritten ticket.c
  unfold encode
  rw [writtenC]
  cases status : ticket.status with
  | pending => exact ⟨_, rfl⟩
  | signed =>
      obtain ⟨signature, there, _⟩ := fine.signed status
      obtain ⟨s0, writtenS0⟩ := polyWritten signature.s0
      obtain ⟨s1, writtenS1⟩ := polyWritten signature.s1
      rw [there]
      dsimp only [bind, Except.bind]
      rw [writtenS0, writtenS1]
      exact ⟨_, rfl⟩

/- A ticket is read back as it was written. -/
theorem decodeEncode {ticket : Ticket} {bytes : Bytes} (fine : ticket.WellFormed) (written : ticket.encode = .ok bytes) :
    decode bytes = .ok ticket := by
  have readPoly {p : PolyQ} (degree : p.length = ringDegree) {bytes : Bytes} (made : writeMany encodeCoefficient p = .ok bytes) :
      Wire.Reads poly bytes p := fun rest => polyRead.mpr ⟨degree, bytes, made, rfl⟩
  suffices reads : Wire.Reads fields bytes ticket from reads.exhausts.readAll _
  obtain ⟨c, writtenC⟩ := polyWritten ticket.c
  have readC := readPoly fine.c writtenC
  unfold encode at written
  rw [writtenC] at written
  obtain ⟨id, target, received, status, signature⟩ := ticket
  cases status with
  | pending =>
      obtain rfl : signature = none := fine.pending rfl
      obtain rfl := Except.ok.inj written
      refine (Wire.readsFixed _ magic).bind (.behind (throwIf_not (by simp)) ?_)
      refine (Wire.readsU16 _ formatVersion).bind (.behind (throwIf_not (by simp)) ?_)
      refine (Wire.readsFixed _ id).bind ((Wire.readsU64 _ received).bind ?_)
      refine (Wire.readsU8 _ 0).bind (.behind (throwIf_not (by decide)) ?_)
      refine (Wire.readsU32 _ 512).bind (.behind (throwIf_not (by decide)) ?_)
      exact readC.returns fun c => Ticket.mk id c received .pending none
  | signed =>
      obtain ⟨signed, rfl, degreeS0, degreeS1⟩ := fine.signed rfl
      obtain ⟨s0, writtenS0⟩ := polyWritten signed.s0
      obtain ⟨s1, writtenS1⟩ := polyWritten signed.s1
      dsimp only [bind, Except.bind] at written
      rw [writtenS0, writtenS1] at written
      obtain rfl := Except.ok.inj written
      simp only [List.append_assoc]
      refine (Wire.readsFixed _ magic).bind (.behind (throwIf_not (by simp)) ?_)
      refine (Wire.readsU16 _ formatVersion).bind (.behind (throwIf_not (by simp)) ?_)
      refine (Wire.readsFixed _ id).bind ((Wire.readsU64 _ received).bind ?_)
      refine (Wire.readsU8 _ 1).bind (.behind (throwIf_not (by decide)) ?_)
      refine (Wire.readsU32 _ 512).bind (.behind (throwIf_not (by decide)) (readC.bind ?_))
      refine (readPoly degreeS0 writtenS0).bind ?_
      exact (readPoly degreeS1 writtenS1).returns fun s1 => Ticket.mk id target received .signed (some ⟨signed.s0, s1⟩)

theorem encodeLength {ticket : Ticket} {bytes : Bytes} (fine : ticket.WellFormed) (written : ticket.encode = .ok bytes) :
    bytes.length ≤ maxTicketFileLength := by
  have width {p : PolyQ} {bytes : Bytes} (made : writeMany encodeCoefficient p = .ok bytes) : bytes.length ≤ p.length * 8 :=
    Wire.writeManyLength (fun {_ bytes} one => by
      obtain rfl := Except.ok.inj one
      simp) made
  obtain ⟨c, writtenC⟩ := polyWritten ticket.c
  have widthC := width writtenC
  have degree := fine.c
  unfold encode at written
  rw [writtenC] at written
  unfold ringDegree at degree
  unfold maxTicketFileLength
  cases status : ticket.status with
  | pending =>
      rw [status] at written
      obtain rfl := Except.ok.inj written
      simp only [List.length_append, Vector.length_toList, Wire.bigEndianLength, List.length_singleton]
      omega
  | signed =>
      obtain ⟨signed, there, degreeS0, degreeS1⟩ := fine.signed status
      obtain ⟨s0, writtenS0⟩ := polyWritten signed.s0
      obtain ⟨s1, writtenS1⟩ := polyWritten signed.s1
      have widthS0 := width writtenS0
      have widthS1 := width writtenS1
      rw [status, there] at written
      dsimp only [bind, Except.bind] at written
      rw [writtenS0, writtenS1] at written
      obtain rfl := Except.ok.inj written
      unfold ringDegree at degreeS0 degreeS1
      simp only [List.length_append, Vector.length_toList, Wire.bigEndianLength, List.length_singleton]
      omega

end Ticket

/-! The store's operations on its directory. -/

abbrev Tickets := Files Bytes Bytes

def toHex (id : TicketId) : Bytes := id.toList.flatMap hexByte

def hexText (id : TicketId) : String := String.ofList ((toHex id).map fun digit => Char.ofNat digit.toNat)

def ticketPath (id : TicketId) : Bytes := toHex id ++ ascii ".qtkt"

-- A name that is all extension has none.
def hasTicketExtension (name : Bytes) : Bool := (ascii ".qtkt").isSuffixOf name && name ≠ ascii ".qtkt"

def existing (tickets : Tickets) : Nat := (tickets.filter fun file => hasTicketExtension file.1).length

def find (tickets : Tickets) (id : TicketId) : Except TicketStoreError (Option Ticket) :=
  match Directory.read tickets (ticketPath id) with
  | none => .ok none
  | some raw => do
      throwIf (raw.length > maxTicketFileLength) (TicketStoreError.format
        "q7933 ticket file exceeds the maximum allowed length")
      let ticket ← Ticket.decode raw
      return some ticket

def markSigned (tickets : Tickets) (id : TicketId) (signature : Signature) : Except TicketStoreError Tickets := do
  match ← find tickets id with
  | none => throw (.other (.logicError ("q7933 ticket store: cannot sign unknown ticket " ++ hexText id)))
  | some ticket =>
      throwIf (ticket.status ≠ .pending) (TicketStoreError.other (.logicError
        ("q7933 ticket store: ticket " ++ hexText id ++ " is not pending")))
      let bytes ← { ticket with status := .signed, signature := some signature }.encode
      return Directory.replace tickets (ticketPath id) bytes

def remove (tickets : Tickets) (id : TicketId) : Tickets := Directory.unlink tickets (ticketPath id)

theorem ticketPathInj {a b : TicketId} (same : ticketPath a = ticketPath b) : a = b :=
  Vector.toList_inj.mp (hexBytesInj (List.append_cancel_right same))

/- A written ticket is found. -/
theorem findWritten {tickets : Tickets} {id : TicketId} {ticket : Ticket} {bytes : Bytes} (fine : ticket.WellFormed)
    (written : ticket.encode = .ok bytes) (there : Directory.read tickets (ticketPath id) = some bytes) :
    find tickets id = .ok (some ticket) := by
  unfold find
  rw [there]
  simp only [bind_ok, throwIf_ok, pure_ok]
  exact ⟨(), Nat.not_lt_of_le (Ticket.encodeLength fine written), ticket, Ticket.decodeEncode fine written, rfl⟩

end TradeP2P.Credential
