import TradeP2P.Hub.FeeGate
import TradeP2P.Identity.KeyLogin
import TradeP2P.Lib.Schedules
import TradeP2P.Mediator.FeeConfig

/-! The admin control channel and the fee plugin beside the hub. A connection of the channel is one line and one answer; the line
carries one of two tokens, and the narrower one is for pending fees alone. The plugin's thread asks about every pending fee and
confirms what it is told was paid. Both look at the rooms one lock at a time, while the clients' threads go on. -/
namespace TradeP2P
open Wire (Bytes ascii)
open Checks

def roomIdToHex (id : RoomId) : Except Error Bytes := do
  validateRoomId id
  return toHex id.toList

theorem roomIdSized (bytes : Bytes) (long : bytes.length = 32) : bytes.toArray.size = 32 := long

def roomIdFromHex (text : Bytes) : Except Error RoomId := do
  throwIf (text.length ≠ 64) (.invalidArgument "room id has wrong length")
  match hexBytes text with
  | none => throw (.invalidArgument "room id is not hexadecimal")
  | some bytes =>
      if long : bytes.length = 32 then do
        let id : RoomId := ⟨bytes.toArray, roomIdSized bytes long⟩
        validateRoomId id
        return id
      else throw (.invalidArgument "room id has wrong length")

-- A number of 64 bits, and nothing behind it.
def fromChars (text : Bytes) : Option UInt64 :=
  let value := text.foldl (fun n digit => 10 * n + (digit.toNat - 0x30)) 0
  if text ≠ [] ∧ text.all (fun digit => 0x30 ≤ digit ∧ digit ≤ 0x39) = true ∧ value < 2 ^ 64 then some (UInt64.ofNat value) else none

namespace AdminChannel

/-! Lines. -/

inductive Command where
  | getFee
  | setFee (asset amount address : Bytes)
  | listPendingFees
  | feeDetails (roomId : Bytes)
  | confirmFee (roomId : Bytes)
  | unknown
  deriving DecidableEq, Repr

-- A word that is missing is empty.
def Command.read (line : Bytes) : Command :=
  let word (n : Nat) : Bytes := (RegistryServer.words line).getD n []
  if word 0 = ascii "GETFEE" then .getFee
  else if word 0 = ascii "SETFEE" then .setFee (word 2) (word 3) (word 4)
  else if word 0 = ascii "LISTPENDINGFEES" then .listPendingFees
  else if word 0 = ascii "FEEDETAILS" then .feeDetails (word 2)
  else if word 0 = ascii "CONFIRMFEE" then .confirmFee (word 2)
  else .unknown

def Command.feesOnly : Command → Bool
  | .listPendingFees | .feeDetails _ | .confirmFee _ => true
  | _ => false

structure Settings where
  lobby : Lobby.LobbyConfig
  adminToken : Bytes
  adminFeeToken : Bytes
  feePersistFile : String
  plugin : Bool

inductive Access where | full | fees
  deriving DecidableEq, Repr

def access (settings : Settings) (line : Bytes) : Option Access :=
  let token := (RegistryServer.words line).getD 1 []
  if settings.adminToken ≠ [] ∧ token = settings.adminToken then some .full
  else if settings.adminFeeToken ≠ [] ∧ token = settings.adminFeeToken then some .fees
  else none

def admitted (settings : Settings) (line : Bytes) : Option Command :=
  match access settings line with
  | some .full => some (.read line)
  | some .fees => if (Command.read line).feesOnly then some (.read line) else none
  | none => none

-- With "-" for the asset, or none at all, there is no fee.
def feeTerms (asset amount address : Bytes) : Except Error FeeTerms := do
  if asset ≠ ascii "-" ∧ asset ≠ [] then
    match fromChars amount with
    | none => throw (.invalidArgument "invalid fee amount")
    | some amount => do
        throwIf (amount = 0) (.invalidArgument "invalid fee amount")
        validateFeeTerms { asset, amount, address }
        return { asset, amount, address }
  else return {}

def lineOf (received : Bytes) : Bytes :=
  let line := received.takeWhile (· ≠ newline)
  if line.getLast? = some 0x0d then line.dropLast else line

/-! Answers. -/

structure PendingFeeDetail where
  roomId : RoomId
  fee : FeeTerms
  since : UInt64
  deriving DecidableEq, Repr

def unauthorized : Bytes := ascii "ERR unauthorized"
def accepted : Bytes := ascii "OK"
def failed (text : String) : Bytes := ascii "ERR " ++ ascii text
def noSuchRoom : Bytes := ascii "ERR no room with that id is waiting for fee confirmation"

def feeWords (fee : FeeTerms) : Bytes := fee.asset ++ 0x20 :: (decimal fee.amount.toNat ++ 0x20 :: fee.address)

def currentFee (fee : FeeTerms) : Bytes := if fee.amount = 0 then ascii "OK NONE" else ascii "OK " ++ feeWords fee

def details (detail : PendingFeeDetail) : Bytes := ascii "OK " ++ (feeWords detail.fee ++ 0x20 :: decimal detail.since.toNat)

def listed (found : List PendingFeeDetail) : Except Error Bytes :=
  if found = [] then return ascii "OK NONE"
  else do
    let ids ← found.mapM fun detail => roomIdToHex detail.roomId
    return ascii "OK " ++ List.intercalate [0x2c] ids

/- What a look at the pending fees is answered with, none if the connection is closed without a word. -/
def surveyed (asked : Option RoomId) (found : List PendingFeeDetail) : Option Bytes :=
  match asked with
  | none => (listed found).toOption
  | some id => some (match found.find? fun detail => detail.roomId = id with
    | some detail => details detail
    | none => noSuchRoom)

/-! The state of both threads. -/

def admin : Lobby.Worker := .operator 0
def plugin : Lobby.Worker := .operator 1

/- A connection of the channel. -/
inductive Place where
  | listening
  | reading (received : Bytes)
  | heard (line : Bytes)
  | surveying (line : Bytes) (asked : Option RoomId) (left : List Nat) (found : List PendingFeeDetail)
  | confirming (line : Bytes) (settled : Bool)
  deriving DecidableEq, Repr

/- A poll of the plugin: nothing is left to be asked between two polls. -/
inductive Poll where
  | surveying (left : List Nat) (found : List PendingFeeDetail)
  | asking (left : List PendingFeeDetail)
  | confirming (detail : PendingFeeDetail) (left : List PendingFeeDetail)
  deriving DecidableEq, Repr

/- The last three fields say what has happened: the lines that were taken up, the answers to them, and what the plugin said was
paid or was not. -/
structure State where
  lobby : Lobby.State
  file : Option Bytes
  place : Place := .listening
  poll : Poll := .asking []
  heard : List Bytes := []
  answers : List (Bytes × Bytes) := []
  verdicts : List (PendingFeeDetail × Bool) := []

/- An order is one in which the table of rooms may be gone through. -/
inductive Event where
  | hub (event : Lobby.Event)
  | edits (file : Option Bytes)
  | accepts
  | receives (bytes : Bytes)
  | drops
  | handles (order : List Nat) (writable : Bool)
  | looks
  | confirms (env : Lobby.LobbyEnv)
  | polls (order : List Nat)
  | pollLooks
  | checks (paid : Bool)
  | pollConfirms (env : Lobby.LobbyEnv)

-- Operators and the fee are moved by the two threads alone.
def others : Lobby.Event → Bool
  | .confirmsFee .. | .setsFee _ | .acts (.operator _) _ => false
  | _ => true

def look (tables : Lobby.Tables) (place : Nat) : List PendingFeeDetail :=
  match tables.entries[place]? with
  | some room => if room.session.state = .waitingForFeeConfirmation then
      [⟨room.id, room.session.fee, room.feeConfirmationPendingSince.getD 0⟩] else []
  | none => []

-- The room was waiting, and its receipt has been issued.
def settles : Lobby.Task → Bool
  | .room _ _ (.telling _) => true
  | _ => false

namespace State
variable (s : State)

def answer (line reply : Bytes) : State := { s with place := .listening, answers := s.answers ++ [(line, reply)] }

def read (received : Bytes) : State :=
  { s with place := if newline ∈ received ∨ received.length > 4096 then .heard (lineOf received) else .reading received }

def asks (settings : Settings) (operator : Nat) (id : RoomId) : Option Lobby.State :=
  Lobby.fire settings.lobby s.lobby (.confirmsFee operator id)

def setFee (settings : Settings) (line : Bytes) (writable : Bool) (fee : FeeTerms) : State :=
  let holder : FeeHolder := ⟨settings.feePersistFile, s.file, writable, s.lobby.tables.fee⟩
  match holder.setFee fee with
  | .ok kept => { s with lobby := { s.lobby with tables := { s.lobby.tables with fee := kept.fee } }, file := kept.file }.answer line accepted
  | .error e => s.answer line (failed e.text)

def handle (settings : Settings) (line : Bytes) (order : List Nat) (writable : Bool) : Option State :=
  let s := { s with heard := s.heard ++ [line] }
  let survey (asked : Option RoomId) : Option State :=
    if order.Perm s.lobby.tables.rooms then some { s with place := .surveying line asked order [] } else none
  match admitted settings line with
  | none => some (s.answer line unauthorized)
  | some .getFee => some (s.answer line (currentFee s.lobby.tables.fee))
  | some (.setFee asset amount address) =>
      match feeTerms asset amount address with
      | .ok fee => some (s.setFee settings line writable fee)
      | .error e => some (s.answer line (failed e.text))
  | some .listPendingFees => survey none
  | some (.feeDetails roomId) =>
      match roomIdFromHex roomId with
      | .ok id => survey (some id)
      | .error e => some (s.answer line (failed e.text))
  | some (.confirmFee roomId) =>
      match roomIdFromHex roomId with
      | .ok id => (s.asks settings 0 id).map fun lobby => { s with lobby, place := .confirming line false }
      | .error e => some (s.answer line (failed e.text))
  | some .unknown => some (s.answer line (ascii "ERR unknown command"))

def confirm (settings : Settings) (line : Bytes) (settled : Bool) (env : Lobby.LobbyEnv) : Option State :=
  if s.lobby.tables.drawable env.drawn then
    match (s.lobby.tasks admin).run settings.lobby env s.lobby.tables with
    | .ok task tables =>
        let s := { s with lobby := s.lobby.put tables admin task }
        if task = .idle then some (s.answer line (if settled then accepted else noSuchRoom))
        else some { s with place := .confirming line (settled || settles task) }
    | .error e tables => some ({ s with lobby := s.lobby.put tables admin .idle }.answer line (failed e.text))
  else none

-- What the plugin throws off course is the rest of one poll.
def pollConfirm (settings : Settings) (detail : PendingFeeDetail) (left : List PendingFeeDetail) (env : Lobby.LobbyEnv) : Option State :=
  if s.lobby.tables.drawable env.drawn then
    match (s.lobby.tasks plugin).run settings.lobby env s.lobby.tables with
    | .ok task tables => some { s with lobby := s.lobby.put tables plugin task
                                       poll := if task = .idle then .asking left else .confirming detail left }
    | .error _ tables => some { s with lobby := s.lobby.put tables plugin .idle, poll := .asking [] }
  else none

def check (settings : Settings) (detail : PendingFeeDetail) (left : List PendingFeeDetail) (paid : Bool) : Option State :=
  match roomIdToHex detail.roomId with
  | .error _ => some { s with poll := .asking [] }
  | .ok _ =>
      let s := { s with verdicts := s.verdicts ++ [(detail, paid)] }
      if paid then (s.asks settings 1 detail.roomId).map fun lobby => { s with lobby, poll := .confirming detail left }
      else some { s with poll := .asking left }

end State

def fire (settings : Settings) (s : State) (event : Event) : Option State :=
  match event, s.place, s.poll with
  | .hub event, _, _ =>
      if others event then (Lobby.fire settings.lobby s.lobby event).map fun lobby => { s with lobby } else none
  | .edits file, _, _ => some { s with file }
  | .accepts, .listening, _ => if settings.adminToken ≠ [] then some { s with place := .reading [] } else none
  | .receives bytes, .reading received, _ =>
      if bytes ≠ [] ∧ bytes.length ≤ 512 then some (s.read (received ++ bytes)) else none
  | .drops, .reading _, _ => some { s with place := .listening }
  | .handles order writable, .heard line, _ => s.handle settings line order writable
  | .looks, .surveying line asked (place :: left) found, _ =>
      some { s with place := .surveying line asked left (found ++ look s.lobby.tables place) }
  | .looks, .surveying line asked [] found, _ =>
      some (match surveyed asked found with
        | some reply => s.answer line reply
        | none => { s with place := .listening })
  | .confirms env, .confirming line settled, _ => s.confirm settings line settled env
  | .polls order, _, .asking [] =>
      if settings.plugin ∧ order.Perm s.lobby.tables.rooms then some { s with poll := .surveying order [] } else none
  | .pollLooks, _, .surveying (place :: left) found => some { s with poll := .surveying left (found ++ look s.lobby.tables place) }
  | .pollLooks, _, .surveying [] found => some { s with poll := .asking found }
  | .checks paid, _, .asking (detail :: left) => s.check settings detail left paid
  | .pollConfirms env, _, .confirming detail left => s.pollConfirm settings detail left env
  | _, _, _ => none

abbrev Run (settings : Settings) : State → State → Prop := Schedules.Run (fire settings) fun _ _ => True

/- Nothing was said on the channel and nothing polled yet. -/
def started (lobby : Lobby.State) (file : Option Bytes) : State := { lobby, file }

/-! What is true of every run. -/

/- The fee a line set, if its answer is that it did. -/
def feeSet (settings : Settings) (said : Bytes × Bytes) : Option FeeTerms :=
  match admitted settings said.1 with
  | some (.setFee asset amount address) => if said.2 = accepted then (feeTerms asset amount address).toOption else none
  | _ => none

def inForce (settings : Settings) (fee : FeeTerms) (answers : List (Bytes × Bytes)) : FeeTerms :=
  (answers.filterMap (feeSet settings)).getLastD fee

/- The room that a line with a token wants confirmed. -/
def names (settings : Settings) (line : Bytes) : Option RoomId :=
  match admitted settings line with
  | some (.confirmFee roomId) => (roomIdFromHex roomId).toOption
  | _ => none

/- Whose fee the channel and the plugin are confirming. -/
def Place.confirms (settings : Settings) : Place → Option RoomId
  | .confirming line _ => names settings line
  | _ => none

def Poll.confirms : Poll → Option RoomId
  | .confirming detail _ => some detail.roomId
  | _ => none

def Confirming (settings : Settings) (place : Place) (poll : Poll) (operator : Nat) (id : RoomId) : Prop :=
  operator = 0 ∧ place.confirms settings = some id ∨ operator = 1 ∧ poll.confirms = some id

/- There is such a room, and the fee told is the one it was made with. -/
def Told (tables : Lobby.Tables) (detail : PendingFeeDetail) : Prop :=
  ∃ (place : Nat) (room : RoomEntry), tables.entries[place]? = some room ∧ room.id = detail.roomId ∧ room.session.fee = detail.fee

structure Answered (settings : Settings) (heard : List Bytes) (tables : Lobby.Tables) (line reply : Bytes) : Prop where
  heard : line ∈ heard
  refused : admitted settings line = none → reply = unauthorized
  told : ∀ roomId id, admitted settings line = some (.feeDetails roomId) → roomIdFromHex roomId = .ok id →
    reply = noSuchRoom ∨ ∃ detail, detail.roomId = id ∧ Told tables detail ∧ reply = details detail

/- What a survey is for. -/
def Surveys (settings : Settings) (line : Bytes) : Option RoomId → Prop
  | none => admitted settings line = some .listPendingFees
  | some id => ∃ roomId, admitted settings line = some (.feeDetails roomId) ∧ roomIdFromHex roomId = .ok id

def Place.Stands (settings : Settings) (heard : List Bytes) (tables : Lobby.Tables) : Place → Prop
  | .listening | .reading _ | .heard _ => True
  | .surveying line asked _ found => line ∈ heard ∧ Surveys settings line asked ∧ ∀ detail ∈ found, Told tables detail
  | .confirming line _ => line ∈ heard ∧ ∃ roomId, admitted settings line = some (.confirmFee roomId)

def Poll.found : Poll → List PendingFeeDetail
  | .surveying _ found => found
  | .asking left => left
  | .confirming detail left => detail :: left

structure Kept (settings : Settings) (fee : FeeTerms) (s : State) : Prop where
  asked : Lobby.Asked (Confirming settings s.place s.poll) s.lobby
  fee : s.lobby.tables.fee = inForce settings fee s.answers
  answers : ∀ line reply, (line, reply) ∈ s.answers → Answered settings s.heard s.lobby.tables line reply
  place : s.place.Stands settings s.heard s.lobby.tables
  poll : ∀ detail ∈ s.poll.found, Told s.lobby.tables detail
  verdicts : ∀ detail paid, (detail, paid) ∈ s.verdicts → Told s.lobby.tables detail

section Steps
variable {settings : Settings} {fee : FeeTerms} {s t : State} {tables : Lobby.Tables} {line reply : Bytes} {place : Place} {poll : Poll}
  {heard : List Bytes} {detail : PendingFeeDetail}

theorem Told.stays (told : Told tables detail) {later : Lobby.Tables} (stay : Lobby.RoomsStay tables later) : Told later detail := by
  obtain ⟨place, room, there, id, fee⟩ := told
  obtain ⟨room', there', id', same⟩ := stay place room there
  exact ⟨place, room', there', id'.trans id, same.fee.trans fee⟩

theorem lookTold (tables : Lobby.Tables) (place : Nat) : ∀ detail ∈ look tables place, Told tables detail := by
  intro detail mem
  unfold look at mem
  split at mem
  · rename_i room there
    split_ifs at mem
    · obtain rfl := List.mem_singleton.mp mem
      exact ⟨place, room, there, rfl, rfl⟩
    · cases mem
  · cases mem

theorem Answered.stays (answered : Answered settings heard tables line reply) {later : Lobby.Tables} (stay : Lobby.RoomsStay tables later) :
    Answered settings heard later line reply where
  heard := answered.heard
  refused := answered.refused
  told roomId id here read := by
    rcases answered.told roomId id here read with nobody | ⟨detail, named, told, said⟩
    · exact .inl nobody
    · exact .inr ⟨detail, named, told.stays stay, said⟩

theorem Place.Stands.stays (stands : place.Stands settings heard tables) {later : Lobby.Tables} (stay : Lobby.RoomsStay tables later) :
    place.Stands settings heard later := by
  cases place with
  | surveying line asked left found => exact ⟨stands.1, stands.2.1, fun detail mem => (stands.2.2 detail mem).stays stay⟩
  | _ => exact stands

/- The hub goes on while the two threads stay where they are. -/
theorem Kept.hub (kept : Kept settings fee s) {event : Lobby.Event} {lobby : Lobby.State}
    (fired : Lobby.fire settings.lobby s.lobby event = some lobby) (keeps : ∀ fee, event ≠ .setsFee fee)
    (asks : ∀ operator id, event ≠ .confirmsFee operator id) : Kept settings fee { s with lobby } where
  asked := Lobby.fireAsked kept.asked fired fun operator id is => absurd is (asks operator id)
  fee := (Lobby.fireFee fired keeps).trans kept.fee
  answers line reply mem := (kept.answers line reply mem).stays (Lobby.fireStays fired)
  place := kept.place.stays (Lobby.fireStays fired)
  poll detail mem := (kept.poll detail mem).stays (Lobby.fireStays fired)
  verdicts detail paid mem := (kept.verdicts detail paid mem).stays (Lobby.fireStays fired)

/- The channel goes on where it confirms nothing, or no more. -/
theorem Kept.at (kept : Kept settings fee s) (place : Place) (stands : place.Stands settings s.heard s.lobby.tables)
    (none_ : s.place.confirms settings = none ∨ s.lobby.tasks admin = .idle) : Kept settings fee { s with place } where
  asked v later worker id here := by
    obtain ⟨operator, rfl, confirming⟩ := kept.asked v later worker id here
    refine ⟨operator, rfl, confirming.imp_left fun ⟨own, confirms⟩ => ?_⟩
    subst own
    rcases none_ with none_ | idle
    · simp [none_] at confirms
    · rw [admin] at idle
      simp [idle, Lobby.Task.confirms] at here
  fee := kept.fee
  answers := kept.answers
  place := stands
  poll := kept.poll
  verdicts := kept.verdicts

theorem Kept.polling (kept : Kept settings fee s) (poll : Poll) (told : ∀ detail ∈ poll.found, Told s.lobby.tables detail)
    (none_ : s.poll.confirms = none ∨ s.lobby.tasks plugin = .idle) : Kept settings fee { s with poll } where
  asked v later worker id here := by
    obtain ⟨operator, rfl, confirming⟩ := kept.asked v later worker id here
    refine ⟨operator, rfl, confirming.imp_right fun ⟨own, confirms⟩ => ?_⟩
    subst own
    rcases none_ with none_ | idle
    · simp [none_] at confirms
    · rw [plugin] at idle
      simp [idle, Lobby.Task.confirms] at here
  fee := kept.fee
  answers := kept.answers
  place := kept.place
  poll := told
  verdicts := kept.verdicts

theorem inForceMore (settings : Settings) (fee : FeeTerms) (answers : List (Bytes × Bytes)) (said : Bytes × Bytes) :
    inForce settings fee (answers ++ [said]) = (feeSet settings said).getD (inForce settings fee answers) := by
  unfold inForce
  rw [List.filterMap_append]
  cases is : feeSet settings said <;> simp [is]

theorem Kept.answer (kept : Kept settings fee s) (answered : Answered settings s.heard s.lobby.tables line reply)
    (quiet : feeSet settings (line, reply) = none) (none_ : s.place.confirms settings = none ∨ s.lobby.tasks admin = .idle) :
    Kept settings fee (s.answer line reply) := by
  have left := kept.at .listening trivial none_
  refine ⟨left.asked, ?_, fun other said mem => ?_, trivial, kept.poll, kept.verdicts⟩
  · rw [State.answer, inForceMore, quiet]
    exact kept.fee
  · rcases List.mem_append.mp mem with before | now
    · exact kept.answers other said before
    · obtain ⟨rfl, rfl⟩ := Prod.mk.inj (List.mem_singleton.mp now)
      exact answered

theorem Kept.hears (kept : Kept settings fee s) (line : Bytes) (here : s.place.confirms settings = none) :
    Kept settings fee { s with place := .heard line, heard := s.heard ++ [line] } := by
  have left := kept.at (.heard line) trivial (.inl here)
  refine ⟨left.asked, kept.fee, fun old reply mem => ?_, trivial, kept.poll, kept.verdicts⟩
  have answered := kept.answers old reply mem
  exact ⟨List.mem_append_left _ answered.heard, answered.refused, answered.told⟩

theorem failedNotAccepted (text : String) : failed text ≠ accepted := fun same => by
  have first := congrArg List.head? same
  simp [failed, accepted, ascii] at first

theorem answeredOther {command : Command} (mem : line ∈ heard) (here : admitted settings line = some command)
    (other : ∀ roomId, command ≠ .feeDetails roomId) : Answered settings heard tables line reply where
  heard := mem
  refused none_ := by simp [here] at none_
  told roomId _ is _ := absurd (Option.some.inj (here.symm.trans is)) (other roomId)

theorem feeSetOther {command : Command} (here : admitted settings line = some command)
    (other : ∀ asset amount address, command ≠ .setFee asset amount address) : feeSet settings (line, reply) = none := by
  unfold feeSet
  dsimp only
  rw [here]
  cases command with
  | setFee asset amount address => exact absurd rfl (other asset amount address)
  | _ => rfl

theorem heldFee {holder kept : FeeHolder} {fee : FeeTerms} (set : holder.setFee fee = .ok kept) : kept.fee = fee := by
  unfold FeeHolder.setFee at set
  split at set
  · obtain rfl := pure_ok.mp set
    rfl
  · obtain ⟨_, _, last⟩ := bind_ok.mp set
    obtain rfl := pure_ok.mp last
    rfl

theorem Kept.setFee (kept : Kept settings fee s) (mem : line ∈ s.heard) (still : s.place.confirms settings = none)
    {asset amount address : Bytes} (here : admitted settings line = some (.setFee asset amount address)) {next : FeeTerms}
    (read : feeTerms asset amount address = .ok next) (writable : Bool) : Kept settings fee (s.setFee settings line writable next) := by
  have other : ∀ roomId, Command.setFee asset amount address ≠ .feeDetails roomId := by simp
  unfold State.setFee
  dsimp only
  split
  · rename_i holder set
    obtain rfl := heldFee set
    have fired : Lobby.fire settings.lobby s.lobby (.setsFee holder.fee) =
      some { s.lobby with tables := { s.lobby.tables with fee := holder.fee } } := rfl
    constructor
    · exact Lobby.fireAsked (kept.at .listening trivial (.inl still)).asked fired fun _ _ is => by cases is
    · rw [State.answer, inForceMore]
      have set : feeSet settings (line, accepted) = some holder.fee := by
        simp only [feeSet, here, if_true, read]
        rfl
      rw [set]
      rfl
    · intro old said mem'
      rcases List.mem_append.mp mem' with before | now
      · exact (kept.answers old said before).stays (Lobby.fireStays fired)
      · obtain ⟨rfl, rfl⟩ := Prod.mk.inj (List.mem_singleton.mp now)
        exact answeredOther mem here other
    · trivial
    · exact fun detail mem => (kept.poll detail mem).stays (Lobby.fireStays fired)
    · exact fun detail paid mem => (kept.verdicts detail paid mem).stays (Lobby.fireStays fired)
  · rename_i e set
    refine kept.answer (answeredOther mem here other) ?_ (.inl still)
    simp [feeSet, here, failedNotAccepted]

theorem Kept.survey (kept : Kept settings fee s) (mem : line ∈ s.heard) (still : s.place.confirms settings = none)
    (asked : Option RoomId) (surveys : Surveys settings line asked) {order : List Nat}
    (fired : (if order.Perm s.lobby.tables.rooms then some { s with place := .surveying line asked order [] } else none) = some t) :
    Kept settings fee t := by
  simp only [Option.ite_none_right_eq_some, Option.some.injEq] at fired
  obtain ⟨_, rfl⟩ := fired
  exact kept.at _ ⟨mem, surveys, by simp⟩ (.inl still)

/- The channel's thread begins to confirm what its line named. -/
theorem Kept.asks (kept : Kept settings fee s) (mem : line ∈ s.heard) (still : s.place.confirms settings = none) {roomId : Bytes}
    {id : RoomId} (here : admitted settings line = some (.confirmFee roomId)) (read : roomIdFromHex roomId = .ok id) {lobby : Lobby.State}
    (asks : s.asks settings 0 id = some lobby) : Kept settings fee { s with lobby, place := .confirming line false } := by
  have names : (Place.confirming line false).confirms settings = some id := by
    simp only [Place.confirms, names, here, read]
    rfl
  have asked : Lobby.Asked (Confirming settings (.confirming line false) s.poll) s.lobby := by
    intro v later worker other is
    obtain ⟨operator, rfl, confirming⟩ := kept.asked v later worker other is
    refine ⟨operator, rfl, confirming.imp_left fun ⟨own, confirms⟩ => ?_⟩
    simp [still] at confirms
  have stay := Lobby.fireStays asks
  refine ⟨Lobby.fireAsked asked asks fun operator other is => ?_, (Lobby.fireFee asks (by simp)).trans kept.fee,
    fun line reply mem => (kept.answers line reply mem).stays stay, ⟨mem, roomId, here⟩,
    fun detail mem => (kept.poll detail mem).stays stay, fun detail paid mem => (kept.verdicts detail paid mem).stays stay⟩
  obtain ⟨rfl, rfl⟩ := Lobby.Event.confirmsFee.inj is
  exact .inl ⟨rfl, names⟩

theorem Kept.handle (kept : Kept settings fee s) (here : s.place = .heard line) {order : List Nat} {writable : Bool}
    (fired : s.handle settings line order writable = some t) : Kept settings fee t := by
  have heard := kept.hears line (by rw [here]; rfl)
  rw [← here] at heard
  have mem : line ∈ s.heard ++ [line] := List.mem_append_right _ (List.mem_singleton_self line)
  have still : s.place.confirms settings = none := by rw [here]; rfl
  unfold State.handle at fired
  dsimp only at fired
  split at fired
  · rename_i none_
    obtain rfl := Option.some.inj fired
    refine heard.answer ⟨mem, fun _ => rfl, fun _ _ is => by simp [none_] at is⟩ ?_ (.inl still)
    simp [feeSet, none_]
  · rename_i here
    obtain rfl := Option.some.inj fired
    exact heard.answer (answeredOther mem here (by simp)) (feeSetOther here (by simp)) (.inl still)
  · rename_i asset amount address here
    split at fired
    · rename_i next read
      obtain rfl := Option.some.inj fired
      exact heard.setFee mem still here read writable
    · obtain rfl := Option.some.inj fired
      refine heard.answer (answeredOther mem here (by simp)) ?_ (.inl still)
      simp [feeSet, here, failedNotAccepted]
  · rename_i here
    exact heard.survey mem still none here fired
  · rename_i roomId here
    split at fired
    · rename_i id read
      exact heard.survey mem still (some id) ⟨roomId, here, read⟩ fired
    · rename_i e read
      obtain rfl := Option.some.inj fired
      refine heard.answer ⟨mem, fun none_ => by simp [here] at none_, fun roomId' id is ok => ?_⟩ (feeSetOther here (by simp)) (.inl still)
      obtain rfl := Command.feeDetails.inj (Option.some.inj (here.symm.trans is))
      simp [read] at ok
  · rename_i roomId here
    split at fired
    · rename_i id read
      obtain ⟨lobby, asks, rfl⟩ := Option.map_eq_some_iff.mp fired
      exact heard.asks mem still here read asks
    · obtain rfl := Option.some.inj fired
      exact heard.answer (answeredOther mem here (by simp)) (feeSetOther here (by simp)) (.inl still)
  · rename_i here
    obtain rfl := Option.some.inj fired
    exact heard.answer (answeredOther mem here (by simp)) (feeSetOther here (by simp)) (.inl still)

/- One step of an operator's thread is one of the hub's. -/
theorem operatorFires {worker : Lobby.Worker} {env : Lobby.LobbyEnv} {task : Lobby.Task} (free : s.lobby.tables.drawable env.drawn = true)
    (ran : (s.lobby.tasks worker).run settings.lobby env s.lobby.tables = .ok task tables) :
    Lobby.fire settings.lobby s.lobby (.acts worker env) = some (s.lobby.put tables worker task) := by
  simp only [Lobby.fire, free, if_true, ran]

theorem operatorThrows {n : Nat} {env : Lobby.LobbyEnv} {e : HubError} (free : s.lobby.tables.drawable env.drawn = true)
    (ran : (s.lobby.tasks (.operator n)).run settings.lobby env s.lobby.tables = .error e tables) :
    Lobby.fire settings.lobby s.lobby (.acts (.operator n) env) = some (s.lobby.put tables (.operator n) .idle) := by
  simp only [Lobby.fire, free, if_true, ran, Lobby.State.thrown]

theorem Kept.confirm (kept : Kept settings fee s) {settled : Bool} (place : s.place = .confirming line settled) {env : Lobby.LobbyEnv}
    (fired : s.confirm settings line settled env = some t) : Kept settings fee t := by
  have stands := kept.place
  rw [place] at stands
  obtain ⟨mem, roomId, here⟩ := stands
  simp only [State.confirm, Option.ite_none_right_eq_some] at fired
  obtain ⟨free, fired⟩ := fired
  split at fired
  · rename_i task after ran
    have moved := kept.hub (operatorFires free ran) (by simp) (by simp)
    split at fired
    · rename_i idle
      obtain rfl := Option.some.inj fired
      refine moved.answer (answeredOther mem here (by simp)) (feeSetOther here (by simp)) (.inr ?_)
      simp [Lobby.State.put, idle]
    · obtain rfl := Option.some.inj fired
      have same : (Place.confirming line (settled || settles task)).confirms settings = s.place.confirms settings := by rw [place]; rfl
      refine ⟨fun v later worker id is => ?_, moved.fee, moved.answers, ⟨mem, roomId, here⟩, moved.poll, moved.verdicts⟩
      obtain ⟨operator, own, confirming⟩ := moved.asked v later worker id is
      refine ⟨operator, own, ?_⟩
      rwa [Confirming, same]
  · rename_i e after ran
    obtain rfl := Option.some.inj fired
    have moved := kept.hub (operatorThrows free ran) (by simp) (by simp)
    refine moved.answer (answeredOther mem here (by simp)) (feeSetOther here (by simp)) (.inr ?_)
    simp [Lobby.State.put, admin]

theorem Kept.pollConfirm (kept : Kept settings fee s) {left : List PendingFeeDetail} (poll : s.poll = .confirming detail left)
    {env : Lobby.LobbyEnv} (fired : s.pollConfirm settings detail left env = some t) : Kept settings fee t := by
  have told := kept.poll
  rw [poll] at told
  have rest : ∀ other ∈ left, Told s.lobby.tables other := fun other mem => told other (List.mem_cons_of_mem detail mem)
  simp only [State.pollConfirm, Option.ite_none_right_eq_some] at fired
  obtain ⟨free, fired⟩ := fired
  split at fired
  · rename_i task after ran
    obtain rfl := Option.some.inj fired
    have lobby := operatorFires free ran
    have moved := kept.hub lobby (by simp) (by simp)
    split
    next idle =>
      refine moved.polling (.asking left) (fun other mem => (rest other mem).stays (Lobby.fireStays lobby)) (.inr ?_)
      simp [Lobby.State.put, idle]
    next =>
      rw [← poll]
      exact moved
  · rename_i e after ran
    obtain rfl := Option.some.inj fired
    refine (kept.hub (operatorThrows free ran) (by simp) (by simp)).polling (.asking []) (by simp [Poll.found]) (.inr ?_)
    simp [Lobby.State.put, plugin]

theorem Kept.check (kept : Kept settings fee s) {left : List PendingFeeDetail} (poll : s.poll = .asking (detail :: left)) {paid : Bool}
    (fired : s.check settings detail left paid = some t) : Kept settings fee t := by
  have told := kept.poll
  rw [poll] at told
  have rest : ∀ other ∈ left, Told s.lobby.tables other := fun other mem => told other (List.mem_cons_of_mem detail mem)
  have still : s.poll.confirms = none := by rw [poll]; rfl
  have heard : Kept settings fee { s with verdicts := s.verdicts ++ [(detail, paid)] } := by
    refine ⟨kept.asked, kept.fee, kept.answers, kept.place, kept.poll, fun old said mem => ?_⟩
    rcases List.mem_append.mp mem with before | now
    · exact kept.verdicts old said before
    · obtain ⟨rfl, rfl⟩ := Prod.mk.inj (List.mem_singleton.mp now)
      exact told old List.mem_cons_self
  unfold State.check at fired
  dsimp only at fired
  split at fired
  · obtain rfl := Option.some.inj fired
    exact kept.polling (.asking []) (by simp [Poll.found]) (.inl still)
  · split at fired
    next isPaid =>
      obtain ⟨lobby, asks, rfl⟩ := Option.map_eq_some_iff.mp fired
      have ready := heard.polling (.confirming detail left) told (.inl still)
      have stay := Lobby.fireStays asks
      refine ⟨Lobby.fireAsked ready.asked asks fun operator id is => ?_, (Lobby.fireFee asks (by simp)).trans kept.fee,
        fun line reply mem => (kept.answers line reply mem).stays stay, kept.place.stays stay,
        fun other mem => (told other mem).stays stay, fun other said mem => (heard.verdicts other said mem).stays stay⟩
      obtain ⟨rfl, rfl⟩ := Lobby.Event.confirmsFee.inj is
      exact .inr ⟨rfl, rfl⟩
    next =>
      obtain rfl := Option.some.inj fired
      exact heard.polling (.asking left) rest (.inl still)

theorem Kept.concludes (kept : Kept settings fee s) (mem : line ∈ s.heard) (still : s.place.confirms settings = none)
    {asked : Option RoomId} (surveys : Surveys settings line asked) {found : List PendingFeeDetail}
    (told : ∀ detail ∈ found, Told s.lobby.tables detail) :
    Kept settings fee (match surveyed asked found with
      | some reply => s.answer line reply
      | none => { s with place := .listening }) := by
  cases asked with
  | none =>
    rw [surveyed]
    cases listed found with
    | ok reply => exact kept.answer (answeredOther mem surveys (by simp)) (feeSetOther surveys (by simp)) (.inl still)
    | error e => exact kept.at .listening trivial (.inl still)
  | some id =>
    obtain ⟨roomId, here, read⟩ := surveys
    refine kept.answer ⟨mem, fun none_ => by simp [here] at none_, fun other id' is ok => ?_⟩ (feeSetOther here (by simp)) (.inl still)
    obtain rfl := Command.feeDetails.inj (Option.some.inj (here.symm.trans is))
    obtain rfl := Except.ok.inj (read.symm.trans ok)
    split
    · rename_i detail is
      have named : detail.roomId = id := by simpa using List.find?_some is
      exact .inr ⟨detail, named, told detail (List.mem_of_find?_eq_some is), rfl⟩
    · exact .inl rfl

theorem keptFired (kept : Kept settings fee s) {event : Event} (fired : fire settings s event = some t) : Kept settings fee t := by
  unfold fire at fired
  split at fired
  · rename_i event
    simp only [Option.ite_none_right_eq_some, Option.map_eq_some_iff] at fired
    obtain ⟨other, lobby, fired, rfl⟩ := fired
    refine kept.hub fired (fun fee is => ?_) fun operator id is => ?_ <;> subst is <;> cases other
  · obtain rfl := Option.some.inj fired
    exact ⟨kept.asked, kept.fee, kept.answers, kept.place, kept.poll, kept.verdicts⟩
  · rename_i here
    simp only [Option.ite_none_right_eq_some, Option.some.injEq] at fired
    obtain ⟨_, rfl⟩ := fired
    exact kept.at (.reading []) trivial (.inl (by rw [here]; rfl))
  · rename_i bytes received here
    simp only [Option.ite_none_right_eq_some, Option.some.injEq] at fired
    obtain ⟨_, rfl⟩ := fired
    refine kept.at _ ?_ (.inl (by rw [here]; rfl))
    split <;> trivial
  · rename_i received here
    obtain rfl := Option.some.inj fired
    exact kept.at .listening trivial (.inl (by rw [here]; rfl))
  · rename_i order writable line here
    exact kept.handle here fired
  · rename_i line asked place left found here
    obtain rfl := Option.some.inj fired
    have stands := kept.place
    rw [here] at stands
    refine kept.at (.surveying line asked left (found ++ look s.lobby.tables place)) ⟨stands.1, stands.2.1, fun detail mem => ?_⟩
      (.inl (by rw [here]; rfl))
    rcases List.mem_append.mp mem with before | now
    · exact stands.2.2 detail before
    · exact lookTold _ _ detail now
  · rename_i line asked found here
    obtain rfl := Option.some.inj fired
    have stands := kept.place
    rw [here] at stands
    exact kept.concludes stands.1 (by rw [here]; rfl) stands.2.1 stands.2.2
  · rename_i env line settled here
    exact kept.confirm here fired
  · rename_i order here
    simp only [Option.ite_none_right_eq_some, Option.some.injEq] at fired
    obtain ⟨_, rfl⟩ := fired
    exact kept.polling (.surveying order []) (by simp [Poll.found]) (.inl (by rw [here]; rfl))
  · rename_i place left found here
    obtain rfl := Option.some.inj fired
    have told := kept.poll
    rw [here] at told
    refine kept.polling (.surveying left (found ++ look s.lobby.tables place)) (fun detail mem => ?_) (.inl (by rw [here]; rfl))
    rcases List.mem_append.mp mem with before | now
    · exact told detail before
    · exact lookTold _ _ detail now
  · rename_i found here
    obtain rfl := Option.some.inj fired
    have told := kept.poll
    rw [here] at told
    exact kept.polling (.asking found) told (.inl (by rw [here]; rfl))
  · rename_i paid detail left here
    exact kept.check here fired
  · rename_i env detail left here
    exact kept.pollConfirm here fired
  · cases fired

end Steps

/-! Who lets a room go on. -/

def Underway (settings : Settings) (s : State) (id : RoomId) : Prop := s.place.confirms settings = some id ∨ s.poll.confirms = some id

/- Since an earlier state a line with a token named the room, or the plugin said that its fee was paid. -/
def Sanctioned (settings : Settings) (s t : State) (id : RoomId) : Prop :=
  (∃ line ∈ t.heard.drop s.heard.length, names settings line = some id) ∨
    ∃ detail, (detail, true) ∈ t.verdicts.drop s.verdicts.length ∧ detail.roomId = id

/- A step is one of the hub at most. What was heard stays heard, and nothing else makes the threads confirm. -/
structure Moved (settings : Settings) (s t : State) : Prop where
  lobby : t.lobby = s.lobby ∨ ∃ event, Lobby.fire settings.lobby s.lobby event = some t.lobby
  heard : s.heard <+: t.heard
  verdicts : s.verdicts <+: t.verdicts
  underway : ∀ id, Underway settings t id → Underway settings s id ∨ Sanctioned settings s t id

section Moving
variable {settings : Settings} {fee : FeeTerms} {s t u : State} {line : Bytes} {roomId : RoomId}

theorem memDrop {α : Type} {x : α} {front back : List α} {n : Nat} (some_ : x ∈ front.drop n) (grows : front <+: back) : x ∈ back.drop n := by
  obtain ⟨more, rfl⟩ := grows
  rw [List.drop_append]
  exact List.mem_append_left _ some_

theorem memDropLess {α : Type} {x : α} {l : List α} {m n : Nat} (some_ : x ∈ l.drop n) (less : m ≤ n) : x ∈ l.drop m := by
  rw [← Nat.add_sub_cancel' less, ← List.drop_drop] at some_
  exact List.mem_of_mem_drop some_

theorem Sanctioned.later (sanctioned : Sanctioned settings s t roomId) (moved : Moved settings t u) : Sanctioned settings s u roomId :=
  sanctioned.imp (fun ⟨line, mem, named⟩ => ⟨line, memDrop mem moved.heard, named⟩)
    fun ⟨detail, mem, named⟩ => ⟨detail, memDrop mem moved.verdicts, named⟩

theorem Sanctioned.earlier (sanctioned : Sanctioned settings t u roomId) (heard : s.heard <+: t.heard) (verdicts : s.verdicts <+: t.verdicts) :
    Sanctioned settings s u roomId :=
  sanctioned.imp (fun ⟨line, mem, named⟩ => ⟨line, memDropLess mem heard.length_le, named⟩)
    fun ⟨detail, mem, named⟩ => ⟨detail, memDropLess mem verdicts.length_le, named⟩

theorem movedHub {event : Lobby.Event} (fired : Lobby.fire settings.lobby s.lobby event = some t.lobby) (heard : s.heard <+: t.heard)
    (verdicts : s.verdicts <+: t.verdicts) (underway : ∀ id, Underway settings t id → Underway settings s id ∨ Sanctioned settings s t id) :
    Moved settings s t := ⟨.inr ⟨event, fired⟩, heard, verdicts, underway⟩

/- Neither thread begins to confirm. -/
theorem underwayStill (place : t.place.confirms settings = none ∨ t.place.confirms settings = s.place.confirms settings)
    (poll : t.poll.confirms = none ∨ t.poll.confirms = s.poll.confirms) (id : RoomId) (underway : Underway settings t id) :
    Underway settings s id ∨ Sanctioned settings s t id := by
  rcases underway with here | here
  · rcases place with none_ | same
    · simp [none_] at here
    · exact .inl (.inl (same ▸ here))
  · rcases poll with none_ | same
    · simp [none_] at here
    · exact .inl (.inr (same ▸ here))

theorem movedStill (lobby : t.lobby = s.lobby) (heard : s.heard <+: t.heard) (verdicts : s.verdicts <+: t.verdicts)
    (place : t.place.confirms settings = none ∨ t.place.confirms settings = s.place.confirms settings)
    (poll : t.poll.confirms = none ∨ t.poll.confirms = s.poll.confirms) : Moved settings s t :=
  ⟨.inl lobby, heard, verdicts, underwayStill place poll⟩

theorem handleMoves {order : List Nat} {writable : Bool} (fired : s.handle settings line order writable = some t) : Moved settings s t := by
  have heard : s.heard <+: s.heard ++ [line] := List.prefix_append _ _
  have surveying {asked : Option RoomId} (fired : (if order.Perm s.lobby.tables.rooms then
      some { s with place := .surveying line asked order [], heard := s.heard ++ [line] } else none) = some t) : Moved settings s t := by
    simp only [Option.ite_none_right_eq_some, Option.some.injEq] at fired
    obtain ⟨_, rfl⟩ := fired
    exact movedStill rfl heard List.prefix_rfl (.inl rfl) (.inr rfl)
  unfold State.handle at fired
  dsimp only at fired
  split at fired
  · obtain rfl := Option.some.inj fired
    exact movedStill rfl heard List.prefix_rfl (.inl rfl) (.inr rfl)
  · obtain rfl := Option.some.inj fired
    exact movedStill rfl heard List.prefix_rfl (.inl rfl) (.inr rfl)
  · split at fired
    · obtain rfl := Option.some.inj fired
      unfold State.setFee
      dsimp only
      split
      · rename_i holder set
        have fired : Lobby.fire settings.lobby s.lobby (.setsFee holder.fee) =
          some { s.lobby with tables := { s.lobby.tables with fee := holder.fee } } := rfl
        exact movedHub fired heard List.prefix_rfl (underwayStill (.inl rfl) (.inr rfl))
      · exact movedStill rfl heard List.prefix_rfl (.inl rfl) (.inr rfl)
    · obtain rfl := Option.some.inj fired
      exact movedStill rfl heard List.prefix_rfl (.inl rfl) (.inr rfl)
  · exact surveying fired
  · split at fired
    · exact surveying fired
    · obtain rfl := Option.some.inj fired
      exact movedStill rfl heard List.prefix_rfl (.inl rfl) (.inr rfl)
  · split at fired
    · obtain ⟨lobby, asks, rfl⟩ := Option.map_eq_some_iff.mp fired
      refine movedHub asks heard List.prefix_rfl fun id underway => ?_
      rcases underway with here | here
      · exact .inr (.inl ⟨line, by simp, here⟩)
      · exact .inl (.inr here)
    · obtain rfl := Option.some.inj fired
      exact movedStill rfl heard List.prefix_rfl (.inl rfl) (.inr rfl)
  · obtain rfl := Option.some.inj fired
    exact movedStill rfl heard List.prefix_rfl (.inl rfl) (.inr rfl)

theorem confirmMoves {settled : Bool} (here : s.place = .confirming line settled) {env : Lobby.LobbyEnv}
    (fired : s.confirm settings line settled env = some t) : Moved settings s t := by
  simp only [State.confirm, Option.ite_none_right_eq_some] at fired
  obtain ⟨free, fired⟩ := fired
  split at fired
  · rename_i task after ran
    have lobby := operatorFires free ran
    split at fired <;> obtain rfl := Option.some.inj fired
    · exact movedHub lobby List.prefix_rfl List.prefix_rfl (underwayStill (.inl rfl) (.inr rfl))
    · exact movedHub lobby List.prefix_rfl List.prefix_rfl (underwayStill (.inr (by rw [here]; rfl)) (.inr rfl))
  · rename_i e after ran
    obtain rfl := Option.some.inj fired
    exact movedHub (operatorThrows free ran) List.prefix_rfl List.prefix_rfl (underwayStill (.inl rfl) (.inr rfl))

theorem pollConfirmMoves {detail : PendingFeeDetail} {left : List PendingFeeDetail} (here : s.poll = .confirming detail left)
    {env : Lobby.LobbyEnv} (fired : s.pollConfirm settings detail left env = some t) : Moved settings s t := by
  simp only [State.pollConfirm, Option.ite_none_right_eq_some] at fired
  obtain ⟨free, fired⟩ := fired
  split at fired <;> rename_i ran <;> obtain rfl := Option.some.inj fired
  · refine movedHub (operatorFires free ran) List.prefix_rfl List.prefix_rfl (underwayStill (.inr rfl) ?_)
    dsimp only
    split
    · exact .inl rfl
    · exact .inr (by rw [here])
  · exact movedHub (operatorThrows free ran) List.prefix_rfl List.prefix_rfl (underwayStill (.inr rfl) (.inl rfl))

theorem checkMoves {detail : PendingFeeDetail} {left : List PendingFeeDetail} {paid : Bool}
    (fired : s.check settings detail left paid = some t) : Moved settings s t := by
  have more : s.verdicts <+: s.verdicts ++ [(detail, paid)] := List.prefix_append _ _
  unfold State.check at fired
  dsimp only at fired
  split at fired
  · obtain rfl := Option.some.inj fired
    exact movedStill rfl List.prefix_rfl List.prefix_rfl (.inr rfl) (.inl rfl)
  · split at fired
    next isPaid =>
      obtain ⟨lobby, asks, rfl⟩ := Option.map_eq_some_iff.mp fired
      refine movedHub asks List.prefix_rfl more fun id underway => ?_
      rcases underway with here | here
      · exact .inl (.inl here)
      · exact .inr (.inr ⟨detail, by simp [isPaid], Option.some.inj here⟩)
    next =>
      obtain rfl := Option.some.inj fired
      exact movedStill rfl List.prefix_rfl more (.inr rfl) (.inl rfl)

theorem firedMoves {event : Event} (fired : fire settings s event = some t) : Moved settings s t := by
  unfold fire at fired
  split at fired
  · simp only [Option.ite_none_right_eq_some, Option.map_eq_some_iff] at fired
    obtain ⟨_, lobby, fired, rfl⟩ := fired
    exact movedHub fired List.prefix_rfl List.prefix_rfl (underwayStill (.inr rfl) (.inr rfl))
  · obtain rfl := Option.some.inj fired
    exact movedStill rfl List.prefix_rfl List.prefix_rfl (.inr rfl) (.inr rfl)
  · simp only [Option.ite_none_right_eq_some, Option.some.injEq] at fired
    obtain ⟨_, rfl⟩ := fired
    exact movedStill rfl List.prefix_rfl List.prefix_rfl (.inl rfl) (.inr rfl)
  · simp only [Option.ite_none_right_eq_some, Option.some.injEq] at fired
    obtain ⟨_, rfl⟩ := fired
    refine movedStill rfl List.prefix_rfl List.prefix_rfl (.inl ?_) (.inr rfl)
    unfold State.read
    dsimp only
    split <;> rfl
  · obtain rfl := Option.some.inj fired
    exact movedStill rfl List.prefix_rfl List.prefix_rfl (.inl rfl) (.inr rfl)
  · exact handleMoves fired
  · obtain rfl := Option.some.inj fired
    exact movedStill rfl List.prefix_rfl List.prefix_rfl (.inl rfl) (.inr rfl)
  · obtain rfl := Option.some.inj fired
    split <;> exact movedStill rfl List.prefix_rfl List.prefix_rfl (.inl rfl) (.inr rfl)
  · rename_i env line settled here
    exact confirmMoves here fired
  · simp only [Option.ite_none_right_eq_some, Option.some.injEq] at fired
    obtain ⟨_, rfl⟩ := fired
    exact movedStill rfl List.prefix_rfl List.prefix_rfl (.inr rfl) (.inl rfl)
  · obtain rfl := Option.some.inj fired
    exact movedStill rfl List.prefix_rfl List.prefix_rfl (.inr rfl) (.inl rfl)
  · obtain rfl := Option.some.inj fired
    exact movedStill rfl List.prefix_rfl List.prefix_rfl (.inr rfl) (.inl rfl)
  · exact checkMoves fired
  · rename_i env detail left here
    exact pollConfirmMoves here fired
  · cases fired

/- A room, one step on: if its fee was waited for and is not, it was this room that was confirmed. -/
theorem Kept.waits (kept : Kept settings fee s) (moved : Moved settings s t) {place : Nat} {room : RoomEntry}
    (there : s.lobby.tables.entries[place]? = some room) :
    ∃ room', t.lobby.tables.entries[place]? = some room' ∧ room'.id = room.id ∧ Lobby.SameFee room.session room'.session ∧
      (Lobby.Stays room.session room'.session ∨ Underway settings s room.id) := by
  rcases moved.lobby with same | ⟨event, fired⟩
  · exact ⟨room, same ▸ there, rfl, Std.Refl.refl _, .inl (Std.Refl.refl _)⟩
  · obtain ⟨room', there', id, fee⟩ := Lobby.fireStays fired place room there
    obtain ⟨same, here, stays⟩ := Lobby.fireWaits kept.asked fired there
    obtain rfl := Option.some.inj (there'.symm.trans here)
    refine ⟨room', there', id, fee, stays.imp_right fun ⟨operator, confirming⟩ => ?_⟩
    exact confirming.imp And.right And.right

end Moving

/-! Runs. -/

/- The fee of the hub is what a line last set. A room that waits for its fee goes on waiting or is aborted, unless its confirmation was
under way or was asked for since, in a line with a token or by the plugin. An answer without a token is the same whatever was asked,
and what is told of a pending fee is what the room was made with. -/
structure Guarded (settings : Settings) (fee : FeeTerms) (s t : State) : Prop where
  hub : ∃ steps, Lobby.Run settings.lobby s.lobby steps t.lobby
  fee : t.lobby.tables.fee = inForce settings fee t.answers
  waits : ∀ (place : Nat) room, s.lobby.tables.entries[place]? = some room → room.session.state = .waitingForFeeConfirmation →
    ∃ room', t.lobby.tables.entries[place]? = some room' ∧ room'.id = room.id ∧ room'.session.fee = room.session.fee ∧
      (room'.session = room.session ∨ room'.session.state = .aborted ∨ Underway settings s room.id ∨ Sanctioned settings s t room.id)
  answers : ∀ line reply, (line, reply) ∈ t.answers → Answered settings t.heard t.lobby.tables line reply
  verdicts : ∀ detail paid, (detail, paid) ∈ t.verdicts → Told t.lobby.tables detail

section Runs
variable {settings : Settings} {fee : FeeTerms} {s t : State} {lobby : Lobby.State} {file : Option Bytes}

theorem startKept (began : Lobby.Started settings.lobby lobby) : Kept settings lobby.tables.fee (started lobby file) where
  asked := Lobby.startAsked began
  fee := rfl
  answers _ _ mem := by cases mem
  place := trivial
  poll _ mem := by cases mem
  verdicts _ _ mem := by cases mem

theorem runKept (kept : Kept settings fee s) (run : Run settings s t) : Kept settings fee t :=
  run.keeps kept fun _ _ _ kept _ fired => keptFired kept fired

/- The steps of a run, seen from its beginning. -/
structure Moves (settings : Settings) (s t : State) : Prop where
  hub : ∃ steps, Lobby.Run settings.lobby s.lobby steps t.lobby
  heard : s.heard <+: t.heard
  verdicts : s.verdicts <+: t.verdicts
  underway : ∀ id, Underway settings t id → Underway settings s id ∨ Sanctioned settings s t id

theorem runMoves (run : Run settings s t) : Moves settings s t := by
  induction run with
  | refl => exact ⟨⟨[], .start⟩, List.prefix_rfl, List.prefix_rfl, fun _ => .inl⟩
  | step before _ fired ih =>
    have moved := firedMoves fired
    refine ⟨?_, ih.heard.trans moved.heard, ih.verdicts.trans moved.verdicts, fun id here => ?_⟩
    · obtain ⟨steps, run⟩ := ih.hub
      rcases moved.lobby with same | ⟨event, acts⟩
      · exact ⟨steps, same ▸ run⟩
      · exact ⟨_, run.step acts⟩
    · rcases moved.underway id here with before | now
      · exact (ih.underway id before).imp_right fun sanctioned => sanctioned.later moved
      · exact .inr (now.earlier ih.heard ih.verdicts)

theorem runWaits (kept : Kept settings fee s) (run : Run settings s t) {place : Nat} {room : RoomEntry}
    (there : s.lobby.tables.entries[place]? = some room) :
    ∃ room', t.lobby.tables.entries[place]? = some room' ∧ room'.id = room.id ∧ Lobby.SameFee room.session room'.session ∧
      (Lobby.Stays room.session room'.session ∨ Underway settings s room.id ∨ Sanctioned settings s t room.id) := by
  induction run with
  | refl => exact ⟨room, there, rfl, Std.Refl.refl _, .inl (Std.Refl.refl _)⟩
  | step before _ fired ih =>
    obtain ⟨room', there', id, fee, stays⟩ := ih
    have moved := firedMoves fired
    obtain ⟨room'', there'', id', fee', stays'⟩ := (runKept kept before).waits moved there'
    refine ⟨room'', there'', id'.trans id, Trans.trans fee fee', ?_⟩
    rcases stays with stays | since
    · rcases stays' with stays' | underway
      · exact .inl (Trans.trans stays stays')
      · have since := (runMoves before).underway room.id (id ▸ underway)
        exact .inr (since.imp_right fun sanctioned => sanctioned.later moved)
    · exact .inr (since.imp_right fun sanctioned => sanctioned.later moved)

theorem feeGuarded (began : Lobby.Started settings.lobby lobby) (before : Run settings (started lobby file) s) (run : Run settings s t) :
    Guarded settings lobby.tables.fee s t := by
  have kept := runKept (startKept began) before
  have last := runKept kept run
  refine ⟨(runMoves run).hub, last.fee, fun place room there waiting => ?_, last.answers, last.verdicts⟩
  obtain ⟨room', there', id, fee, stays⟩ := runWaits kept run there
  refine ⟨room', there', id, fee.fee, ?_⟩
  rcases stays with stays | since
  · exact (stays.waits (.inl waiting)).imp_right .inl
  · exact .inr (.inr since)

end Runs

/-! A fee is reported, looked up, and confirmed with the narrower token. That token sets no fee. -/
section Swap
open Lobby (opened swapLobby swapOffered swapTaken)
open MediatorSession (swapRoom)
open Hub (swapEnv swapClientA swapClientB)

def swapSettings : Settings := ⟨swapLobby, ascii "top", ascii "fees", "", false⟩

def swapRestless : Lobby.LobbyEnv := ⟨swapEnv, .error (.runtimeError "RAND_bytes failed")⟩

def swapRequest (n : Nat) (call : Hub.Call) : List Lobby.Event :=
  .receives n (.room (.call call)) :: List.replicate 8 (.acts (.client n) swapRestless)

def swapReported : List Event :=
  (swapOffered ++ swapTaken ++ List.replicate 8 (Lobby.Event.acts (.client 1) swapRestless) ++
    swapRequest 0 (.tradeEphemeralKey swapClientA ⟨swapRoom, Vector.replicate 32 0x0a, Vector.replicate 1952 0x0a⟩) ++
    swapRequest 1 (.tradeEphemeralKey swapClientB ⟨swapRoom, Vector.replicate 32 0x0b, Vector.replicate 1952 0x0b⟩) ++
    swapRequest 0 (.sent swapClientA ⟨swapRoom, 0, .a⟩)).map .hub

def swapLine (text : String) (id : Bytes) : List Event :=
  [.accepts, .receives (ascii text), .receives (id ++ [newline]), .handles [0] true]

def swapConfirmed : List Event :=
  swapLine "FEEDETAILS fees " (toHex swapRoom.toList) ++ [.looks, .looks] ++
    swapLine "CONFIRMFEE fees " (toHex swapRoom.toList) ++ List.replicate 11 (.confirms swapRestless) ++
    swapLine "SETFEE fees BTC 5 bc1" [] ++ swapLine "SETFEE top BTC 5 bc1" []

structure Seen where
  states : List SessionState
  fee : FeeTerms
  answers : List Bytes
  deriving DecidableEq

def seen (s : State) : Seen := ⟨s.lobby.tables.entries.map (·.session.state), s.lobby.tables.fee, s.answers.map Prod.snd⟩

def swapPlayed (events : List Event) : Option State :=
  Schedules.play (fire swapSettings) (fun _ _ => True) (started (opened MediatorSession.swapFee) none) events

theorem swapSeen : (swapPlayed swapReported).map seen = some ⟨[.waitingForFeeConfirmation], MediatorSession.swapFee, []⟩ ∧
    ((swapPlayed swapReported).bind fun s => Schedules.play (fire swapSettings) (fun _ _ => True) s swapConfirmed).map seen =
      some ⟨[.waitingForSent], bitcoinFee "bc1", [ascii "OK BTC 1 btcM 1700000000", accepted, unauthorized, accepted]⟩ := by
  decide +kernel

theorem swapGuarded : ∃ s t, Run swapSettings s t ∧ (seen s).states = [.waitingForFeeConfirmation] ∧
    seen t = ⟨[.waitingForSent], bitcoinFee "bc1", [ascii "OK BTC 1 btcM 1700000000", accepted, unauthorized, accepted]⟩ ∧
    Guarded swapSettings MediatorSession.swapFee s t := by
  obtain ⟨s, before, there⟩ := Option.map_eq_some_iff.mp swapSeen.1
  obtain ⟨t, later, left⟩ := Option.map_eq_some_iff.mp swapSeen.2
  rw [before, Option.bind_some] at later
  exact ⟨s, t, Schedules.playRun later, by rw [there], left,
    feeGuarded (.opened MediatorSession.swapFee) (Schedules.playRun before) (Schedules.playRun later)⟩

end Swap
end AdminChannel
end TradeP2P
