import Mathlib.Data.Finmap
import TradeP2P.Lib.Updates
import TradeP2P.Credential.Signer

/-! The ticket store over its whole life. Its directory stands for a finite map from the ids of tickets to what is known of
them, through every call, every failed write and every crash; temporary files stand for nothing. -/
namespace TradeP2P.Credential.Q7933TicketStore
open Wire (Bytes ascii)
open Checks Updates

/-! The store's operations, with the writes they make. -/

structure TicketStoreConfig where
  directory : String
  maxPendingTickets : Nat

/- What stops an update, and what the system calls a failure. -/
structure Weather where
  stop : Option Stop := none
  errno : String := ""

inductive Ran (α : Type) where
  | returned (value : α) (tickets : Tickets)
  | threw (error : TicketStoreError) (tickets : Tickets)
  | crashed (tickets : Tickets)

def tmpPath (id : TicketId) : Bytes := ticketPath id ++ ascii ".tmp"

def shownPath (config : TicketStoreConfig) (id : TicketId) : String := config.directory ++ "/" ++ hexText id ++ ".qtkt"

def throwErrno (config : TicketStoreConfig) (id : TicketId) (errno : String) (call : FileCall Bytes UInt8) : TicketStoreError :=
  let message := match call with
    | .unlink _ | .create _ => "failed to create temporary file '" ++ shownPath config id ++ ".tmp'"
    | .write _ _ => "failed to write q7933 ticket file contents"
    | .close _ => "failed to close temporary file '" ++ shownPath config id ++ ".tmp'"
    | .rename _ _ => "failed to atomically replace '" ++ shownPath config id ++ "'"
  .other (.runtimeError (message ++ ": " ++ errno))

def writeReplaceAtomic (config : TicketStoreConfig) (id : TicketId) (bytes : Bytes) (weather : Weather) (tickets : Tickets) : Ran Unit :=
  match perform (tmpPath id) (updateCalls (tmpPath id) (ticketPath id) bytes) weather.stop tickets with
  | .finished left => .returned () left
  | .failed call left => .threw (throwErrno config id weather.errno call) left
  | .crashed left => .crashed left

/- A value that is returned behind an update. -/
def Ran.behind {α : Type} (value : α) : Ran Unit → Ran α
  | .returned _ left => .returned value left
  | .threw e left => .threw e left
  | .crashed left => .crashed left

def storeFull (config : TicketStoreConfig) : TicketStoreError :=
  .full ("q7933 ticket store is at capacity (" ++ toString config.maxPendingTickets ++ " tickets)")

/- The random ids are tried one after the other. -/
def submit (config : TicketStoreConfig) (c : PolyQ) (draws : Vector TicketId 8) (now : UInt64) (weather : Weather) (tickets : Tickets) :
    Ran TicketId :=
  if existing tickets ≥ config.maxPendingTickets then .threw (storeFull config) tickets
  else
    match draws.toList.find? fun id => (Directory.read tickets (ticketPath id)).isNone with
    | none => .threw Signer.noUniqueId tickets
    | some id =>
        let ticket : Ticket := { ticketId := id, c, receivedAtUnixSeconds := now }
        match ticket.encode with
        | .error e => .threw e tickets
        | .ok bytes => (writeReplaceAtomic config id bytes weather tickets).behind id

def nibble (c : UInt8) : Option UInt8 :=
  if 48 ≤ c ∧ c ≤ 57 then some (c - 48) else if 97 ≤ c ∧ c ≤ 102 then some (10 + (c - 97)) else none

def nibbles : Bytes → Option Bytes
  | high :: low :: rest => do return ((← nibble high) <<< 4 ||| (← nibble low)) :: (← nibbles rest)
  | _ => some []

def fromHex (hex : Bytes) : Option TicketId := do
  if hex.length ≠ 64 then none
  else
    let bytes ← nibbles hex
    if long : bytes.length = 32 then some ⟨bytes.toArray, by simpa using long⟩ else none

/- The name without its extension. -/
def stem (name : Bytes) : Bytes := name.take (name.length - 5)

def isPending : Option Ticket → Bool
  | some ticket => ticket.status = .pending
  | none => false

def listFiles (tickets : Tickets) : Tickets → Except TicketStoreError (List TicketId)
  | [] => .ok []
  | file :: rest =>
      if hasTicketExtension file.1 then
        match fromHex (stem file.1) with
        | none => listFiles tickets rest
        | some id => do
            let ticket ← find tickets id
            let others ← listFiles tickets rest
            return if isPending ticket then id :: others else others
      else listFiles tickets rest

def listPending (tickets : Tickets) : Except TicketStoreError (List TicketId) := listFiles tickets tickets

def markSigned (config : TicketStoreConfig) (id : TicketId) (signature : Signature) (weather : Weather) (tickets : Tickets) : Ran Unit :=
  match find tickets id with
  | .error e => .threw e tickets
  | .ok none => .threw (.other (.logicError ("q7933 ticket store: cannot sign unknown ticket " ++ hexText id))) tickets
  | .ok (some ticket) =>
      if ticket.status ≠ .pending then
        .threw (.other (.logicError ("q7933 ticket store: ticket " ++ hexText id ++ " is not pending"))) tickets
      else
        match { ticket with status := .signed, signature := some signature }.encode with
        | .error e => .threw e tickets
        | .ok bytes => writeReplaceAtomic config id bytes weather tickets

/-! The calls that are made on a store, with polynomials of the ring. -/

abbrev Poly := Vector Int64 512

inductive Call where
  | submit (c : Poly) (draws : Vector TicketId 8) (now : UInt64) (weather : Weather)
  | find (id : TicketId)
  | listPending
  | markSigned (id : TicketId) (s0 s1 : Poly) (weather : Weather)
  | remove (id : TicketId)
  | restart

def Call.stop : Call → Option Stop
  | .submit _ _ _ weather | .markSigned _ _ _ weather => weather.stop
  | _ => none

/- What a call says: a list of ids in some order, or the set of them. -/
inductive Answer (ids : Type) where
  | submitted (id : TicketId)
  | found (ticket : Option Ticket)
  | pending (listed : ids)
  | done
  | threw (error : TicketStoreError)
  | crashed

def Ran.answers {α ids : Type} (said : α → Answer ids) : Ran α → Answer ids × Tickets
  | .returned value left => (said value, left)
  | .threw e left => (.threw e, left)
  | .crashed left => (.crashed, left)

/- A call on the directory. A process that starts anew finds it as it was left. -/
def serve (config : TicketStoreConfig) (tickets : Tickets) : Call → Answer (List TicketId) × Tickets
  | .submit c draws now weather => (submit config c.toList draws now weather tickets).answers .submitted
  | .find id => match Credential.find tickets id with
      | .ok ticket => (.found ticket, tickets)
      | .error e => (.threw e, tickets)
  | .listPending => match listPending tickets with
      | .ok listed => (.pending listed, tickets)
      | .error e => (.threw e, tickets)
  | .markSigned id s0 s1 weather => (markSigned config id ⟨s0.toList, s1.toList⟩ weather tickets).answers fun _ => .done
  | .remove id => (.done, remove tickets id)
  | .restart => (.done, tickets)

def life (config : TicketStoreConfig) : Tickets → List Call → List (Call × Answer (List TicketId))
  | _, [] => []
  | tickets, call :: rest => (call, (serve config tickets call).1) :: life config (serve config tickets call).2 rest

/-! The map a store stands for. -/

structure Entry where
  c : Poly
  receivedAtUnixSeconds : UInt64
  status : TicketStatus
  signature : Option (Poly × Poly)
  settled : status = .signed ↔ signature.isSome = true

abbrev TicketMap := Finmap fun _ : TicketId => Entry

def Entry.ticket (id : TicketId) (entry : Entry) : Ticket where
  ticketId := id
  c := entry.c.toList
  receivedAtUnixSeconds := entry.receivedAtUnixSeconds
  status := entry.status
  signature := entry.signature.map fun signed => ⟨signed.1.toList, signed.2.toList⟩

def received (c : Poly) (now : UInt64) : Entry := ⟨c, now, .pending, none, by simp⟩

def Entry.sign (s0 s1 : Poly) (entry : Entry) : Entry :=
  { entry with status := .signed, signature := some (s0, s1), settled := by simp }

def pendingIds (m : TicketMap) : Finset TicketId := m.keys.filter fun id => (m.lookup id).any fun entry => entry.status = .pending

/- What each call says and does, when nothing stops it. -/
def answer (config : TicketStoreConfig) (m : TicketMap) : Call → Answer (Finset TicketId) × TicketMap
  | .submit c draws now _ =>
      if m.keys.card ≥ config.maxPendingTickets then (.threw (storeFull config), m)
      else
        match draws.toList.find? fun id => (m.lookup id).isNone with
        | none => (.threw Signer.noUniqueId, m)
        | some id => (.submitted id, m.insert id (received c now))
  | .find id => (.found ((m.lookup id).map (Entry.ticket id)), m)
  | .listPending => (.pending (pendingIds m), m)
  | .markSigned id s0 s1 _ =>
      match m.lookup id with
      | none => (.threw (.other (.logicError ("q7933 ticket store: cannot sign unknown ticket " ++ hexText id))), m)
      | some entry =>
          if entry.status ≠ .pending then
            (.threw (.other (.logicError ("q7933 ticket store: ticket " ++ hexText id ++ " is not pending"))), m)
          else (.done, m.insert id (entry.sign s0 s1))
  | .remove id => (.done, m.erase id)
  | .restart => (.done, m)

/- A listing tells a set of ids when it tells each of them once. -/
inductive Tells : Answer (List TicketId) → Answer (Finset TicketId) → Prop where
  | submitted (id : TicketId) : Tells (.submitted id) (.submitted id)
  | found (ticket : Option Ticket) : Tells (.found ticket) (.found ticket)
  | pending {listed : List TicketId} (once : listed.Nodup) : Tells (.pending listed) (.pending listed.toFinset)
  | done : Tells .done .done
  | threw (e : TicketStoreError) : Tells (.threw e) (.threw e)

/- A call on the map: as it is meant; or its write fails and nothing is changed; or the process stops in it, with all of it
done or nothing. -/
inductive Does (config : TicketStoreConfig) (m : TicketMap) (call : Call) : Answer (List TicketId) → TicketMap → Prop where
  | meant {said} (tells : Tells said (answer config m call).1) : Does config m call said (answer config m call).2
  | failed {count} (e : TicketStoreError) (stopped : call.stop = some (.fails count)) : Does config m call (.threw e) m
  | undone {count} (stopped : call.stop = some (.crashes count)) : Does config m call .crashed m
  | wholly {count} (stopped : call.stop = some (.crashes count)) : Does config m call .crashed (answer config m call).2

/- A life of the map, with never more entries than there may be. -/
inductive Lives (config : TicketStoreConfig) : TicketMap → List (Call × Answer (List TicketId)) → Prop where
  | ends (m : TicketMap) : Lives config m []
  | goesOn {m m' : TicketMap} {call : Call} {said : Answer (List TicketId)} {rest : List (Call × Answer (List TicketId))}
      (does : Does config m call said m') (room : m'.keys.card ≤ config.maxPendingTickets) (later : Lives config m' rest) :
      Lives config m ((call, said) :: rest)

/-! The files of the tickets, among all the files there are. -/

def ticketFiles (tickets : Tickets) : Tickets := tickets.filter fun file => hasTicketExtension file.1

theorem ticketNamed (id : TicketId) : hasTicketExtension (ticketPath id) = true := by
  have apart : ticketPath id ≠ ascii ".qtkt" := by
    intro same
    have length := congrArg List.length same
    have each : ∀ byte : UInt8, (hexByte byte).length = 2 := fun _ => rfl
    simp [ticketPath, toHex, List.length_flatMap, each] at length
  rw [hasTicketExtension, Bool.and_eq_true, decide_eq_true_eq]
  exact ⟨List.isSuffixOf_iff_suffix.mpr ⟨toHex id, rfl⟩, apart⟩

theorem temporaryUnnamed (id : TicketId) : hasTicketExtension (tmpPath id) = false := by
  rw [hasTicketExtension, Bool.and_eq_false_iff]
  left
  rw [Bool.eq_false_iff]
  intro suffix
  obtain ⟨front, same⟩ := List.isSuffixOf_iff_suffix.mp suffix
  have ends := congrArg List.getLast? same
  have last : (ascii ".qtkt").getLast? = some 116 := by decide
  have last' : (ascii ".tmp").getLast? = some 112 := by decide
  rw [tmpPath, List.getLast?_append, List.getLast?_append, last, last'] at ends
  cases ends

theorem pathsApart (id : TicketId) : ticketPath id ≠ tmpPath id := by
  intro same
  have named := ticketNamed id
  rw [same, temporaryUnnamed] at named
  cases named

section Files
variable {tickets left : Tickets} {id : TicketId} {bytes : Bytes}

theorem readTicket (tickets : Tickets) (id : TicketId) :
    Directory.read (ticketFiles tickets) (ticketPath id) = Directory.read tickets (ticketPath id) := by
  induction tickets with
  | nil => rfl
  | cons file rest ih =>
    unfold ticketFiles at ih ⊢
    by_cases named : hasTicketExtension file.1 = true
    · rw [List.filter_cons_of_pos (by simpa using named), Directory.read, Directory.read, ih]
    · have other : file.1 ≠ ticketPath id := fun same => named (same ▸ ticketNamed id)
      rw [List.filter_cons_of_neg (by simpa using named), ih, Directory.read, if_neg other]

theorem filesUnlinked (id : TicketId) : ticketFiles (Directory.unlink tickets (tmpPath id)) = ticketFiles tickets := by
  unfold ticketFiles Directory.unlink
  rw [List.filter_filter]
  refine List.filter_congr fun file _ => ?_
  by_cases same : file.1 = tmpPath id
  · simp [same, temporaryUnnamed]
  · simp [same]

theorem filesReplaced (id : TicketId) (bytes : Bytes) : ticketFiles (Directory.replace tickets (ticketPath id) bytes) =
    Directory.replace (ticketFiles tickets) (ticketPath id) bytes := by
  unfold ticketFiles Directory.replace Directory.unlink
  rw [List.filter_cons_of_pos (by simpa using ticketNamed id), List.filter_filter, List.filter_filter]
  simp only [Bool.and_comm]

theorem filesRemoved (id : TicketId) : ticketFiles (remove tickets id) = Directory.unlink (ticketFiles tickets) (ticketPath id) := by
  unfold ticketFiles remove Directory.unlink
  simp only [List.filter_filter, Bool.and_comm]

/- An update leaves the files of the tickets as they were, or with the new one among them. -/
theorem filesWritten (config : TicketStoreConfig) (weather : Weather) (tickets : Tickets) (id : TicketId) (bytes : Bytes) :
    (∃ left, writeReplaceAtomic config id bytes weather tickets = .returned () left ∧
        ticketFiles left = Directory.replace (ticketFiles tickets) (ticketPath id) bytes) ∨
    (∃ e left count, writeReplaceAtomic config id bytes weather tickets = .threw e left ∧ weather.stop = some (.fails count) ∧
        ticketFiles left = ticketFiles tickets) ∨
    (∃ left count, writeReplaceAtomic config id bytes weather tickets = .crashed left ∧ weather.stop = some (.crashes count) ∧
        (ticketFiles left = ticketFiles tickets ∨
          ticketFiles left = Directory.replace (ticketFiles tickets) (ticketPath id) bytes)) := by
  have kept {left : Tickets} (same : Directory.unlink left (tmpPath id) = Directory.unlink tickets (tmpPath id)) :
      ticketFiles left = ticketFiles tickets := by
    rw [← filesUnlinked id, same, filesUnlinked]
  have made {left : Tickets} (same : Directory.unlink left (tmpPath id) =
      Directory.replace (Directory.unlink tickets (tmpPath id)) (ticketPath id) bytes) :
      ticketFiles left = Directory.replace (ticketFiles tickets) (ticketPath id) bytes := by
    rw [← filesUnlinked id, same, filesReplaced, filesUnlinked]
  have whole : (perform (tmpPath id) (updateCalls (tmpPath id) (ticketPath id) bytes) weather.stop tickets).Whole (tmpPath id)
      (ticketPath id) bytes (Directory.unlink tickets (tmpPath id)) := updateWhole (pathsApart id) weather.stop
  unfold writeReplaceAtomic
  cases ended : perform (tmpPath id) (updateCalls (tmpPath id) (ticketPath id) bytes) weather.stop tickets with
  | finished left =>
    rw [ended] at whole
    exact .inl ⟨left, rfl, made whole⟩
  | failed call left =>
    rw [ended] at whole
    obtain ⟨count, stopped⟩ := failsUpdate _ _ _ ended
    exact .inr (.inl ⟨_, left, count, rfl, stopped, kept whole⟩)
  | crashed left =>
    rw [ended] at whole
    obtain ⟨count, stopped⟩ := crashedStop ended
    exact .inr (.inr ⟨left, count, rfl, stopped, whole.imp kept made⟩)

end Files

/-! The map of a directory. -/

/- Every entry has its file, and there is no other file of a ticket. -/
structure Represents (tickets : Tickets) (m : TicketMap) : Prop where
  named : ((ticketFiles tickets).map Prod.fst).Nodup
  only : ∀ name ∈ (ticketFiles tickets).map Prod.fst, ∃ id ∈ m, name = ticketPath id
  stored : ∀ id entry, m.lookup id = some entry →
    ∃ bytes, (entry.ticket id).encode = .ok bytes ∧ Directory.read (ticketFiles tickets) (ticketPath id) = some bytes

theorem Entry.wellFormed (id : TicketId) (entry : Entry) : (entry.ticket id).WellFormed := by
  refine ⟨entry.c.length_toList, fun pending => ?_, fun signed => ?_⟩
  · have unsigned : ¬entry.signature.isSome = true := fun some_ => by
      have status : entry.status = .signed := entry.settled.mpr some_
      have pending : entry.status = .pending := pending
      rw [status] at pending
      cases pending
    simp only [Option.not_isSome_iff_eq_none] at unsigned
    rw [Entry.ticket, unsigned]
    rfl
  · obtain ⟨signature, there⟩ := Option.isSome_iff_exists.mp (entry.settled.mp signed)
    refine ⟨⟨signature.1.toList, signature.2.toList⟩, ?_, signature.1.length_toList, signature.2.length_toList⟩
    rw [Entry.ticket, there]
    rfl

theorem Represents.empty : Represents [] ∅ := by
  refine ⟨List.nodup_nil, fun name mem => (by cases mem), fun id entry there => ?_⟩
  rw [Finmap.lookup_empty] at there
  cases there

section Represented
variable {tickets left : Tickets} {m : TicketMap} {id : TicketId}

theorem Represents.same (stands : Represents tickets m) (files : ticketFiles left = ticketFiles tickets) : Represents left m := by
  refine ⟨?_, ?_, ?_⟩
  · rw [files]
    exact stands.named
  · rw [files]
    exact stands.only
  · rw [files]
    exact stands.stored

theorem Represents.absent (stands : Represents tickets m) (unknown : m.lookup id = none) :
    Directory.read (ticketFiles tickets) (ticketPath id) = none := by
  rw [Directory.readNone]
  intro mem
  obtain ⟨other, inside, same⟩ := stands.only _ mem
  rw [Finmap.lookup_eq_none] at unknown
  exact unknown (ticketPathInj same ▸ inside)

/- What is found is what the map has. -/
theorem Represents.find (stands : Represents tickets m) (id : TicketId) :
    Credential.find tickets id = .ok ((m.lookup id).map (Entry.ticket id)) := by
  cases there : m.lookup id with
  | none =>
    have absent := stands.absent there
    rw [readTicket] at absent
    rw [Credential.find, absent]
    rfl
  | some entry =>
    obtain ⟨bytes, written, stored⟩ := stands.stored id entry there
    rw [readTicket] at stored
    exact findWritten (entry.wellFormed id) written stored

theorem Represents.unused (stands : Represents tickets m) (id : TicketId) :
    (Directory.read tickets (ticketPath id)).isNone = (m.lookup id).isNone := by
  rw [← readTicket]
  cases there : m.lookup id with
  | none =>
    rw [stands.absent there]
    rfl
  | some entry =>
    obtain ⟨bytes, _, stored⟩ := stands.stored id entry there
    rw [stored]
    rfl

/- There are as many files of tickets as entries. -/
theorem Represents.existing (stands : Represents tickets m) : existing tickets = m.keys.card := by
  have names : ((ticketFiles tickets).map Prod.fst).toFinset = m.keys.image ticketPath := by
    ext name
    rw [List.mem_toFinset, Finset.mem_image]
    constructor
    · intro mem
      obtain ⟨id, inside, same⟩ := stands.only name mem
      exact ⟨id, Finmap.mem_keys.mpr inside, same.symm⟩
    · rintro ⟨id, inside, rfl⟩
      obtain ⟨entry, there⟩ := Finmap.mem_iff.mp (Finmap.mem_keys.mp inside)
      obtain ⟨bytes, _, stored⟩ := stands.stored id entry there
      exact List.mem_map_of_mem (Directory.readSome stored)
  have count := List.toFinset_card_of_nodup stands.named
  rw [names, Finset.card_image_of_injective _ fun _ _ => ticketPathInj, List.length_map] at count
  exact count.symm

theorem replacedNamed {files : Tickets} (named : (files.map Prod.fst).Nodup) (name bytes : Bytes) :
    ((Directory.replace files name bytes).map Prod.fst).Nodup := by
  rw [Directory.replace, List.map_cons, List.nodup_cons, ← Directory.readNone]
  exact ⟨Directory.readUnlinked, (named.sublist (List.filter_sublist.map _))⟩

theorem Represents.replaced (stands : Represents tickets m) {entry : Entry} {bytes : Bytes}
    (written : (entry.ticket id).encode = .ok bytes)
    (files : ticketFiles left = Directory.replace (ticketFiles tickets) (ticketPath id) bytes) :
    Represents left (m.insert id entry) := by
  refine ⟨?_, ?_, ?_⟩
  · rw [files]
    exact replacedNamed stands.named _ _
  · rw [files]
    intro name mem
    rw [Directory.replace, List.map_cons, List.mem_cons] at mem
    rcases mem with rfl | others
    · exact ⟨id, Finmap.mem_insert.mpr (.inl rfl), rfl⟩
    · obtain ⟨other, inside, same⟩ := stands.only name ((List.filter_sublist.map _).subset others)
      exact ⟨other, Finmap.mem_insert.mpr (.inr inside), same⟩
  · rw [files]
    intro other found there
    by_cases same : other = id
    · subst same
      rw [Finmap.lookup_insert] at there
      obtain rfl := Option.some.inj there
      exact ⟨bytes, written, Directory.readReplaced⟩
    · rw [Finmap.lookup_insert_of_ne _ same] at there
      rw [Directory.readReplacedOther fun path => same (ticketPathInj path)]
      exact stands.stored other found there

theorem Represents.removed (stands : Represents tickets m) (id : TicketId) : Represents (remove tickets id) (m.erase id) := by
  refine ⟨?_, ?_, ?_⟩
  · rw [filesRemoved]
    exact stands.named.sublist (List.filter_sublist.map _)
  · rw [filesRemoved]
    intro name mem
    obtain ⟨other, inside, same⟩ := stands.only name ((List.filter_sublist.map _).subset mem)
    refine ⟨other, Finmap.mem_erase.mpr ⟨fun gone => ?_, inside⟩, same⟩
    rw [same, gone, ← not_not (a := _ ∈ _), ← Directory.readNone] at mem
    exact mem Directory.readUnlinked
  · rw [filesRemoved]
    intro other found there
    by_cases same : other = id
    · rw [same, Finmap.lookup_erase] at there
      cases there
    · rw [Finmap.lookup_erase_ne same] at there
      rw [Directory.readUnlinkedOther fun path => same (ticketPathInj path)]
      exact stands.stored other found there

end Represented

/-! The listing. -/

theorem stemPath (id : TicketId) : stem (ticketPath id) = toHex id := by
  have extension : (ascii ".qtkt").length = 5 := by decide
  rw [stem, ticketPath, List.length_append, extension, Nat.add_sub_cancel, List.take_left]

theorem nibblesRead (byte : UInt8) (rest : Bytes) : nibbles (hexByte byte ++ rest) = (nibbles rest).map (byte :: ·) := by
  have all : ∀ k : Fin 256, (do return ((← nibble (hexDigit ((UInt8.ofFin k).toNat / 16))) <<< 4 |||
      (← nibble (hexDigit ((UInt8.ofFin k).toNat % 16))))) = some (UInt8.ofFin k) := by
    decide +kernel
  have joined := all byte.toFin
  have whole : UInt8.ofFin byte.toFin = byte := rfl
  rw [whole] at joined
  simp only [Option.bind_eq_bind, Option.bind_eq_some_iff, Option.pure_def, Option.some.injEq] at joined
  obtain ⟨high, first, low, second, rfl⟩ := joined
  rw [hexByte, List.cons_append, List.cons_append, List.nil_append, nibbles, first, second]
  cases nibbles rest <;> rfl

theorem fromHexPath (id : TicketId) : fromHex (stem (ticketPath id)) = some id := by
  have each : ∀ byte : UInt8, (hexByte byte).length = 2 := fun _ => rfl
  have long : (toHex id).length = 64 := by simp [toHex, List.length_flatMap, each]
  have read : ∀ bytes : Bytes, nibbles (bytes.flatMap hexByte) = some bytes := by
    intro bytes
    induction bytes with
    | nil => rfl
    | cons byte rest ih =>
      rw [List.flatMap_cons, nibblesRead, ih]
      rfl
  rw [stemPath, fromHex, if_neg (by simp [long]), toHex, read]
  simp only [Option.bind_eq_bind, Option.bind_some, Vector.length_toList, dif_pos, Option.some.injEq]
  exact Vector.toArray_inj.mp Array.toArray_toList

theorem listed {tickets : Tickets} {m : TicketMap} (stands : Represents tickets m) (files : Tickets)
    (only : ∀ name ∈ (ticketFiles files).map Prod.fst, ∃ id ∈ m, name = ticketPath id) :
    ∃ ids, listFiles tickets files = .ok ids ∧ (ids.map ticketPath).Sublist ((ticketFiles files).map Prod.fst) ∧
      ∀ id, id ∈ ids ↔ ticketPath id ∈ (ticketFiles files).map Prod.fst ∧
        (m.lookup id).any (fun entry => entry.status = .pending) = true := by
  induction files with
  | nil => exact ⟨[], rfl, .slnil, by simp [ticketFiles]⟩
  | cons file rest ih =>
    unfold ticketFiles at only ih ⊢
    by_cases named : hasTicketExtension file.1 = true
    · rw [List.filter_cons_of_pos (by simpa using named)] at only ⊢
      rw [List.map_cons] at only ⊢
      obtain ⟨id, inside, path⟩ := only file.1 List.mem_cons_self
      obtain ⟨ids, ran, order, members⟩ := ih fun name mem => only name (List.mem_cons_of_mem _ mem)
      obtain ⟨entry, there⟩ := Finmap.mem_iff.mp inside
      have found := stands.find id
      have head : fromHex (stem file.1) = some id := by rw [path, fromHexPath]
      have status : isPending ((m.lookup id).map (Entry.ticket id)) = (m.lookup id).any fun entry => entry.status = .pending := by
        rw [there]
        rfl
      have all : listFiles tickets (file :: rest) =
          .ok (if isPending ((m.lookup id).map (Entry.ticket id)) then id :: ids else ids) := by
        rw [listFiles, if_pos named, head]
        simp only [bind_ok, pure_ok]
        exact ⟨_, found, ids, ran, rfl⟩
      have own {other : TicketId} (same : ticketPath other = file.1) : other = id := ticketPathInj (same.trans path)
      by_cases pending : (m.lookup id).any (fun entry => entry.status = .pending) = true
      · refine ⟨id :: ids, all.trans (by rw [status, if_pos pending]), ?_, fun other => ?_⟩
        · rw [List.map_cons, ← path]
          exact order.cons_cons _
        · rw [List.mem_cons, List.mem_cons, members]
          constructor
          · intro either
            rcases either with rfl | ⟨later, waits⟩
            · exact ⟨.inl path.symm, pending⟩
            · exact ⟨.inr later, waits⟩
          · intro both
            obtain ⟨here | later, waits⟩ := both
            · exact .inl (own here)
            · exact .inr ⟨later, waits⟩
      · refine ⟨ids, all.trans (by rw [status, if_neg pending]), order.cons _, fun other => ?_⟩
        rw [List.mem_cons, members]
        constructor
        · exact fun both => ⟨.inr both.1, both.2⟩
        · intro both
          obtain ⟨here | later, waits⟩ := both
          · exact absurd (own here ▸ waits) pending
          · exact ⟨later, waits⟩
    · rw [List.filter_cons_of_neg (by simpa using named)] at only ⊢
      obtain ⟨ids, ran, order, members⟩ := ih only
      refine ⟨ids, ?_, order, members⟩
      rw [listFiles, if_neg named, ran]

theorem Represents.listing {tickets : Tickets} {m : TicketMap} (stands : Represents tickets m) :
    ∃ ids, listPending tickets = .ok ids ∧ ids.Nodup ∧ ids.toFinset = pendingIds m := by
  obtain ⟨ids, ran, order, members⟩ := listed stands tickets stands.only
  refine ⟨ids, ran, (stands.named.sublist order).of_map _, ?_⟩
  ext id
  rw [List.mem_toFinset, members, pendingIds, Finset.mem_filter, Finmap.mem_keys]
  constructor
  · intro both
    obtain ⟨mem, pending⟩ := both
    obtain ⟨other, inside, same⟩ := stands.only _ mem
    exact ⟨ticketPathInj same ▸ inside, pending⟩
  · intro both
    obtain ⟨inside, pending⟩ := both
    obtain ⟨entry, there⟩ := Finmap.mem_iff.mp inside
    obtain ⟨bytes, _, stored⟩ := stands.stored id entry there
    exact ⟨List.mem_map_of_mem (Directory.readSome stored), pending⟩

/-! One call, and a whole life. -/

section Calls
variable {config : TicketStoreConfig} {tickets : Tickets} {m : TicketMap} {call : Call}

theorem keysInsert (m : TicketMap) (id : TicketId) (entry : Entry) : (m.insert id entry).keys = insert id m.keys := by
  ext other
  rw [Finmap.mem_keys, Finmap.mem_insert, Finset.mem_insert, Finmap.mem_keys]

/- A call that comes to the writing of one entry. -/
theorem writes (stands : Represents tickets m) {id : TicketId} {entry : Entry} {bytes : Bytes} {weather : Weather}
    {said : Answer (List TicketId)} {meant : Answer (Finset TicketId)} (stop : call.stop = weather.stop)
    (answered : answer config m call = (meant, m.insert id entry)) (tells : Tells said meant)
    (encoded : (entry.ticket id).encode = .ok bytes) :
    ∃ m', Does config m call ((writeReplaceAtomic config id bytes weather tickets).answers fun _ => said).1 m' ∧
      Represents ((writeReplaceAtomic config id bytes weather tickets).answers fun _ => said).2 m' ∧ (m' = m ∨ m' = m.insert id entry) := by
  have wholly : (answer config m call).2 = m.insert id entry := congrArg Prod.snd answered
  rcases filesWritten config weather tickets id bytes with
    ⟨left, ran, files⟩ | ⟨e, left, count, ran, stopped, files⟩ | ⟨left, count, ran, stopped, files⟩
  · rw [ran]
    refine ⟨m.insert id entry, ?_, stands.replaced encoded files, .inr rfl⟩
    rw [← wholly]
    exact .meant (by rw [answered]; exact tells)
  · rw [ran]
    exact ⟨m, .failed e (stop.trans stopped), stands.same files, .inl rfl⟩
  · rw [ran]
    rcases files with same | made
    · exact ⟨m, .undone (stop.trans stopped), stands.same same, .inl rfl⟩
    · refine ⟨m.insert id entry, ?_, stands.replaced encoded made, .inr rfl⟩
      rw [← wholly]
      exact .wholly (stop.trans stopped)

theorem answersBehind {α : Type} (ran : Ran Unit) (value : α) (said : α → Answer (List TicketId)) :
    (ran.behind value).answers said = ran.answers fun _ => said value := by
  cases ran <;> rfl

theorem meantAs {m' : TicketMap} {said : Answer (List TicketId)} {meant : Answer (Finset TicketId)}
    (answered : answer config m call = (meant, m')) (tells : Tells said meant) : Does config m call said m' := by
  have does : Does config m call said (answer config m call).2 := .meant (by rw [answered]; exact tells)
  rwa [answered] at does

theorem submits (stands : Represents tickets m) (room : m.keys.card ≤ config.maxPendingTickets) (c : Poly) (draws : Vector TicketId 8)
    (now : UInt64) (weather : Weather) : ∃ m', Does config m (.submit c draws now weather) (serve config tickets (.submit c draws now weather)).1 m' ∧
      Represents (serve config tickets (.submit c draws now weather)).2 m' ∧ m'.keys.card ≤ config.maxPendingTickets := by
  have unused : (fun id => (Directory.read tickets (ticketPath id)).isNone) = fun id => (m.lookup id).isNone := funext stands.unused
  by_cases full : m.keys.card ≥ config.maxPendingTickets
  · have said : serve config tickets (.submit c draws now weather) = (.threw (storeFull config), tickets) := by
      rw [serve, submit, stands.existing, if_pos full]
      rfl
    rw [said]
    exact ⟨m, meantAs (by rw [answer, if_pos full]) (.threw _), stands, room⟩
  cases drawn : draws.toList.find? fun id => (m.lookup id).isNone with
  | none =>
    have said : serve config tickets (.submit c draws now weather) = (.threw Signer.noUniqueId, tickets) := by
      rw [serve, submit, stands.existing, if_neg full, unused, drawn]
      rfl
    rw [said]
    exact ⟨m, meantAs (by rw [answer, if_neg full, drawn]) (.threw _), stands, room⟩
  | some id =>
    obtain ⟨bytes, encoded⟩ := Ticket.encodeOk ((received c now).wellFormed id)
    have said : serve config tickets (.submit c draws now weather) =
        (writeReplaceAtomic config id bytes weather tickets).answers fun _ => .submitted id := by
      rw [← answersBehind, serve, submit, stands.existing, if_neg full, unused, drawn]
      dsimp only
      have made : ({ ticketId := id, c := c.toList, receivedAtUnixSeconds := now } : Ticket).encode = .ok bytes := encoded
      rw [made]
    have answered : answer config m (.submit c draws now weather) = (.submitted id, m.insert id (received c now)) := by
      rw [answer, if_neg full, drawn]
    obtain ⟨m', does, stands', which⟩ := writes stands rfl answered (.submitted id) encoded
    rw [said]
    refine ⟨m', does, stands', ?_⟩
    rcases which with rfl | rfl
    · exact room
    · rw [keysInsert]
      exact (Finset.card_insert_le _ _).trans (Nat.lt_of_not_le full)

theorem signs (stands : Represents tickets m) (room : m.keys.card ≤ config.maxPendingTickets) (id : TicketId) (s0 s1 : Poly)
    (weather : Weather) : ∃ m', Does config m (.markSigned id s0 s1 weather) (serve config tickets (.markSigned id s0 s1 weather)).1 m' ∧
      Represents (serve config tickets (.markSigned id s0 s1 weather)).2 m' ∧ m'.keys.card ≤ config.maxPendingTickets := by
  have found := stands.find id
  cases there : m.lookup id with
  | none =>
    rw [there] at found
    have said : serve config tickets (.markSigned id s0 s1 weather) =
        (.threw (.other (.logicError ("q7933 ticket store: cannot sign unknown ticket " ++ hexText id))), tickets) := by
      rw [serve, markSigned, found]
      rfl
    rw [said]
    exact ⟨m, meantAs (by rw [answer, there]) (.threw _), stands, room⟩
  | some entry =>
  rw [there] at found
  by_cases waits : entry.status ≠ .pending
  · have said : serve config tickets (.markSigned id s0 s1 weather) =
        (.threw (.other (.logicError ("q7933 ticket store: ticket " ++ hexText id ++ " is not pending"))), tickets) := by
      rw [serve, markSigned, found]
      dsimp only [Option.map_some]
      rw [if_pos (by exact waits)]
      rfl
    rw [said]
    exact ⟨m, meantAs (by rw [answer, there]; exact if_pos waits) (.threw _), stands, room⟩
  · obtain ⟨bytes, encoded⟩ := Ticket.encodeOk ((entry.sign s0 s1).wellFormed id)
    have said : serve config tickets (.markSigned id s0 s1 weather) =
        (writeReplaceAtomic config id bytes weather tickets).answers fun _ => .done := by
      have made : ({ entry.ticket id with status := .signed, signature := some ⟨s0.toList, s1.toList⟩ } : Ticket).encode = .ok bytes :=
        encoded
      rw [serve, markSigned, found]
      dsimp only [Option.map_some]
      rw [if_neg (by exact waits), made]
    have answered : answer config m (.markSigned id s0 s1 weather) = (.done, m.insert id (entry.sign s0 s1)) := by
      rw [answer, there]
      exact if_neg waits
    obtain ⟨m', does, stands', which⟩ := writes stands rfl answered .done encoded
    rw [said]
    refine ⟨m', does, stands', ?_⟩
    rcases which with rfl | rfl
    · exact room
    · rw [keysInsert, Finset.insert_eq_of_mem (Finmap.mem_keys.mpr (Finmap.mem_of_lookup_eq_some there))]
      exact room

/- A call on the directory does what it says to the map. -/
theorem serves (stands : Represents tickets m) (room : m.keys.card ≤ config.maxPendingTickets) (call : Call) :
    ∃ m', Does config m call (serve config tickets call).1 m' ∧ Represents (serve config tickets call).2 m' ∧
      m'.keys.card ≤ config.maxPendingTickets := by
  cases call with
  | submit c draws now weather => exact submits stands room c draws now weather
  | find id =>
    have found := stands.find id
    refine ⟨m, ?_, ?_, room⟩
    · rw [serve, found]
      exact .meant (.found _)
    · rw [serve, found]
      exact stands
  | listPending =>
    obtain ⟨ids, ran, once, all⟩ := stands.listing
    refine ⟨m, ?_, ?_, room⟩
    · have tells : Tells (.pending ids) (.pending (pendingIds m)) := all ▸ .pending once
      rw [serve, ran]
      exact .meant tells
    · rw [serve, ran]
      exact stands
  | markSigned id s0 s1 weather => exact signs stands room id s0 s1 weather
  | remove id =>
    refine ⟨m.erase id, .meant .done, stands.removed id, ?_⟩
    rw [Finmap.keys_erase]
    exact (Finset.card_erase_le).trans room
  | restart => exact ⟨m, .meant .done, stands, room⟩

theorem lives (stands : Represents tickets m) (room : m.keys.card ≤ config.maxPendingTickets) (calls : List Call) :
    Lives config m (life config tickets calls) := by
  induction calls generalizing tickets m with
  | nil => exact .ends m
  | cons call rest ih =>
    obtain ⟨m', does, stands', room'⟩ := serves stands room call
    exact .goesOn does room' (ih stands' room')

end Calls

/- What updates that were cut short have left behind. -/
def leftoverFiles (leftovers : List (TicketId × Bytes)) : Tickets := leftovers.map fun leftover => (tmpPath leftover.1, leftover.2)

theorem leftoversStand (leftovers : List (TicketId × Bytes)) : Represents (leftoverFiles leftovers) ∅ := by
  have files : ticketFiles (leftoverFiles leftovers) = ticketFiles [] := by
    refine List.filter_eq_nil_iff.mpr fun file mem => ?_
    obtain ⟨leftover, _, rfl⟩ := List.mem_map.mp mem
    rw [temporaryUnnamed]
    exact Bool.false_ne_true
  exact Represents.empty.same files

/- The whole life of a store without tickets, with or without temporary files in its directory, is one of the empty map. -/
theorem ticketStoreMap (config : TicketStoreConfig) (leftovers : List (TicketId × Bytes)) (calls : List Call) :
    Lives config ∅ (life config (leftoverFiles leftovers) calls) :=
  lives (leftoversStand leftovers) (Nat.zero_le _) calls

end TradeP2P.Credential.Q7933TicketStore
