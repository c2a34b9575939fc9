import TradeP2P.Journal.Accepts
import TradeP2P.Journal.TornTail

/-! Writes that fail. A call that throws leaves the journal in memory as it was, but what it wrote stays in
the log; the next record goes behind it. -/
namespace TradeP2P
open Wire (Bytes)
open Checks Machine

namespace Journal
variable {crypto : Crypto} {keys : HistoryKeys} {journal : Journal} {s t : Store} {records : List Record} {r : Record}

/- The record a call hands to the log, if it comes that far. -/
def handed (crypto : Crypto) (env : JournalEnv) (journal : Journal) : Call → Option Record
  | .append given => do
      let fields := if given.timestamp = 0 then { given with timestamp := env.now } else given
      (checkTransition (journal.lastStateByTrade fields.tradeId) fields.localState
        "attempted to append an invalid local state transition").toOption
      let index := UInt64.ofNat journal.entries.length
      let content ← (canonicalEntryBytes index fields).toOption
      return .entry { index, fields, previousHash := journal.chainHead, entryHash := crypto.sha256 (content ++ journal.chainHead.toList) }
  | .checkpoint seed => do
      let last ← journal.entries.getLast?
      let signature ← (crypto.ed25519.sign seed env.entropy (checkpointSignedBytes last.index journal.chainHead env.now)).toOption
      return .checkpoint ⟨last.index, journal.chainHead, env.now, signature⟩
  | .checkpointMldsa65 seed => do
      let last ← journal.entries.getLast?
      let signature ← (crypto.mldsa65.sign seed env.entropy
        (checkpointSuiteSignedBytes checkpointSuiteMlDsa65V1 last.index journal.chainHead env.now)).toOption
      return .checkpointSuiteV1 ⟨checkpointSuiteMlDsa65V1, last.index, journal.chainHead, env.now, signature.toList⟩

/- The head pointer a record leaves behind when it is written. -/
def headAfter (head : Option Bytes) : Record → Option Bytes
  | .entry _ => head
  | .checkpoint c => some (encodeHead { index := c.index, hash := c.hash, signedAt := c.signedAt, signature := c.signature.toList })
  | .checkpointSuiteV1 c => some (encodeHead c)

/- How a call ends once its record is on its way to the log. -/
inductive Written (env : JournalEnv) (s : Store) (r : Record) : EStateM.Result JournalError Store Unit → Prop
  | torn (n : Nat) (fault : env.logFault = some n) (short : n < r.bytes.length) (e : JournalError) :
      Written env s r (.error e ⟨s.journal, { s.disk with log := s.disk.log ++ r.bytes.take n }⟩)
  | unfinished (whole : ∀ n, env.logFault = some n → r.bytes.length ≤ n)
      (cause : vectorMaxSize ≤ s.journal.entries.length ∨ r.checkpointIndex?.isSome = true) (e : JournalError) :
      Written env s r (.error e ⟨s.journal, { s.disk with log := s.disk.log ++ r.bytes }⟩)
  | full (whole : ∀ n, env.logFault = some n → r.bytes.length ≤ n) :
      Written env s r (.ok () ⟨s.journal.extend r, ⟨s.disk.log ++ r.bytes, headAfter s.disk.head r⟩⟩)

/-! One call. -/

theorem tornWrite {fault : Option Nat} {n : Nat} {bytes : Bytes} (stops : fault = some n) (short : n < bytes.length) :
    writeAllAndSync fault bytes s = .error (.standard (.runtimeError "failed to write journal file contents"))
      { s with disk := { s.disk with log := s.disk.log ++ bytes.take n } } := by
  have less : (bytes.take n).length < bytes.length := by
    rw [List.length_take]
    omega
  subst stops
  simp only [writeAllAndSync, bind_run, get_run, set_run, lift_run, throwIf_bad less, Option.getD_some]

theorem wholeWrite {fault : Option Nat} {bytes : Bytes} (reaches : ∀ n, fault = some n → bytes.length ≤ n) :
    writeAllAndSync fault bytes s = .ok () { s with disk := { s.disk with log := s.disk.log ++ bytes } } := by
  have all : bytes.take (fault.getD bytes.length) = bytes := by
    cases fault with
    | none => exact List.take_length
    | some n => exact List.take_of_length_le (reaches n rfl)
  have enough : ¬bytes.length < bytes.length := Nat.lt_irrefl _
  simp only [writeAllAndSync, bind_run, get_run, set_run, lift_run, all, throwIf_not enough]

/- A fault stops the write, or lets all of it through. -/
theorem faultCases (fault : Option Nat) (size : Nat) :
    (∃ n, fault = some n ∧ n < size) ∨ ∀ n, fault = some n → size ≤ n := by
  cases fault with
  | none => exact .inr fun n same => by cases same
  | some n =>
      rcases Nat.lt_or_ge n size with short | long
      · exact .inl ⟨n, rfl, short⟩
      · exact .inr fun m same => Option.some.inj same ▸ long

theorem appendHanded {env : JournalEnv} {given : JournalEntryFields} :
    (∃ e, perform crypto (env, .append given) s = .error e s ∧ handed crypto env s.journal (.append given) = none) ∨
    ∃ r, handed crypto env s.journal (.append given) = some r ∧ Written env s r (perform crypto (env, .append given) s) := by
  simp only [perform, append, handed, bind_run, get_run, lift_run]
  generalize (if given.timestamp = 0 then { given with timestamp := env.now } else given) = fields
  cases moved : checkTransition (s.journal.lastStateByTrade fields.tradeId) fields.localState
      "attempted to append an invalid local state transition" with
  | error e => exact .inl ⟨e, rfl, rfl⟩
  | ok _ =>
      cases content : canonicalEntryBytes (UInt64.ofNat s.journal.entries.length) fields with
      | error e => exact .inl ⟨e, rfl, rfl⟩
      | ok bytes =>
          obtain ⟨_, same⟩ := check_ok.mp content
          cases same
          refine .inr ⟨_, rfl, ?_⟩
          generalize made : ({ index := UInt64.ofNat s.journal.entries.length, fields, previousHash := s.journal.chainHead
                               entryHash := crypto.sha256 (entryBytes (UInt64.ofNat s.journal.entries.length) fields ++
                                 s.journal.chainHead.toList) } : JournalEntry) = e
          have bytes : Framing.Frame.encode ⟨recordKindEntry, entryBytes (UInt64.ofNat s.journal.entries.length) fields ++
              (s.journal.chainHead.toList ++ (crypto.sha256 (entryBytes (UInt64.ofNat s.journal.entries.length) fields ++
                s.journal.chainHead.toList)).toList)⟩ = (Record.entry e).bytes := by
            rw [← made]
            rfl
          simp only [bytes, made]
          rcases faultCases env.logFault (Record.entry e).bytes.length with stops | whole
          · obtain ⟨n, fault, short⟩ := stops
            rw [tornWrite fault short]
            exact .torn n fault short _
          · rw [wholeWrite whole]
            by_cases room : vectorMaxSize ≤ s.journal.entries.length
            · simp only [throwIf_bad room]
              exact .unfinished whole (.inl room) _
            · simp only [throwIf_not room]
              exact .full whole

theorem checkpointHanded {env : JournalEnv} {seed : Ed25519PrivateSeed} :
    (∃ e, perform crypto (env, .checkpoint seed) s = .error e s ∧ handed crypto env s.journal (.checkpoint seed) = none) ∨
    ∃ r, handed crypto env s.journal (.checkpoint seed) = some r ∧ Written env s r (perform crypto (env, .checkpoint seed) s) := by
  simp only [perform, checkpoint, handed, bind_run, get_run]
  cases s.journal.entries.getLast? with
  | none => exact .inl ⟨_, rfl, rfl⟩
  | some last =>
      simp only [bind_run, lift_run, Option.bind_eq_bind, Option.bind_some]
      cases crypto.ed25519.sign seed env.entropy (checkpointSignedBytes last.index s.journal.chainHead env.now) with
      | error e => exact .inl ⟨_, rfl, rfl⟩
      | ok signature =>
          refine .inr ⟨_, rfl, ?_⟩
          simp only [standard, Except.mapError]
          rw [show Framing.Frame.encode ⟨recordKindCheckpoint, Checkpoint.body ⟨last.index, s.journal.chainHead, env.now, signature⟩⟩ =
            (Record.checkpoint ⟨last.index, s.journal.chainHead, env.now, signature⟩).bytes from rfl]
          rcases faultCases env.logFault (Record.checkpoint ⟨last.index, s.journal.chainHead, env.now, signature⟩).bytes.length with
            stops | whole
          · obtain ⟨n, fault, short⟩ := stops
            rw [tornWrite fault short]
            exact .torn n fault short _
          · rw [wholeWrite whole]
            cases env.headFault with
            | some e => exact .unfinished whole (.inr rfl) _
            | none => exact .full whole

theorem checkpointMldsa65Handed {env : JournalEnv} {seed : MlDsa65PrivateSeed} :
    (∃ e, perform crypto (env, .checkpointMldsa65 seed) s = .error e s ∧
      handed crypto env s.journal (.checkpointMldsa65 seed) = none) ∨
    ∃ r, handed crypto env s.journal (.checkpointMldsa65 seed) = some r ∧
      Written env s r (perform crypto (env, .checkpointMldsa65 seed) s) := by
  simp only [perform, checkpointMldsa65, handed, bind_run, get_run]
  cases s.journal.entries.getLast? with
  | none => exact .inl ⟨_, rfl, rfl⟩
  | some last =>
      simp only [bind_run, lift_run, Option.bind_eq_bind, Option.bind_some]
      cases crypto.mldsa65.sign seed env.entropy
          (checkpointSuiteSignedBytes checkpointSuiteMlDsa65V1 last.index s.journal.chainHead env.now) with
      | error e => exact .inl ⟨_, rfl, rfl⟩
      | ok signature =>
          refine .inr ⟨_, rfl, ?_⟩
          simp only [standard, Except.mapError]
          rw [show Framing.Frame.encode ⟨recordKindCheckpointSuiteV1, HeadPointer.body
              ⟨checkpointSuiteMlDsa65V1, last.index, s.journal.chainHead, env.now, signature.toList⟩⟩ = (Record.checkpointSuiteV1
            ⟨checkpointSuiteMlDsa65V1, last.index, s.journal.chainHead, env.now, signature.toList⟩).bytes from rfl]
          rcases faultCases env.logFault (Record.checkpointSuiteV1
              ⟨checkpointSuiteMlDsa65V1, last.index, s.journal.chainHead, env.now, signature.toList⟩).bytes.length with stops | whole
          · obtain ⟨n, fault, short⟩ := stops
            rw [tornWrite fault short]
            exact .torn n fault short _
          · rw [wholeWrite whole]
            cases env.headFault with
            | some e => exact .unfinished whole (.inr rfl) _
            | none => exact .full whole

/- A call is refused before it writes, or its record is on the way. -/
theorem callHanded (crypto : Crypto) (s : Store) (env : JournalEnv) (call : Call) :
    (∃ e, perform crypto (env, call) s = .error e s ∧ handed crypto env s.journal call = none) ∨
    ∃ r, handed crypto env s.journal call = some r ∧ Written env s r (perform crypto (env, call) s) := by
  cases call with
  | append given => exact appendHanded
  | checkpoint seed => exact checkpointHanded
  | checkpointMldsa65 seed => exact checkpointMldsa65Handed

/- A throw leaves the journal in memory as it was. -/
theorem throwKeeps {env : JournalEnv} {call : Call} {e : JournalError} (threw : perform crypto (env, call) s = .error e t) :
    t.journal = s.journal := by
  rcases callHanded crypto s env call with refused | written
  · obtain ⟨_, ran, _⟩ := refused
    rw [ran] at threw
    cases threw
    rfl
  · obtain ⟨r, _, written⟩ := written
    rw [threw] at written
    cases written with
    | torn => rfl
    | unfinished => rfl

/-! Records that are handed over fit the journal the log replays to. Of that journal only the place of the last
checkpoint may differ from the one in memory. -/

structure Alike (journal replays : Journal) : Prop where
  entries : journal.entries = replays.entries
  chainHead : journal.chainHead = replays.chainHead
  lastStateByTrade : journal.lastStateByTrade = replays.lastStateByTrade

theorem Alike.extend {replays : Journal} (alike : Alike journal replays) (r : Record) : Alike (journal.extend r) (replays.extend r) := by
  cases r with
  | entry e =>
      refine ⟨?_, rfl, ?_⟩
      · simp only [Journal.extend, push, alike.entries]
      · simp only [Journal.extend, push, alike.lastStateByTrade]
  | checkpoint c => exact ⟨alike.entries, alike.chainHead, alike.lastStateByTrade⟩
  | checkpointSuiteV1 c => exact ⟨alike.entries, alike.chainHead, alike.lastStateByTrade⟩

theorem Alike.checkpointed {replays : Journal} (alike : Alike journal replays) {r : Record} (checkpoint : r.checkpointIndex?.isSome = true) :
    Alike journal (replays.extend r) := by
  cases r with
  | entry e => cases checkpoint
  | checkpoint c => exact ⟨alike.entries, alike.chainHead, alike.lastStateByTrade⟩
  | checkpointSuiteV1 c => exact ⟨alike.entries, alike.chainHead, alike.lastStateByTrade⟩

theorem entryFits {env : JournalEnv} {given : JournalEntryFields} {replays : Journal} (alike : Alike journal replays)
    (room : journal.entries.length < vectorMaxSize) (given_ : handed crypto env journal (.append given) = some r) :
    ∃ e, r = .entry e ∧ FitsEntry crypto replays e := by
  simp only [handed] at given_
  generalize (if given.timestamp = 0 then { given with timestamp := env.now } else given) = fields at given_
  simp only [Option.bind_eq_bind, Option.bind_eq_some_iff, Option.pure_def, Option.some.injEq] at given_
  obtain ⟨_, moved, content, written, rfl⟩ := given_
  have moves : checkTransition (journal.lastStateByTrade fields.tradeId) fields.localState
      "attempted to append an invalid local state transition" = .ok () := by
    cases checked : checkTransition (journal.lastStateByTrade fields.tradeId) fields.localState
        "attempted to append an invalid local state transition" with
    | error e => rw [checked] at moved; cases moved
    | ok _ => rfl
  have encoded : canonicalEntryBytes (UInt64.ofNat journal.entries.length) fields = .ok content := by
    cases checked : canonicalEntryBytes (UInt64.ofNat journal.entries.length) fields with
    | error e => rw [checked] at written; cases written
    | ok bytes => rw [checked] at written; cases written; rfl
  obtain ⟨short, same⟩ := check_ok.mp encoded
  cases same
  refine ⟨_, rfl, ⟨?_, ?_, alike.chainHead, rfl, ?_, alike.entries ▸ room⟩⟩
  · exact Nat.le_of_not_lt (throwIf_ok.mp short)
  · rw [← alike.entries, UInt64.toNat_ofNat_of_lt']
    exact Nat.lt_trans room (by decide)
  · rw [← alike.lastStateByTrade]
    exact (checkTransitionOk _).mp moves

theorem checkpointFits {env : JournalEnv} {seed : Ed25519PrivateSeed} {replays : Journal} (correct : crypto.ed25519.Correct)
    (own : crypto.ed25519.publicKey seed = keys.ed25519) (alike : Alike journal replays) (coherent : Coherent replays)
    (given : handed crypto env journal (.checkpoint seed) = some r) :
    ∃ c, r = .checkpoint c ∧ FitsCheckpoint crypto keys replays c := by
  simp only [handed, Option.bind_eq_bind, Option.bind_eq_some_iff, Option.pure_def, Option.some.injEq] at given
  obtain ⟨last, found, signature, signed, rfl⟩ := given
  have made : crypto.ed25519.sign seed env.entropy (checkpointSignedBytes last.index journal.chainHead env.now) = .ok signature := by
    cases signing : crypto.ed25519.sign seed env.entropy (checkpointSignedBytes last.index journal.chainHead env.now) with
    | error e => rw [signing] at signed; cases signed
    | ok _ => rw [signing] at signed; cases signed; rfl
  have verified := correct _ _ _ _ made
  rw [own] at verified
  rw [alike.entries] at found
  exact ⟨_, rfl, ⟨alike.chainHead ▸ refersLast coherent found, verified⟩⟩

theorem checkpointMldsa65Fits {env : JournalEnv} {seed : MlDsa65PrivateSeed} {replays : Journal} (correct : crypto.mldsa65.Correct)
    (own : some (crypto.mldsa65.publicKey seed) = keys.mldsa65) (alike : Alike journal replays) (coherent : Coherent replays)
    (given : handed crypto env journal (.checkpointMldsa65 seed) = some r) :
    ∃ c, r = .checkpointSuiteV1 c ∧ FitsSuite crypto keys replays c ∧ verifyHead crypto keys c = .ok true := by
  simp only [handed, Option.bind_eq_bind, Option.bind_eq_some_iff, Option.pure_def, Option.some.injEq] at given
  obtain ⟨last, found, signature, signed, rfl⟩ := given
  have made : crypto.mldsa65.sign seed env.entropy
      (checkpointSuiteSignedBytes checkpointSuiteMlDsa65V1 last.index journal.chainHead env.now) = .ok signature := by
    cases signing : crypto.mldsa65.sign seed env.entropy
        (checkpointSuiteSignedBytes checkpointSuiteMlDsa65V1 last.index journal.chainHead env.now) with
    | error e => rw [signing] at signed; cases signed
    | ok _ => rw [signing] at signed; cases signed; rfl
  have verified {noKey : String} : verifyMldsa65 crypto keys noKey
      ⟨checkpointSuiteMlDsa65V1, last.index, journal.chainHead, env.now, signature.toList⟩ = .ok true :=
    verifyMldsa65Ok own rfl (correct _ _ _ _ made)
  rw [alike.entries] at found
  refine ⟨_, rfl, ⟨alike.chainHead ▸ refersLast coherent found, mldsa65Sized rfl rfl, ?_⟩, ?_⟩
  · simp [verifySuiteCheckpoint, verified]
  · simp [verifyHead, verified]

theorem headAgreesFurther {index : UInt64} {hash : JournalHash} {head : Option Bytes} (refers : Refers journal index hash)
    (agrees : HeadAgrees crypto keys journal head) : HeadAgrees crypto keys (journal.checkpointedAt index) head := by
  cases head with
  | none => trivial
  | some bytes =>
      obtain ⟨pointer, genuine, found, reached⟩ := agrees
      exact ⟨pointer, genuine, found, rfl, reachedAgain refers reached⟩

/- The record fits, and both head pointers it can be left with agree with it. -/
theorem handedFits (correct : crypto.Correct) {env : JournalEnv} {call : Call} {replays : Journal} (own : call.SignsFor crypto keys)
    (alike : Alike journal replays) (coherent : Coherent replays) (room : journal.entries.length < vectorMaxSize)
    {head : Option Bytes} (agrees : HeadAgrees crypto keys replays head) (given : handed crypto env journal call = some r) :
    Fits crypto keys replays r ∧ HeadAgrees crypto keys (replays.extend r) head ∧
      HeadAgrees crypto keys (replays.extend r) (headAfter head r) := by
  cases call with
  | append fields =>
      obtain ⟨e, rfl, fits⟩ := entryFits alike room given
      exact ⟨fits, headAgreesPush agrees, headAgreesPush agrees⟩
  | checkpoint seed =>
      obtain ⟨c, rfl, fits⟩ := checkpointFits correct.ed25519 own alike coherent given
      refine ⟨fits, headAgreesFurther fits.toRefers agrees, headAgreesCheckpoint ?_ fits.toRefers ?_⟩
      · simp [HeadPointer.WellSized, expectedCheckpointSignatureLength]
      · have verified := fits.verified
        simpa [verifyHead, checkpointSuiteEd25519V1, checkpointSuiteMlDsa65V1, fixedFromToList, standardOk] using verified
  | checkpointMldsa65 seed =>
      obtain ⟨c, rfl, fits, verified⟩ := checkpointMldsa65Fits correct.mldsa65 own alike coherent given
      exact ⟨fits, headAgreesFurther fits.toRefers agrees, headAgreesCheckpoint fits.sized fits.toRefers verified⟩

/-! Runs in which calls may fail. -/

/- A failed write leaves part of a record in the log. -/
def Tears (crypto : Crypto) (s : Store) (call : JournalEnv × Call) : Prop :=
  ∃ r n, handed crypto call.1 s.journal call.2 = some r ∧ call.1.logFault = some n ∧ 0 < n ∧ n < r.bytes.length

/- A call that gets bytes of a record into the log. -/
def Writes (crypto : Crypto) (s : Store) (call : JournalEnv × Call) : Prop :=
  (handed crypto call.1 s.journal call.2).isSome = true ∧ call.1.logFault ≠ some 0

/- Once part of a record is left in the log, nothing is written behind it. -/
def Clean (crypto : Crypto) : Prop → Store → List (JournalEnv × Call) → Prop
  | _, _, [] => True
  | torn, s, call :: rest => s.journal.entries.length < vectorMaxSize ∧ (torn → ¬Writes crypto s call) ∧
      Clean crypto (torn ∨ Tears crypto s call) (next (perform crypto) s call) rest

/- The log holds records that fit, and at most part of one more. -/
structure Afloat (crypto : Crypto) (keys : HistoryKeys) (s : Store) (records : List Record) (rest : Bytes) : Prop where
  fits : Fitting crypto keys {} records
  alike : Alike s.journal (replayed records)
  log : s.disk.log = Framing.logBytes Record.frame records ++ rest
  head : HeadAgrees crypto keys (replayed records) s.disk.head
  part : rest = [] ∨ ∃ r n, Fits crypto keys (replayed records) r ∧ n < r.bytes.length ∧ rest = r.bytes.take n

section Runs
variable {rest : Bytes}

theorem Kept.afloat (kept : Kept crypto keys s records) : Afloat crypto keys s records [] where
  fits := kept.fits
  alike := by rw [kept.journal]; exact ⟨rfl, rfl, rfl⟩
  log := by rw [kept.log, List.append_nil]
  head := kept.journal ▸ kept.head
  part := .inl rfl

theorem Afloat.opens (afloat : Afloat crypto keys s records rest) : ∃ left, Journal.open crypto keys s.disk = .ok (replayed records) left := by
  have agrees := headAgreesChecked afloat.head
  have disk : s.disk = ⟨Framing.logBytes Record.frame records ++ rest, s.disk.head⟩ := by rw [← afloat.log]
  rw [disk]
  rcases afloat.part with none_ | part
  · have opened := openCut afloat.fits s.disk.head (Framing.logBytes Record.frame records).length
    have whole : Framing.within (fun r => r.bytes.length) records (Framing.logBytes Record.frame records).length = records :=
      Framing.withinAll Record.frame records (Nat.le_refl _)
    rw [List.take_length, whole, agrees] at opened
    rw [none_, List.append_nil]
    exact ⟨_, opened⟩
  · obtain ⟨r, n, last, short, rfl⟩ := part
    have opened := openCut (fittingSnoc afloat.fits last) s.disk.head ((Framing.logBytes Record.frame records).length + n)
    have inside : Framing.within (fun r => r.bytes.length) (records ++ [r]) ((Framing.logBytes Record.frame records).length + n) =
      records := Framing.withinPart Record.frame records short
    have cut : (Framing.logBytes Record.frame (records ++ [r])).take ((Framing.logBytes Record.frame records).length + n) =
        Framing.logBytes Record.frame records ++ r.bytes.take n := by
      rw [Framing.logBytes_append, List.take_length_add_append, Framing.logBytes_cons, Framing.logBytes_nil, List.append_nil]
      rfl
    rw [inside, cut, agrees] at opened
    exact ⟨_, opened⟩

theorem Afloat.grows (afloat : Afloat crypto keys s records []) {journal' : Journal} {head : Option Bytes}
    (fits : Fits crypto keys (replayed records) r) (alike : Alike journal' ((replayed records).extend r))
    (agrees : HeadAgrees crypto keys ((replayed records).extend r) head) :
    Afloat crypto keys ⟨journal', ⟨s.disk.log ++ r.bytes, head⟩⟩ (records ++ [r]) [] where
  fits := fittingSnoc afloat.fits fits
  alike := by rw [replayedSnoc]; exact alike
  log := by
    have log := afloat.log
    rw [List.append_nil] at log
    rw [log, Framing.logBytes_append, Framing.logBytes_cons, Framing.logBytes_nil, List.append_nil, List.append_nil]
    rfl
  head := by rw [replayedSnoc]; exact agrees
  part := .inl rfl

theorem bytesPositive (r : Record) : 0 < r.bytes.length := by
  rw [Record.bytes, Framing.lengthEncode]
  omega

/- A whole record reaches the log only where a write reaches it. -/
theorem wholeWrites {call : JournalEnv × Call} (given : handed crypto call.1 s.journal call.2 = some r)
    (whole : ∀ n, call.1.logFault = some n → r.bytes.length ≤ n) : Writes crypto s call := by
  refine ⟨by rw [given]; rfl, fun fault => ?_⟩
  have bound := whole 0 fault
  have positive := bytesPositive r
  omega

theorem Afloat.step (correct : crypto.Correct) {torn : Prop} (afloat : Afloat crypto keys s records rest) (untorn : ¬torn → rest = [])
    {call : JournalEnv × Call} (own : call.2.SignsFor crypto keys) (room : s.journal.entries.length < vectorMaxSize)
    (silent : torn → ¬Writes crypto s call) :
    ∃ records' rest', Afloat crypto keys (next (perform crypto) s call) records' rest' ∧ (¬(torn ∨ Tears crypto s call) → rest' = []) := by
  rcases callHanded crypto s call.1 call.2 with refused | written
  · obtain ⟨e, ran, _⟩ := refused
    have stays : next (perform crypto) s call = s := by
      unfold next
      rw [ran]
    rw [stays]
    exact ⟨records, rest, afloat, fun neither => untorn fun is_ => neither (.inl is_)⟩
  · obtain ⟨r, given, written⟩ := written
    obtain ⟨fits, agrees, agreesAfter⟩ := handedFits correct own afloat.alike (coherentReplayed afloat.fits) room afloat.head given
    have clear (writes : Writes crypto s call) : rest = [] := untorn fun is_ => silent is_ writes
    obtain ⟨env, call⟩ := call
    unfold next
    generalize perform crypto (env, call) s = result at written
    cases written with
    | torn n fault short e =>
        cases n with
        | zero =>
            have stays : (⟨s.journal, { s.disk with log := s.disk.log ++ r.bytes.take 0 }⟩ : Store) = s := by
              rw [List.take_zero, List.append_nil]
            refine ⟨records, rest, ?_, fun neither => untorn fun is_ => neither (.inl is_)⟩
            simpa only [stays] using afloat
        | succ n =>
            have writes : Writes crypto s (env, call) := by
              refine ⟨by rw [given]; rfl, ?_⟩
              rw [fault]
              simp
            obtain rfl := clear writes
            refine ⟨records, r.bytes.take (n + 1), ?_, fun neither => absurd (.inr ⟨r, n + 1, given, fault, Nat.succ_pos n, short⟩) neither⟩
            have log := afloat.log
            rw [List.append_nil] at log
            exact ⟨afloat.fits, afloat.alike, congrArg (· ++ r.bytes.take (n + 1)) log, afloat.head, .inr ⟨r, n + 1, fits, short, rfl⟩⟩
    | unfinished whole cause e =>
        obtain rfl := clear (wholeWrites given whole)
        have checkpoint : r.checkpointIndex?.isSome = true := cause.resolve_left (Nat.not_le_of_lt room)
        exact ⟨records ++ [r], [], afloat.grows fits (afloat.alike.checkpointed checkpoint) agrees, fun _ => rfl⟩
    | full whole =>
        obtain rfl := clear (wholeWrites given whole)
        exact ⟨records ++ [r], [], afloat.grows fits (afloat.alike.extend r) agreesAfter, fun _ => rfl⟩

theorem Afloat.run (correct : crypto.Correct) {torn : Prop} (afloat : Afloat crypto keys s records rest) (untorn : ¬torn → rest = [])
    {calls : List (JournalEnv × Call)} (own : ∀ call ∈ calls, call.2.SignsFor crypto keys) (clean : Clean crypto torn s calls) :
    ∃ records' rest', Afloat crypto keys (exec (perform crypto) s calls) records' rest' := by
  induction calls generalizing torn s records rest with
  | nil => exact ⟨records, rest, afloat⟩
  | cons call later ih =>
      obtain ⟨first, others⟩ := List.forall_mem_cons.mp own
      obtain ⟨room, silent, cleanLater⟩ := clean
      obtain ⟨_, _, next_, untornNext⟩ := afloat.step correct untorn first room silent
      exact ih next_ untornNext others cleanLater

end Runs

/- From any journal that opened, by calls that may fail in any way. -/
theorem failedWritesHarmless (correct : crypto.Correct) {disk left : Disk} (opened : Journal.open crypto keys disk = .ok journal left)
    {calls : List (JournalEnv × Call)} (own : ∀ call ∈ calls, call.2.SignsFor crypto keys)
    (clean : Clean crypto False ⟨journal, left⟩ calls) :
    (∀ s call e t, perform crypto call s = .error e t → t.journal = s.journal) ∧
    ∃ again after, Journal.open crypto keys (exec (perform crypto) ⟨journal, left⟩ calls).disk = .ok again after ∧
      again.entries = (exec (perform crypto) ⟨journal, left⟩ calls).journal.entries := by
  refine ⟨fun s call e t threw => throwKeeps threw, ?_⟩
  obtain ⟨records, _, _, kept, _⟩ := openOk opened
  obtain ⟨_, _, afloat⟩ := kept.afloat.run correct (fun _ => rfl) own clean
  obtain ⟨after, opens⟩ := afloat.opens
  exact ⟨_, after, opens, afloat.alike.entries.symm⟩

/-! The first entry of a trade, tried with a full disk and again. -/
section FullDisk

theorem untornBy {call : JournalEnv × Call} (fault : call.1.logFault = none ∨ call.1.logFault = some 0) : ¬Tears crypto s call := by
  intro tears
  obtain ⟨_, n, _, stopped, positive, _⟩ := tears
  rcases fault with none_ | zero
  · rw [none_] at stopped
    cases stopped
  · rw [zero] at stopped
    cases stopped
    exact Nat.lt_irrefl 0 positive

theorem entriesGrow (crypto : Crypto) (s : Store) (call : JournalEnv × Call) :
    (next (perform crypto) s call).journal.entries.length ≤ s.journal.entries.length + 1 := by
  unfold next
  rcases callHanded crypto s call.1 call.2 with refused | written
  · obtain ⟨e, ran, _⟩ := refused
    rw [ran]
    exact Nat.le_succ _
  · obtain ⟨r, _, written⟩ := written
    obtain ⟨env, call⟩ := call
    generalize perform crypto (env, call) s = result at written
    cases written with
    | torn => exact Nat.le_succ _
    | unfinished => exact Nat.le_succ _
    | full =>
        cases r with
        | entry e => simp [Journal.extend, push]
        | checkpoint c => exact Nat.le_succ _
        | checkpointSuiteV1 c => exact Nat.le_succ _

theorem cleanQuiet {calls : List (JournalEnv × Call)} (quiet : ∀ call ∈ calls, call.1.logFault = none ∨ call.1.logFault = some 0)
    (few : s.journal.entries.length + calls.length < vectorMaxSize) (last : JournalEnv × Call) :
    Clean crypto False s (calls ++ [last]) := by
  have general {torn : Prop} (untorn : ¬torn) : Clean crypto torn s (calls ++ [last]) := by
    induction calls generalizing s torn with
    | nil => exact ⟨few, fun is_ => absurd is_ untorn, trivial⟩
    | cons call later ih =>
        obtain ⟨first, others⟩ := List.forall_mem_cons.mp quiet
        have grows := entriesGrow crypto s call
        rw [List.length_cons] at few
        exact ⟨by omega, fun is_ => absurd is_ untorn, ih others (by omega) (not_or.mpr ⟨untorn, untornBy first⟩)⟩
  exact general id

/- No byte of the first attempt is written; the last attempt stops in its record. -/
def emptyWriteCalls : List (JournalEnv × Call) :=
  [({ now := 1700000000, logFault := some 0 }, .append firstFields), ({ now := 1700000001 }, .append firstFields),
   ({ now := 1700000002, logFault := some 3 }, .append firstFields)]

theorem emptyWriteHarmless :
    ∃ again after, Journal.open firstCrypto firstKeys (exec (perform firstCrypto) ⟨{}, {}⟩ emptyWriteCalls).disk = .ok again after ∧
      again.entries = (exec (perform firstCrypto) ⟨{}, {}⟩ emptyWriteCalls).journal.entries := by
  have own : ∀ call ∈ emptyWriteCalls, call.2.SignsFor firstCrypto firstKeys := by simp [emptyWriteCalls, Call.SignsFor]
  have quiet : ∀ call ∈ emptyWriteCalls.take 2, call.1.logFault = none ∨ call.1.logFault = some 0 := by simp [emptyWriteCalls]
  exact (failedWritesHarmless firstCryptoCorrect openEmpty own (cleanQuiet quiet (by decide) _)).2

/- One byte of the first attempt is written. -/
def tornWriteCalls : List (JournalEnv × Call) :=
  [({ now := 1700000000, logFault := some 1 }, .append firstFields), ({ now := 1700000001 }, .append firstFields)]

def opensAgain (crypto : Crypto) (keys : HistoryKeys) (disk : Disk) : Bool :=
  match Journal.open crypto keys disk with
  | .ok _ _ => true
  | .error _ _ => false

theorem tornWriteFatal : (exec (perform firstCrypto) ⟨{}, {}⟩ tornWriteCalls).journal.entries.length = 1 ∧
    opensAgain firstCrypto firstKeys (exec (perform firstCrypto) ⟨{}, {}⟩ tornWriteCalls).disk = false := by
  decide +kernel

end FullDisk
end Journal
end TradeP2P
