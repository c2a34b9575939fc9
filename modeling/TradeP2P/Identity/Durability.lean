import TradeP2P.Identity.AccountFile

/-! How the accounts of the web client last: processes that come and go over one file, appends that stop anywhere, and records
whose optional fields are damaged while no process runs. -/
namespace TradeP2P.AccountFile
open Wire (Bytes ascii)
open Checks

/-! Records, and the accounts they stand for. -/

structure Username where
  text : Bytes
  valid : validateUsername text = .ok ()

structure OnLine where
  text : Bytes
  whole : newline ∉ text

/- A record that is in the file to its end, with what its optional fields have become. -/
structure Record where
  username : Username
  salt : Bytes
  hash : Bytes
  now : Option Tm
  optional : OnLine

/- The key that optional fields give: one of a known suite and of its length. Any other content is no key. -/
def declaredKey (optional : Bytes) : Option EnrolledLoginKey :=
  match hexBytes (trimmed (loginKeyHex optional)), readSuite (suiteText optional) with
  | some raw, some suiteId =>
      if fits : raw ≠ [] ∧ raw.length = expectedLoginKeyLength suiteId then some ⟨suiteId, raw, fits.2⟩ else none
  | _, _ => none

/- A key field is empty or hexadecimal, and if it is blank then the suite is not an unknown one. -/
def Legible (optional : Bytes) : Prop :=
  loginKeyHex optional = [] ∨ ∃ raw, hexBytes (trimmed (loginKeyHex optional)) = some raw ∧
    (raw = [] → ∀ suiteId, readSuite (suiteText optional) = some suiteId → expectedLoginKeyLength suiteId ≠ 0)

namespace Record

def account (record : Record) : Account where
  username := record.username.text
  salt := record.salt
  hash := record.hash
  createdAt := nowText record.now
  loginKey := declaredKey record.optional.text

def fields (record : Record) : LineFields where
  username := record.username.text
  saltHex := toHex record.salt
  hashHex := toHex record.hash
  createdAt := nowText record.now
  optional := record.optional.text

def line (record : Record) : Bytes :=
  lineText record.username.text record.salt record.hash (nowText record.now) record.optional.text

end Record

def latest (records : List Record) (name : Bytes) : Option Record :=
  records.reverse.find? fun record => record.username.text = name

def accountsOf (records : List Record) : Accounts := fun name => (latest records name).map Record.account

section Reading
variable {optional : Bytes} {record : Record} {records : List Record}

/- A load reads the optional fields for what they give if and only if they are legible. -/
theorem keyMeant : readLoginKey optional = .ok (declaredKey optional) ↔ Legible optional := by
  unfold readLoginKey declaredKey Legible fromHex
  by_cases absent : loginKeyHex optional = []
  · have blank : hexBytes (trimmed []) = some [] := rfl
    rw [if_pos absent, absent, blank]
    cases readSuite (suiteText optional) <;> simp [pure, Except.pure]
  · rw [if_neg absent]
    cases hexBytes (trimmed (loginKeyHex optional)) with
    | none => simp [absent, bind, Except.bind]
    | some raw =>
      cases readSuite (suiteText optional) with
      | none => simp [absent, bind, Except.bind, pure, Except.pure]
      | some suiteId =>
        by_cases sized : raw.length = expectedLoginKeyLength suiteId
        · cases raw with
          | nil => simp [absent, bind, Except.bind, pure, Except.pure, ← sized]
          | cons byte more => simp [absent, bind, Except.bind, pure, Except.pure, sized]
        · cases raw with
          | nil =>
            have other : 0 ≠ expectedLoginKeyLength suiteId := sized
            simp [absent, bind, Except.bind, pure, Except.pure, other, other.symm]
          | cons byte more => simp [absent, bind, Except.bind, pure, Except.pure]

theorem nameLetters (username : Username) : ∀ c ∈ username.text, usernameCharacter c = true := by
  have valid := username.valid
  simp only [validateUsername, check_ok, throwIf_ok] at valid
  simpa using valid.2.2

theorem nameFirst (username : Username) : ∃ c more, username.text = c :: more ∧ c ≠ 0x23 := by
  have valid := username.valid
  simp only [validateUsername, check_ok, throwIf_ok] at valid
  cases text : username.text with
  | nil => simp [text] at valid
  | cons c more =>
    refine ⟨c, more, rfl, ?_⟩
    rintro rfl
    have letter := nameLetters username 0x23 (by simp [text])
    revert letter
    decide

theorem namePlain (username : Username) {mark : UInt8} (special : usernameCharacter mark = false) : mark ∉ username.text := by
  intro mem
  rw [nameLetters username mark mem] at special
  cases special

theorem timePlain (now : Option Tm) : ∀ c ∈ nowText now, 0x20 ≤ c.toNat := by
  have digits {n : Nat} {c : UInt8} (mem : c ∈ decimal n) : 0x20 ≤ c.toNat := by
    have low := (decimalByte mem).1
    omega
  cases now with
  | none =>
    have printable : (nowText none).all (fun c => decide (0x20 ≤ c.toNat)) = true := by decide +kernel
    exact fun c mem => of_decide_eq_true (List.all_eq_true.mp printable c mem)
  | some tm =>
    intro c mem
    simp only [nowText, twoDigits, List.mem_append, List.mem_cons] at mem
    rcases mem with mem | rfl | (mem | mem) | rfl | (mem | mem) | rfl | (mem | mem) | rfl | (mem | mem) | rfl | (mem | mem)
    all_goals first | exact digits mem | decide

theorem timeFree (now : Option Tm) {mark : UInt8} (low : mark.toNat < 0x20) : mark ∉ nowText now := by
  intro mem
  have high := timePlain now mark mem
  omega

theorem lineWhole (record : Record) : newline ∉ record.line := by
  have name : newline ∉ record.username.text := namePlain record.username (by decide)
  have time : newline ∉ nowText record.now := timeFree record.now (by decide)
  have salt : newline ∉ toHex record.salt := hexPlain record.salt (by decide)
  have hash : newline ∉ toHex record.hash := hexPlain record.hash (by decide)
  have tabs : newline ≠ tab := by decide
  simp [Record.line, lineText, name, time, salt, hash, tabs, record.optional.whole]

theorem recordLoaded (legible : Legible record.optional.text) (accounts : Accounts) :
    loadLine accounts record.line = .ok (Function.update accounts record.username.text (some record.account)) :=
  lineLoaded (nameFirst record.username) (namePlain record.username (by decide)) (timeFree record.now (by decide)) (keyMeant.mpr legible)

theorem latestGrows (records : List Record) (record : Record) :
    accountsOf (records ++ [record]) = Function.update (accountsOf records) record.username.text (some record.account) := by
  funext name
  rw [Function.update_apply, accountsOf, latest, List.reverse_append, List.reverse_singleton, List.singleton_append, List.find?_cons]
  by_cases own : record.username.text = name
  · rw [if_pos own.symm]
    simp [own]
  · rw [if_neg fun same => own same.symm]
    simp [own, accountsOf, latest]

theorem recordsLoaded (legible : ∀ record ∈ records, Legible record.optional.text) :
    (records.map Record.line).foldlM loadLine (fun _ => none) = .ok (accountsOf records) := by
  induction records using List.reverseRecOn with
  | nil => rfl
  | append_singleton records record ih =>
    have front := ih fun other mem => legible other (List.mem_append_left _ mem)
    rw [List.map_append, List.foldlM_append, front, latestGrows]
    exact (bind_pure _).trans (recordLoaded (legible record (by simp)) _)

end Reading

/-! What happens to the file and to the process over it. -/

def keyLine (loginKey : Option EnrolledLoginKey) : OnLine where
  text := keyText loginKey
  whole := by
    have tabs : newline ≠ tab := by decide
    have digits (n : Nat) : newline ∉ decimal n := fun mem => absurd (decimalByte mem).1 (by decide)
    cases loginKey with
    | none => decide
    | some key => simp [keyText, @hexPlain key.bytes newline (by decide), digits, tabs]

structure Damage where
  place : Nat
  optional : OnLine

def firstFields : Nat → Bytes → Bytes
  | 0, _ => []
  | count + 1, line => line.takeWhile (· ≠ tab) ++ tab :: firstFields count (line.dropWhile (· ≠ tab)).tail

def Damage.ofFile (file : Bytes) (damage : Damage) : Bytes :=
  TornLog.rewrite newline damage.place (fun line => firstFields 4 line ++ damage.optional.text) file

def Damage.ofRecords (records : List Record) (damage : Damage) : List Record :=
  records.modify damage.place fun record => { record with optional := damage.optional }

def damaged (damages : List Damage) (records : List Record) : List Record := damages.foldl Damage.ofRecords records

/- A key is enrolled for a suite that the route lets through; a process starts over the file as it has become. -/
inductive Step where
  | create (username : Username) (password : Bytes) (salt : Option Bytes) (now : Option Tm) (writing : Writing)
  | setLoginKey (username : Bytes) (key : EnrolledLoginKey) (known : KnownSuite key.suiteId) (writing : Writing)
  | restart (damages : List Damage)

inductive Process where
  | running (accounts : Accounts)
  | stopped
  | refused (e : Error)

/- The records are those that have been written to their end. -/
structure World where
  file : Option Bytes := none
  process : Process := .running fun _ => none
  records : List Record := []

def Writing.count : Writing → Nat
  | .unopened => 0
  | .opened count | .crashes count => count

/- The records behind an append of this one. -/
def Writing.records (writing : Writing) (records : List Record) : Option Record → List Record
  | some record => if record.line.length < writing.count then records ++ [record] else records
  | none => records

def World.after (records : List Record) : EStateM.Result Fault AccountStore Unit → World
  | .ok _ store | .error (.threw _) store => ⟨store.file, .running store.accounts, records⟩
  | .error .crashed store => ⟨store.file, .stopped, records⟩

def World.start (file : Option Bytes) (records : List Record) : World where
  file := file
  process := match load file with
    | .ok accounts => .running accounts
    | .error e => .refused e
  records := records

section Steps
variable (derive : Bytes → Bytes → Option Bytes)

/- The record that a call is to append, if it comes to that. -/
def created (records : List Record) (username : Username) (password : Bytes) (salt : Option Bytes) (now : Option Tm) : Option Record := do
  let salt ← salt
  let hash ← derive password salt
  if (latest records username.text).isSome then none
  else return { username, salt, hash, now, optional := keyLine none }

def enrolled (records : List Record) (username : Bytes) (key : EnrolledLoginKey) : Option Record :=
  (latest records username).map fun record => { record with optional := keyLine (some key) }

-- A process that does not run does nothing.
def World.next (w : World) : Step → World
  | .create username password salt now writing => match w.process with
    | .running accounts => .after (writing.records w.records (created derive w.records username password salt now))
        (AccountStore.create derive username.text password salt now writing ⟨w.file, accounts⟩)
    | _ => w
  | .setLoginKey username key _ writing => match w.process with
    | .running accounts => .after (writing.records w.records (enrolled w.records username key))
        (AccountStore.setLoginKey username key writing ⟨w.file, accounts⟩)
    | _ => w
  | .restart damages => .start (w.file.map fun file => damages.foldl Damage.ofFile file) (damaged damages w.records)

/-! When the accounts last. -/

/- What stands unended at the end of the file. -/
def torn (file : Option Bytes) : Bytes := TornLog.tail newline (file.getD [])

/- An unended line has fewer than four fields, or it is a record of what the account is without it. -/
def Harmless (records : List Record) (rest : Bytes) : Prop :=
  ∀ fields, lineFields rest = some fields →
    ∃ record : Record, fields = record.fields ∧ Legible record.optional.text ∧ accountsOf records record.username.text = some record.account

def CreateFine (w : World) (record : Record) : Writing → Prop
  | .unopened => True
  | .opened count => record.line.length < count ∧ torn w.file = []
  | .crashes count => record.line.length < count → torn w.file = []

-- Unless the key is the one that the account has, a write that fails leaves it in memory only.
def EnrolFine (w : World) (record : Record) : Writing → Prop
  | .unopened => accountsOf w.records record.username.text = some record.account
  | .opened count =>
      if record.line.length < count then torn w.file = []
      else accountsOf w.records record.username.text = some record.account ∧
        Harmless w.records (torn w.file ++ record.line.take count)
  | .crashes count => record.line.length < count → torn w.file = []

def World.Fine (w : World) : Step → Prop
  | .create username password salt now writing => ∀ accounts record, w.process = .running accounts →
      created derive w.records username password salt now = some record → CreateFine w record writing
  | .setLoginKey username key _ writing => ∀ accounts record, w.process = .running accounts →
      enrolled w.records username key = some record → EnrolFine w record writing
  | .restart damages => (∀ record ∈ damaged damages w.records, Legible record.optional.text) ∧
      Harmless (damaged damages w.records) (torn w.file)

inductive Reached : World → Prop where
  | start : Reached {}
  | step {w : World} (reached : Reached w) (step : Step) (fine : w.Fine derive step) : Reached (w.next derive step)

/- A process that runs has the accounts of the records, and so has one that starts; and one that is started runs. -/
def World.Durable (w : World) : Prop :=
  match w.process with
  | .running accounts => accounts = accountsOf w.records ∧ load w.file = .ok accounts
  | .stopped => True
  | .refused _ => False

end Steps

/-! The file, and what a load makes of it. -/
section Loading
variable {records : List Record} {record : Record} {rest : Bytes} {file : Option Bytes} {count : Nat}

theorem noFields : lineFields [] = none := rfl

theorem endedHarmless : Harmless records [] := by
  intro fields read
  cases noFields.symm.trans read

theorem linesOfText {lines : List Bytes} (whole : ∀ line ∈ lines, newline ∉ line) (unended : newline ∉ rest) :
    readLines (TornLog.text newline lines rest) = lines ++ if rest = [] then [] else [rest] := by
  rw [readLines, TornLog.pieces whole unended]
  by_cases ended : rest = []
  · simp [ended]
  · simp [ended]

theorem linesWhole (records : List Record) : ∀ line ∈ records.map Record.line, newline ∉ line := by
  intro line mem
  obtain ⟨record, _, rfl⟩ := List.mem_map.mp mem
  exact lineWhole record

theorem loadRead (file : Option Bytes) : load file = (readLines (file.getD [])).foldlM loadLine fun _ => none := by
  cases file <;> rfl

/- A harmless rest changes nothing. -/
theorem restLoaded (harmless : Harmless records rest) : loadLine (accountsOf records) rest = .ok (accountsOf records) := by
  cases read : lineFields rest with
  | none =>
    rw [loadLine, read]
    exact ite_self _
  | some fields =>
    obtain ⟨record, rfl, legible, same⟩ := harmless fields read
    rw [loadLine, read]
    by_cases skipped : rest = [] ∨ rest.head? = some 0x23
    · rw [if_pos skipped]
      rfl
    · have account : readAccount record.fields = .ok record.account := by
        rw [Record.fields, accountRead, keyMeant.mpr legible]
        rfl
      have unchanged : Function.update (accountsOf records) record.account.username (some record.account) = accountsOf records :=
        Function.update_eq_self_iff.mpr same.symm
      rw [if_neg skipped]
      simp only [account]
      exact congrArg Except.ok unchanged

theorem textLoaded (text : file.getD [] = TornLog.text newline (records.map Record.line) rest) (unended : newline ∉ rest)
    (legible : ∀ record ∈ records, Legible record.optional.text) (harmless : Harmless records rest) :
    load file = .ok (accountsOf records) := by
  rw [loadRead, text, linesOfText (linesWhole records) unended, List.foldlM_append, recordsLoaded legible]
  split
  · rfl
  · exact (bind_pure _).trans (restLoaded harmless)

theorem textAppended (text : file.getD [] = TornLog.text newline (records.map Record.line) []) (whole : record.line.length < count) :
    file.getD [] ++ (record.line ++ [newline]).take count = TornLog.text newline ((records ++ [record]).map Record.line) [] := by
  have all : (record.line ++ [newline]).take count = record.line ++ [newline] := List.take_of_length_le (by simp; omega)
  rw [all, text, TornLog.textGrows, List.nil_append, TornLog.textEnds, List.map_append, List.map_singleton]

theorem textCut (text : file.getD [] = TornLog.text newline (records.map Record.line) rest) (cut : ¬record.line.length < count) :
    file.getD [] ++ (record.line ++ [newline]).take count =
      TornLog.text newline (records.map Record.line) (rest ++ record.line.take count) := by
  rw [text, TornLog.textGrows, List.take_append_of_le_length (by omega)]

theorem cutUnended (unended : newline ∉ rest) (count : Nat) : newline ∉ rest ++ record.line.take count := by
  intro mem
  rcases List.mem_append.mp mem with old | new
  · exact unended old
  · exact lineWhole record (List.mem_of_mem_take new)

theorem firstFieldsOf (record : Record) (optional : OnLine) :
    firstFields 4 record.line ++ optional.text = { record with optional := optional }.line := by
  have plain {field : Bytes} (free : tab ∉ field) (rest : Bytes) (count : Nat) :
      firstFields (count + 1) (field ++ tab :: rest) = field ++ tab :: firstFields count rest := by
    have read := getlineField free rest
    have some_ : field ++ tab :: rest ≠ [] := by simp
    rw [getline.eq_2 _ _ some_] at read
    obtain ⟨front, back⟩ := Prod.mk.inj (Option.some.inj read)
    rw [firstFields, front, back]
  have name : tab ∉ record.username.text := namePlain record.username (by decide)
  have time : tab ∉ nowText record.now := timeFree record.now (by decide)
  have salt : tab ∉ toHex record.salt := hexPlain record.salt (by decide)
  have hash : tab ∉ toHex record.hash := hexPlain record.hash (by decide)
  rw [Record.line, lineText, plain name, plain salt, plain hash, plain time]
  simp [Record.line, lineText, firstFields]

theorem bytesDamaged {bytes : Bytes} (text : bytes = TornLog.text newline (records.map Record.line) rest) (unended : newline ∉ rest)
    (damages : List Damage) :
    damages.foldl Damage.ofFile bytes = TornLog.text newline ((damaged damages records).map Record.line) rest := by
  induction damages generalizing bytes records with
  | nil => exact text
  | cons damage more ih =>
    have rewritten : Damage.ofFile bytes damage = TornLog.text newline ((damage.ofRecords records).map Record.line) rest := by
      rw [Damage.ofFile, text, TornLog.rewriteText (linesWhole records) unended,
        TornLog.modifyWritten fun record => firstFieldsOf record damage.optional]
      rfl
    exact ih rewritten

theorem textDamaged (text : file.getD [] = TornLog.text newline (records.map Record.line) rest) (unended : newline ∉ rest)
    (damages : List Damage) : ((file.map fun file => damages.foldl Damage.ofFile file).getD []) =
      TornLog.text newline ((damaged damages records).map Record.line) rest := by
  cases file with
  | none =>
    have none_ : records = [] := by
      cases records with
      | nil => rfl
      | cons record more => simp [TornLog.text] at text
    have still : damaged damages [] = [] := by
      induction damages with
      | nil => rfl
      | cons damage more ih => simpa [damaged, Damage.ofRecords] using ih
    rw [none_] at text ⊢
    rw [still]
    exact text
  | some bytes => exact bytesDamaged text unended damages

end Loading

/-! What the calls do. -/
section Calls
variable {derive : Bytes → Bytes → Option Bytes} {records : List Record} {record : Record} {file : Option Bytes} {writing : Writing}

theorem hexDecoded (bytes : Bytes) : hexBytes (trimmed (toHex bytes)) = some bytes := by
  have read := KeyLogin.hexRoundTrip bytes
  unfold fromHex at read
  split at read
  next decoded same => rw [same, Except.ok.inj read]
  next => cases read

theorem keyed {key : EnrolledLoginKey} (known : KnownSuite key.suiteId) : declaredKey (keyText (some key)) = some key := by
  have some_ : key.bytes ≠ [] := by
    intro empty
    have length := knownLength known
    rw [← key.sized, empty] at length
    exact length rfl
  rw [declaredKey, keyFieldRead, suiteFieldRead, hexDecoded, knownSuiteRead known]
  exact dif_pos ⟨some_, key.sized⟩

/- A record as it is written. -/
def Written (record : Record) : Prop := record.optional.text = keyText (declaredKey record.optional.text)

theorem writtenLine (written : Written record) : record.account.line = record.line := by
  rw [Record.line, written]
  rfl

theorem createRuns (username : Username) (password : Bytes) (salt : Option Bytes) (now : Option Tm) :
    (created derive records username password salt now = none ∧ ∃ e,
      AccountStore.create derive username.text password salt now writing ⟨file, accountsOf records⟩ =
        .error (.threw e) ⟨file, accountsOf records⟩) ∨
    ∃ record, created derive records username password salt now = some record ∧ Written record ∧ Legible record.optional.text ∧
      AccountStore.create derive username.text password salt now writing ⟨file, accountsOf records⟩ =
        (do
          AccountStore.appendLocked record.account writing
          modify fun store =>
            { store with accounts := Function.update store.accounts record.username.text (some record.account) } :
          EStateM Fault AccountStore Unit) ⟨file, accountsOf records⟩ := by
  have there : (accountsOf records username.text).isSome = (latest records username.text).isSome := Option.isSome_map
  cases salt with
  | none => exact .inl ⟨rfl, _, rfl⟩
  | some salt =>
    cases hash : derive password salt with
    | none =>
      refine .inl ⟨by simp [created, hash], .runtimeError "password hashing failed", ?_⟩
      simp only [AccountStore.create, AccountStore.createdAccount, hash]
      rfl
    | some hash' =>
      by_cases known : (latest records username.text).isSome
      · refine .inl ⟨by simp [created, known], .runtimeError "that username is already registered", ?_⟩
        simp only [AccountStore.create, AccountStore.createdAccount, hash, pure, Except.pure, Methods.getThen, Methods.ifThen, there,
          if_pos known]
        rfl
      · refine .inr ⟨⟨username, salt, hash', now, keyLine none⟩, by simp [created, hash, known], rfl, .inl rfl, ?_⟩
        simp only [AccountStore.create, AccountStore.createdAccount, hash, pure, Except.pure, Methods.getThen, Methods.ifThen, there,
          if_neg known]
        rfl

theorem enrolRuns (username : Bytes) {key : EnrolledLoginKey} (known : KnownSuite key.suiteId) :
    (enrolled records username key = none ∧ ∃ e,
      AccountStore.setLoginKey username key writing ⟨file, accountsOf records⟩ = .error (.threw e) ⟨file, accountsOf records⟩) ∨
    ∃ record, enrolled records username key = some record ∧ Written record ∧ Legible record.optional.text ∧
      AccountStore.setLoginKey username key writing ⟨file, accountsOf records⟩ =
        AccountStore.appendLocked record.account writing
          ⟨file, Function.update (accountsOf records) record.username.text (some record.account)⟩ := by
  cases found : latest records username with
  | none =>
    have account : accountsOf records username = none := by rw [accountsOf, found, Option.map_none]
    refine .inl ⟨by simp [enrolled, found], .runtimeError "unknown account", ?_⟩
    simp only [AccountStore.setLoginKey, Methods.getThen, account]
    rfl
  | some record =>
    have account : accountsOf records username = some record.account := by rw [accountsOf, found, Option.map_some]
    have own : record.username.text = username := by simpa using List.find?_some found
    have key' := keyed known
    refine .inr ⟨{ record with optional := keyLine (some key) }, by simp [enrolled, found], ?_, ?_, ?_⟩
    · exact congrArg keyText key'.symm
    · exact keyMeant.mp ((keyRead known).trans (congrArg Except.ok key'.symm))
    · have same : Record.account { record with optional := keyLine (some key) } = { record.account with loginKey := some key } :=
        congrArg (fun loginKey => ({ record.account with loginKey } : Account)) key'
      simp only [AccountStore.setLoginKey, Methods.getThen, account, Methods.modifyThen, same, own]

end Calls

/-! What a step keeps. -/
section Keeping
variable {derive : Bytes → Bytes → Option Bytes} {w : World} {record : Record} {rest : Bytes}

/- The file holds the records and an unended rest, and a process that runs has what a load would give. -/
structure World.Keeps (w : World) (rest : Bytes) : Prop where
  unended : newline ∉ rest
  text : w.file.getD [] = TornLog.text newline (w.records.map Record.line) rest
  legible : ∀ record ∈ w.records, Legible record.optional.text
  running : ∀ accounts, w.process = .running accounts → accounts = accountsOf w.records ∧ Harmless w.records rest
  started : ∀ e, w.process ≠ .refused e

theorem World.Keeps.tornRest (keeps : w.Keeps rest) : torn w.file = rest := by
  rw [torn, keeps.text, TornLog.tailText (linesWhole w.records) keeps.unended]

theorem World.Keeps.durable (keeps : w.Keeps rest) : w.Durable := by
  unfold World.Durable
  split
  next accounts runs =>
    obtain ⟨same, harmless⟩ := keeps.running accounts runs
    exact ⟨same, same ▸ textLoaded keeps.text keeps.unended keeps.legible harmless⟩
  next => exact True.intro
  next e refused => exact keeps.started e refused

theorem legibleGrown (keeps : w.Keeps rest) (legible : Legible record.optional.text) :
    ∀ other ∈ w.records ++ [record], Legible other.optional.text := by
  intro other mem
  rcases List.mem_append.mp mem with old | new
  · exact keeps.legible other old
  · rw [List.mem_singleton.mp new]
    exact legible

/- An append, of which the process learns as it may. -/
theorem wholeKept (keeps : w.Keeps rest) (legible : Legible record.optional.text) {count : Nat} (whole : record.line.length < count)
    (ended : rest = []) {process : Process} (runs : process = .running (accountsOf (w.records ++ [record])) ∨ process = .stopped) :
    (⟨some (w.file.getD [] ++ (record.line ++ [newline]).take count), process, w.records ++ [record]⟩ : World).Keeps [] := by
  subst ended
  refine ⟨List.not_mem_nil, textAppended keeps.text whole, legibleGrown keeps legible, fun accounts running => ?_, fun e refused => ?_⟩
  · rcases runs with rfl | rfl
    · exact ⟨(Process.running.inj running).symm, endedHarmless⟩
    · cases running
  · rcases runs with rfl | rfl <;> cases refused

theorem cutKept (keeps : w.Keeps rest) {count : Nat} (cut : ¬record.line.length < count) {process : Process}
    (runs : process = .stopped ∨ process = .running (accountsOf w.records) ∧ Harmless w.records (rest ++ record.line.take count)) :
    (⟨some (w.file.getD [] ++ (record.line ++ [newline]).take count), process, w.records⟩ : World).Keeps
      (rest ++ record.line.take count) := by
  refine ⟨cutUnended keeps.unended count, textCut keeps.text cut, keeps.legible, fun accounts running => ?_, fun e refused => ?_⟩
  · rcases runs with rfl | ⟨rfl, harmless⟩
    · cases running
    · exact ⟨(Process.running.inj running).symm, harmless⟩
  · rcases runs with rfl | ⟨rfl, _⟩ <;> cases refused

/- The process learns of what it wrote; here nothing was written. -/
theorem unwrittenKept (keeps : w.Keeps rest) {accounts : Accounts} (runs : w.process = .running accounts) :
    (⟨w.file, .running (accountsOf w.records), w.records⟩ : World).Keeps rest := by
  refine ⟨keeps.unended, keeps.text, keeps.legible, fun _ running => ?_, fun e refused => by cases refused⟩
  exact ⟨(Process.running.inj running).symm, (keeps.running accounts runs).2⟩

/- A process that ends in an append leaves what it had written. -/
theorem crashKept (keeps : w.Keeps rest) (written : Written record) (legible : Legible record.optional.text) {count : Nat}
    (ended : record.line.length < count → torn w.file = []) :
    ∃ rest, (⟨some (w.file.getD [] ++ (record.account.line ++ [newline]).take count), .stopped,
      (Writing.crashes count).records w.records (some record)⟩ : World).Keeps rest := by
  rw [writtenLine written]
  by_cases whole : record.line.length < count
  · have records : (Writing.crashes count).records w.records (some record) = w.records ++ [record] := if_pos whole
    rw [records]
    exact ⟨[], wholeKept keeps legible whole (keeps.tornRest.symm.trans (ended whole)) (.inr rfl)⟩
  · have records : (Writing.crashes count).records w.records (some record) = w.records := if_neg whole
    rw [records]
    exact ⟨_, cutKept keeps whole (.inl rfl)⟩

theorem openedKept (keeps : w.Keeps rest) (written : Written record) (legible : Legible record.optional.text) {count : Nat}
    (whole : record.line.length < count) (ended : torn w.file = []) :
    ∃ rest, (⟨some (w.file.getD [] ++ (record.account.line ++ [newline]).take count),
      .running (Function.update (accountsOf w.records) record.username.text (some record.account)),
      (Writing.opened count).records w.records (some record)⟩ : World).Keeps rest := by
  have records : (Writing.opened count).records w.records (some record) = w.records ++ [record] := if_pos whole
  rw [records, writtenLine written]
  exact ⟨[], wholeKept keeps legible whole (keeps.tornRest.symm.trans ended)
    (.inl (congrArg Process.running (latestGrows w.records record).symm))⟩

/- An account that was there already makes no difference to the accounts. -/
theorem sameAccounts {records : List Record} {record : Record} (same : accountsOf records record.username.text = some record.account) :
    Function.update (accountsOf records) record.username.text (some record.account) = accountsOf records :=
  Function.update_eq_self_iff.mpr same.symm

theorem createKept (keeps : w.Keeps rest) (username : Username) (password : Bytes) (salt : Option Bytes) (now : Option Tm)
    (writing : Writing) (fine : w.Fine derive (.create username password salt now writing)) :
    ∃ rest, (w.next derive (.create username password salt now writing)).Keeps rest := by
  cases runs : w.process with
  | stopped => exact ⟨rest, by simpa only [World.next, runs] using keeps⟩
  | refused e => exact absurd runs (keeps.started e)
  | running accounts =>
    obtain ⟨rfl, _⟩ := keeps.running accounts runs
    simp only [World.next, runs]
    rcases @createRuns derive w.records w.file writing username password salt now with
      ⟨none_, e, went⟩ | ⟨record, made, written, legible, went⟩
    · rw [went, none_]
      exact ⟨rest, unwrittenKept keeps runs⟩
    · have fine := fine _ record runs made
      rw [went, made]
      cases writing with
      | unopened => exact ⟨rest, unwrittenKept keeps runs⟩
      | opened count => exact openedKept keeps written legible fine.1 fine.2
      | crashes count => exact crashKept keeps written legible fine

theorem enrolKept (keeps : w.Keeps rest) (username : Bytes) (key : EnrolledLoginKey) (known : KnownSuite key.suiteId)
    (writing : Writing) (fine : w.Fine derive (.setLoginKey username key known writing)) :
    ∃ rest, (w.next derive (.setLoginKey username key known writing)).Keeps rest := by
  cases runs : w.process with
  | stopped => exact ⟨rest, by simpa only [World.next, runs] using keeps⟩
  | refused e => exact absurd runs (keeps.started e)
  | running accounts =>
    obtain ⟨rfl, _⟩ := keeps.running accounts runs
    simp only [World.next, runs]
    rcases @enrolRuns w.records w.file writing username key known with ⟨none_, e, went⟩ | ⟨record, made, written, legible, went⟩
    · rw [went, none_]
      exact ⟨rest, unwrittenKept keeps runs⟩
    · have fine := fine _ record runs made
      rw [went, made]
      cases writing with
      | unopened =>
        rw [sameAccounts fine]
        exact ⟨rest, unwrittenKept keeps runs⟩
      | opened count =>
        by_cases whole : record.line.length < count
        · exact openedKept keeps written legible whole ((if_pos whole).mp fine)
        · obtain ⟨same, harmless⟩ := (if_neg whole).mp fine
          have records : (Writing.opened count).records w.records (some record) = w.records := if_neg whole
          rw [sameAccounts same, records]
          have kept := cutKept keeps whole (.inr ⟨rfl, keeps.tornRest ▸ harmless⟩)
          rw [← writtenLine written] at kept
          exact ⟨_, kept⟩
      | crashes count => exact crashKept keeps written legible fine

theorem restartKept (keeps : w.Keeps rest) (damages : List Damage) (fine : w.Fine derive (.restart damages)) :
    (w.next derive (.restart damages)).Keeps rest ∧ (w.next derive (.restart damages)).process =
      .running (accountsOf (damaged damages w.records)) := by
  obtain ⟨legible, harmless⟩ := fine
  rw [keeps.tornRest] at harmless
  have text := textDamaged keeps.text keeps.unended damages
  have loaded := textLoaded text keeps.unended legible harmless
  have runs : (w.next derive (.restart damages)).process = .running (accountsOf (damaged damages w.records)) := by
    rw [World.next, World.start, loaded]
  refine ⟨⟨keeps.unended, text, legible, fun accounts running => ?_, fun e refused => ?_⟩, runs⟩
  · exact ⟨(Process.running.inj (running.symm.trans runs)), harmless⟩
  · cases refused.symm.trans runs

theorem startKept : (({} : World)).Keeps [] := by
  refine ⟨List.not_mem_nil, rfl, fun record mem => absurd mem List.not_mem_nil, fun accounts running => ?_, fun e refused => by cases refused⟩
  exact ⟨(Process.running.inj running).symm, endedHarmless⟩

/-! Writes that fail. -/

def Writing.Fails (record : Record) : Writing → Prop
  | .unopened => True
  | .opened count => ¬record.line.length < count
  | .crashes _ => False

def Step.Fails (derive : Bytes → Bytes → Option Bytes) (w : World) : Step → Prop
  | .create username password salt now writing =>
      ∃ record, created derive w.records username password salt now = some record ∧ writing.Fails record
  | .setLoginKey username key _ writing => ∃ record, enrolled w.records username key = some record ∧ writing.Fails record
  | .restart _ => False

theorem createUnchanged (keeps : w.Keeps rest) (username : Username) (password : Bytes) (salt : Option Bytes) (now : Option Tm)
    (writing : Writing) (fine : w.Fine derive (.create username password salt now writing))
    (made : created derive w.records username password salt now = some record) (fails : writing.Fails record) :
    (w.next derive (.create username password salt now writing)).process = w.process := by
  cases runs : w.process with
  | stopped | refused e => simp only [World.next, runs]
  | running accounts =>
    obtain ⟨rfl, _⟩ := keeps.running accounts runs
    simp only [World.next, runs]
    have fine := fine _ record runs made
    rcases @createRuns derive w.records w.file writing username password salt now with ⟨none_, _⟩ | ⟨_, _, _, _, went⟩
    · cases none_.symm.trans made
    · cases writing with
      | unopened =>
        rw [went]
        rfl
      | opened count => exact absurd fine.1 fails
      | crashes count => exact fails.elim

theorem enrolUnchanged (keeps : w.Keeps rest) (username : Bytes) (key : EnrolledLoginKey) (known : KnownSuite key.suiteId)
    (writing : Writing) (fine : w.Fine derive (.setLoginKey username key known writing))
    (made : enrolled w.records username key = some record) (fails : writing.Fails record) :
    (w.next derive (.setLoginKey username key known writing)).process = w.process := by
  cases runs : w.process with
  | stopped | refused e => simp only [World.next, runs]
  | running accounts =>
    obtain ⟨rfl, _⟩ := keeps.running accounts runs
    simp only [World.next, runs]
    have fine := fine _ record runs made
    rcases @enrolRuns w.records w.file writing username key known with ⟨none_, _⟩ | ⟨record', made', _, _, went⟩
    · cases none_.symm.trans made
    · obtain rfl := Option.some.inj (made'.symm.trans made)
      rw [went]
      cases writing with
      | unopened =>
        rw [sameAccounts fine]
        rfl
      | opened count =>
        rw [sameAccounts ((if_neg fails).mp fine).1]
        rfl
      | crashes count => exact fails.elim

theorem stepKept (keeps : w.Keeps rest) (step : Step) (fine : w.Fine derive step) : ∃ rest, (w.next derive step).Keeps rest := by
  cases step with
  | create username password salt now writing => exact createKept keeps username password salt now writing fine
  | setLoginKey username key known writing => exact enrolKept keeps username key known writing fine
  | restart damages => exact ⟨rest, (restartKept keeps damages fine).1⟩

theorem reachedKept (reached : Reached derive w) : ∃ rest, w.Keeps rest := by
  induction reached with
  | start => exact ⟨[], startKept⟩
  | step _ step fine ih =>
    obtain ⟨rest, keeps⟩ := ih
    exact stepKept keeps step fine

end Keeping

/-! Two accounts, and the accounts of every run. -/
section Alice

def derived (_ _ : Bytes) : Option Bytes := some (List.replicate 32 7)

theorem aliceValid : validateUsername (ascii "alice") = .ok () := by decide
theorem bobValid : validateUsername (ascii "bob") = .ok () := by decide
theorem zeroWhole : newline ∉ ascii "00\t7" := by decide
theorem oddWhole : newline ∉ ascii "0\t1" := by decide

def zeroDamage : Damage := ⟨0, ascii "00\t7", zeroWhole⟩
def oddDamage : Damage := ⟨0, ascii "0\t1", oddWhole⟩

def createAlice (writing : Writing) : Step :=
  .create ⟨ascii "alice", aliceValid⟩ (ascii "password") (some (List.replicate 16 1)) (some ⟨2026, 1, 2, 3, 4, 5⟩) writing

def createBob (writing : Writing) : Step :=
  .create ⟨ascii "bob", bobValid⟩ (ascii "password") (some (List.replicate 16 1)) (some ⟨2026, 1, 2, 3, 4, 5⟩) writing

def zeroKey : EnrolledLoginKey := ⟨loginSuiteEd25519V1, List.replicate 32 0, List.length_replicate⟩

def lived : List Step → World := List.foldl (World.next derived) {}

/- As long as every step is fine, a process that runs has what a load would give, which is what the records give; a process that
starts comes up with that; and a write that fails changes nothing in memory. -/
theorem accountsLast {derive : Bytes → Bytes → Option Bytes} {w : World} (reached : Reached derive w) : w.Durable ∧
    (∀ damages, w.Fine derive (.restart damages) →
      (w.next derive (.restart damages)).process = .running (accountsOf (damaged damages w.records))) ∧
    ∀ step, w.Fine derive step → step.Fails derive w → (w.next derive step).process = w.process := by
  obtain ⟨rest, keeps⟩ := reachedKept reached
  refine ⟨keeps.durable, fun damages fine => (restartKept keeps damages fine).2, fun step fine fails => ?_⟩
  cases step with
  | create username password salt now writing =>
    obtain ⟨record, made, fails⟩ := fails
    exact createUnchanged keeps username password salt now writing fine made fails
  | setLoginKey username key known writing =>
    obtain ⟨record, made, fails⟩ := fails
    exact enrolUnchanged keeps username key known writing fine made fails
  | restart damages => exact fails.elim

theorem aliceLasts : (lived [createAlice (.opened 200), createBob (.crashes 30), .restart [zeroDamage]]).Durable := by
  have first : World.Fine derived {} (createAlice (.opened 200)) := by
    intro accounts record _ made
    obtain rfl := Option.some.inj made
    exact ⟨by decide +kernel, by decide +kernel⟩
  have second : (lived [createAlice (.opened 200)]).Fine derived (createBob (.crashes 30)) := fun _ _ _ _ _ => by decide +kernel
  have third : (lived [createAlice (.opened 200), createBob (.crashes 30)]).Fine derived (.restart [zeroDamage]) := by
    have facts : (damaged [zeroDamage] (lived [createAlice (.opened 200), createBob (.crashes 30)]).records).map
          (fun record => record.optional.text) = [ascii "00\t7"] ∧
        lineFields (torn (lived [createAlice (.opened 200), createBob (.crashes 30)]).file) = none ∧
        hexBytes (trimmed (loginKeyHex (ascii "00\t7"))) = some [0] := by
      decide +kernel
    refine ⟨fun record mem => ?_, fun fields read => by cases facts.2.1.symm.trans read⟩
    have text : record.optional.text ∈ (damaged [zeroDamage] (lived [createAlice (.opened 200), createBob (.crashes 30)]).records).map
        (fun record => record.optional.text) := List.mem_map.mpr ⟨record, mem, rfl⟩
    rw [facts.1, List.mem_singleton] at text
    rw [text]
    exact .inr ⟨[0], facts.2.2, fun empty => by cases empty⟩
  exact (accountsLast (.step (.step (.step .start _ first) _ second) _ third)).1

/- Whether a process that runs has of a name what the records give. -/
def World.agrees (w : World) (name : Bytes) : Bool :=
  match w.process with
  | .running accounts => decide (accounts name = accountsOf w.records name)
  | .stopped => true
  | .refused _ => false

theorem World.Durable.agrees {w : World} (durable : w.Durable) (name : Bytes) : w.agrees name = true := by
  unfold World.Durable at durable
  unfold World.agrees
  split at durable
  next => exact decide_eq_true (congrFun durable.1 name)
  next => rfl
  next => exact durable.elim

/- A time that was cut is an account; an odd key field stops the load; a name behind a cut one is lost; a key that was not
written is in memory, and so is an account that was written in part. -/
theorem accountsLost : ¬(lived [createAlice (.crashes 110), .restart []]).Durable ∧
    ¬(lived [createAlice (.opened 200), .restart [oddDamage]]).Durable ∧
    ¬(lived [createAlice (.crashes 3), .restart [], createBob (.opened 200), .restart []]).Durable ∧
    ¬(lived [createAlice (.opened 200), .setLoginKey (ascii "alice") zeroKey (.inl rfl) .unopened]).Durable ∧
    ¬(lived [createAlice (.opened 50)]).Durable := by
  have lost : (lived [createAlice (.crashes 110), .restart []]).agrees (ascii "alice") = false ∧
      (lived [createAlice (.opened 200), .restart [oddDamage]]).agrees (ascii "alice") = false ∧
      (lived [createAlice (.crashes 3), .restart [], createBob (.opened 200), .restart []]).agrees (ascii "bob") = false ∧
      (lived [createAlice (.opened 200), .setLoginKey (ascii "alice") zeroKey (.inl rfl) .unopened]).agrees (ascii "alice") = false ∧
      (lived [createAlice (.opened 50)]).agrees (ascii "alice") = false := by
    decide +kernel
  have differs {w : World} {name : Bytes} (no : w.agrees name = false) : ¬w.Durable := fun durable => by
    cases no.symm.trans (durable.agrees name)
  exact ⟨differs lost.1, differs lost.2.1, differs lost.2.2.1, differs lost.2.2.2.1, differs lost.2.2.2.2⟩

end Alice
end TradeP2P.AccountFile
