import TradeP2P.Identity.Enumeration
import TradeP2P.Lib.Methods
import TradeP2P.Lib.TornLog
import TradeP2P.Mediator.FeeConfig
import TradeP2P.Registry.Peers

/-! The file of the web client's accounts: a line for every change of one, of which the last one counts. A line has four
fields, and two more where a login key was enrolled. -/
namespace TradeP2P.AccountFile
open Wire (Bytes ascii)
open Checks Machine

def tab : UInt8 := 0x09

structure Account where
  username : Bytes
  salt : Bytes
  hash : Bytes
  createdAt : Bytes
  loginKey : Option EnrolledLoginKey := none
  deriving DecidableEq

abbrev Accounts := Bytes → Option Account

/-! Names and times. -/

def isalpha (c : UInt8) : Bool := (0x41 ≤ c && c ≤ 0x5a) || (0x61 ≤ c && c ≤ 0x7a)

-- The two marks are '_' and '-'.
def usernameCharacter (c : UInt8) : Bool := isalnum c || c == 0x5f || c == 0x2d

def validateUsername (username : Bytes) : Except Error Unit := do
  throwIf (username.length < 3 ∨ username.length > 32) (.invalidArgument "username must be 3 to 32 characters")
  throwIf (!username.head?.any isalpha) (.invalidArgument "username must start with a letter")
  throwIf (!username.all usernameCharacter) (.invalidArgument "username may only contain letters, digits, '-' and '_'")

/- A local time, of a year that the clock can tell. -/
structure Tm where
  year : Nat
  month : Nat
  day : Nat
  hour : Nat
  minute : Nat
  second : Nat

def twoDigits (n : Nat) : Bytes := decimal (n / 10) ++ decimal (n % 10)

def nowText : Option Tm → Bytes
  | none => ascii "time-unavailable"
  | some tm => decimal tm.year ++ 0x2d :: (twoDigits tm.month ++ 0x2d :: (twoDigits tm.day ++ 0x20 ::
      (twoDigits tm.hour ++ 0x3a :: (twoDigits tm.minute ++ 0x3a :: twoDigits tm.second))))

/-! Reading. -/

-- Where nothing is left the stream has failed and the text is as it was.
def getline (delim : UInt8) : Bytes → Option (Bytes × Bytes)
  | [] => none
  | rest => some (rest.takeWhile (· ≠ delim), (rest.dropWhile (· ≠ delim)).tail)

structure LineFields where
  username : Bytes
  saltHex : Bytes
  hashHex : Bytes
  createdAt : Bytes
  optional : Bytes
  deriving DecidableEq

def lineFields (line : Bytes) : Option LineFields := do
  let (username, rest) ← getline tab line
  let (saltHex, rest) ← getline tab rest
  let (hashHex, rest) ← getline tab rest
  let (createdAt, optional) ← getline tab rest
  return { username, saltHex, hashHex, createdAt, optional }

def loginKeyHex (optional : Bytes) : Bytes := ((getline tab optional).map Prod.fst).getD []
def suiteText (optional : Bytes) : Bytes := ((getline tab optional).map Prod.snd).getD []

-- A key that was enrolled before there were suites is an Ed25519 key.
def readSuite (suiteText : Bytes) : Option UInt16 :=
  if suiteText = [] then some loginSuiteEd25519V1
  else
    match RegistryServer.stoul suiteText with
    | .ok (parsed, consumed) => if consumed = suiteText.length ∧ parsed ≤ 65535 then some (UInt16.ofNat parsed) else none
    | .error _ => none

-- The key is decoded outside the try block.
def readLoginKey (optional : Bytes) : Except Error (Option EnrolledLoginKey) :=
  if loginKeyHex optional = [] then return none
  else do
    let raw ← fromHex (loginKeyHex optional)
    match readSuite (suiteText optional) with
    | some suiteId => return if sized : raw.length = expectedLoginKeyLength suiteId then some ⟨suiteId, raw, sized⟩ else none
    | none => return none

def readAccount (fields : LineFields) : Except Error Account := do
  return {
    username := fields.username
    salt := ← fromHex fields.saltHex
    hash := ← fromHex fields.hashHex
    createdAt := fields.createdAt
    loginKey := ← readLoginKey fields.optional }

def loadLine (accounts : Accounts) (line : Bytes) : Except Error Accounts :=
  if line = [] ∨ line.head? = some 0x23 then return accounts
  else
    match lineFields line with
    | none => return accounts
    | some fields => do
        let account ← readAccount fields
        return Function.update accounts account.username (some account)

-- A file that cannot be opened is no file.
def load : Option Bytes → Except Error Accounts
  | none => return fun _ => none
  | some file => (readLines file).foldlM loadLine fun _ => none

/-! Writing. -/

def keyText (loginKey : Option EnrolledLoginKey) : Bytes :=
  (loginKey.map fun key => toHex key.bytes).getD [] ++ tab :: (loginKey.map fun key => decimal key.suiteId.toNat).getD []

def lineText (username salt hash createdAt optional : Bytes) : Bytes :=
  username ++ tab :: (toHex salt ++ tab :: (toHex hash ++ tab :: (createdAt ++ tab :: optional)))

def Account.line (account : Account) : Bytes :=
  lineText account.username account.salt account.hash account.createdAt (keyText account.loginKey)

structure AccountStore where
  file : Option Bytes := none
  accounts : Accounts := fun _ => none

inductive Fault where
  | threw (e : Error)
  | crashed

/- What comes of an append: the file is not opened; or it is, and so many bytes get into it; or the process ends behind them. -/
inductive Writing where
  | unopened
  | opened (count : Nat)
  | crashes (count : Nat)

namespace AccountStore

def written (account : Account) (count : Nat) (store : AccountStore) : AccountStore :=
  { store with file := some (store.file.getD [] ++ (account.line ++ [newline]).take count) }

-- Nothing looks at the stream behind the writing.
def appendLocked (account : Account) : Writing → EStateM Fault AccountStore Unit
  | .unopened => throw (.threw (.runtimeError "failed to open the account store for writing"))
  | .opened count => modify (written account count)
  | .crashes count => do
      modify (written account count)
      throw .crashed

-- Nothing of this is under the lock.
def createdAccount (derive : Bytes → Bytes → Option Bytes) (username password : Bytes) (salt : Option Bytes) (now : Option Tm) :
    Except Error Account :=
  match salt with
  | none => throw (.runtimeError "RAND_bytes failed while creating an account")
  | some salt =>
      match derive password salt with
      | none => throw (.runtimeError "password hashing failed")
      | some hash => return { username, salt, hash, createdAt := nowText now }

def create (derive : Bytes → Bytes → Option Bytes) (username password : Bytes) (salt : Option Bytes) (now : Option Tm)
    (writing : Writing) : EStateM Fault AccountStore Unit :=
  match createdAccount derive username password salt now with
  | .error e => throw (.threw e)
  | .ok account => do
      let store ← get
      if (store.accounts username).isSome then throw (.threw (.runtimeError "that username is already registered"))
      else do
        appendLocked account writing
        modify fun store => { store with accounts := Function.update store.accounts username (some account) }

def setLoginKey (username : Bytes) (key : EnrolledLoginKey) (writing : Writing) : EStateM Fault AccountStore Unit := do
  let store ← get
  match store.accounts username with
  | none => throw (.threw (.runtimeError "unknown account"))
  | some account => do
      let enrolled := { account with loginKey := some key }
      modify fun store => { store with accounts := Function.update store.accounts username (some enrolled) }
      appendLocked enrolled writing

end AccountStore

/-! What was written is read again. -/
section Reading
variable {field rest optional username salt hash createdAt : Bytes} {key : EnrolledLoginKey} {accounts : Accounts}

theorem getlineField (plain : tab ∉ field) (rest : Bytes) : getline tab (field ++ tab :: rest) = some (field, rest) := by
  have each : ∀ c ∈ field, decide (c ≠ tab) = true := fun c mem => decide_eq_true (fun same => plain (same ▸ mem))
  have some_ : field ++ tab :: rest ≠ [] := by simp
  rw [getline.eq_2 _ _ some_, List.takeWhile_append_of_pos each, List.dropWhile_append_of_pos each]
  simp

theorem hexPlain (bytes : Bytes) {mark : UInt8} (blank : isBlank mark = true) : mark ∉ toHex bytes := by
  intro mem
  rw [KeyLogin.hexSolid mem] at blank
  cases blank

theorem lineRead (name : tab ∉ username) (time : tab ∉ createdAt) :
    lineFields (lineText username salt hash createdAt optional) = some ⟨username, toHex salt, toHex hash, createdAt, optional⟩ := by
  have blank : isBlank tab = true := by decide
  simp only [lineFields, lineText, getlineField name, getlineField (hexPlain salt blank), getlineField (hexPlain hash blank),
    getlineField time, bind, Option.bind, pure]

theorem accountRead : readAccount ⟨username, toHex salt, toHex hash, createdAt, optional⟩ =
    (readLoginKey optional).map fun loginKey => ⟨username, salt, hash, createdAt, loginKey⟩ := by
  simp only [readAccount, KeyLogin.hexRoundTrip]
  cases readLoginKey optional <;> rfl

theorem keyFieldRead (key : EnrolledLoginKey) : loginKeyHex (keyText (some key)) = toHex key.bytes := by
  have blank : isBlank tab = true := by decide
  simp [loginKeyHex, keyText, getlineField (hexPlain key.bytes blank)]

theorem suiteFieldRead (key : EnrolledLoginKey) : suiteText (keyText (some key)) = decimal key.suiteId.toNat := by
  have blank : isBlank tab = true := by decide
  simp [suiteText, keyText, getlineField (hexPlain key.bytes blank)]

/- The suites that a key can be enrolled for. -/
def KnownSuite (suiteId : UInt16) : Prop := suiteId = loginSuiteEd25519V1 ∨ suiteId = loginSuiteMlDsa65V1

theorem knownLength {suiteId : UInt16} (known : KnownSuite suiteId) : expectedLoginKeyLength suiteId ≠ 0 := by
  rcases known with rfl | rfl <;> decide

theorem knownSuiteRead {suiteId : UInt16} (known : KnownSuite suiteId) : readSuite (decimal suiteId.toNat) = some suiteId := by
  rcases known with rfl | rfl <;> decide

theorem keyRead (known : KnownSuite key.suiteId) : readLoginKey (keyText (some key)) = .ok (some key) := by
  have length := knownLength known
  have some_ : toHex key.bytes ≠ [] := by
    intro none
    have bytes := KeyLogin.hexRoundTrip key.bytes
    rw [none] at bytes
    have empty : key.bytes = [] := (Except.ok.inj bytes).symm
    rw [← key.sized, empty] at length
    exact length rfl
  rw [readLoginKey, keyFieldRead, suiteFieldRead, if_neg some_, KeyLogin.hexRoundTrip, knownSuiteRead known]
  exact congrArg Except.ok (dif_pos key.sized)

theorem lineLoaded (first : ∃ c more, username = c :: more ∧ c ≠ 0x23) (name : tab ∉ username) (time : tab ∉ createdAt)
    {loginKey : Option EnrolledLoginKey} (read : readLoginKey optional = .ok loginKey) :
    loadLine accounts (lineText username salt hash createdAt optional) =
      .ok (Function.update accounts username (some ⟨username, salt, hash, createdAt, loginKey⟩)) := by
  obtain ⟨c, more, rfl, ordinary⟩ := first
  have begun : ¬(lineText (c :: more) salt hash createdAt optional = [] ∨
      (lineText (c :: more) salt hash createdAt optional).head? = some 0x23) := by
    simpa [lineText] using ordinary
  rw [loadLine, if_neg begun, lineRead name time]
  simp only [accountRead, read]
  rfl

end Reading

/-! A login sees of the store what it has of the accounts. -/
section Logins
variable {store : AccountStore} {writing : Writing} {given : Except Error Unit}

def AccountStore.forLogin (store : AccountStore) : TradeP2P.AccountStore where
  accounts username := (store.accounts username).map fun account => ⟨account.loginKey⟩

/- What an append comes to for the caller, if the process goes on. -/
def Writing.appended : Writing → Option (Except Error Unit)
  | .unopened => some (.error (.runtimeError "failed to open the account store for writing"))
  | .opened _ => some (.ok ())
  | .crashes _ => none

def seen : EStateM.Result Fault AccountStore Unit → Option (EStateM.Result Error TradeP2P.AccountStore Unit)
  | .ok _ store => some (.ok () store.forLogin)
  | .error (.threw e) store => some (.error e store.forLogin)
  | .error .crashed _ => none

theorem updatedForLogin (accounts : Accounts) (username : Bytes) (account : Account) (file : Option Bytes) :
    (⟨file, Function.update accounts username (some account)⟩ : AccountStore).forLogin =
      ⟨Function.update (⟨file, accounts⟩ : AccountStore).forLogin.accounts username (some ⟨account.loginKey⟩)⟩ := by
  simp only [AccountStore.forLogin, TradeP2P.AccountStore.mk.injEq]
  funext name
  simp only [Function.update_apply]
  split <;> rfl

theorem createdFields {derive : Bytes → Bytes → Option Bytes} {username password : Bytes} {salt : Option Bytes} {now : Option Tm}
    {account : Account} (made : AccountStore.createdAccount derive username password salt now = .ok account) :
    account.username = username ∧ account.createdAt = nowText now ∧ account.loginKey = none := by
  unfold AccountStore.createdAccount at made
  split at made
  · cases made
  · split at made
    · cases made
    · obtain rfl := Except.ok.inj made
      exact ⟨rfl, rfl, rfl⟩

theorem createSeen {derive : Bytes → Bytes → Option Bytes} {username password : Bytes} {salt : Option Bytes} {now : Option Tm}
    {account : Account} (made : AccountStore.createdAccount derive username password salt now = .ok account)
    (goesOn : writing.appended = some given) :
    seen (AccountStore.create derive username password salt now writing store) =
      some (TradeP2P.AccountStore.create username given store.forLogin) := by
  have there : (store.forLogin.accounts username).isSome = (store.accounts username).isSome := Option.isSome_map
  rw [AccountStore.create, made]
  simp only [Methods.getThen, Methods.ifThen, TradeP2P.AccountStore.create, Methods.checkThen, there]
  split
  · rfl
  · cases writing with
    | crashes count => cases goesOn
    | unopened =>
      obtain rfl := Option.some.inj goesOn
      rfl
    | opened count =>
      obtain rfl := Option.some.inj goesOn
      have updated := updatedForLogin store.accounts username account (AccountStore.written account count store).file
      rw [(createdFields made).2.2] at updated
      exact congrArg (fun left => some (EStateM.Result.ok () left)) updated

theorem setSeen {username : Bytes} {key : EnrolledLoginKey} (goesOn : writing.appended = some given) :
    seen (AccountStore.setLoginKey username key writing store) =
      some (TradeP2P.AccountStore.setLoginKey username key given store.forLogin) := by
  have there : (store.forLogin.accounts username).isNone = (store.accounts username).isNone := Option.isNone_map
  simp only [AccountStore.setLoginKey, Methods.getThen, TradeP2P.AccountStore.setLoginKey, Methods.checkThen, there]
  cases found : store.accounts username with
  | none => rfl
  | some account =>
    cases writing with
    | crashes count => cases goesOn
    | unopened =>
      obtain rfl := Option.some.inj goesOn
      exact congrArg (fun left => some (EStateM.Result.error _ left)) (updatedForLogin store.accounts username _ store.file)
    | opened count =>
      obtain rfl := Option.some.inj goesOn
      exact congrArg (fun left => some (EStateM.Result.ok () left)) (updatedForLogin store.accounts username _ _)

end Logins
end TradeP2P.AccountFile
