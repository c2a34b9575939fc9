import TradeP2P.Identity.KeyLogin

/-! What the answers to key logins tell about accounts. Requests are served one after the other, and the same requests
are compared for two stores that differ in one name. -/
namespace TradeP2P
open Wire (Bytes ascii)
open Checks Machine

def KeyTask.logsIn : KeyTask → Bool
  | .answered response => response.logsIn
  | _ => false

-- How many steps a thread is from its answer at most.
def KeyTask.need : KeyTask → Nat
  | .asked _ => 6
  | .looking _ => 5
  | .taking _ _ => 4
  | .fetching _ _ => 3
  | .succeeding _ | .enrolled _ => 2
  | .failing _ | .admitting _ | .issuing _ _ => 1
  | .answered _ => 0

namespace KeyLogin

/-! Requests that are served alone. -/
section Serving
variable (crypto : Crypto) (serverIdentity : Bytes)

def alone (envs : Nat → WebEnv) : Nat → KeyTask → WebState → KeyTask × WebState
  | 0, task, s => (task, s)
  | k + 1, task, s =>
      let moved := task.step crypto serverIdentity (envs k) s
      alone envs k moved.1 moved.2

structure Asked where
  request : KeyRequest
  envs : Nat → WebEnv

-- No request takes more than six steps.
def serve (asked : Asked) (s : WebState) : KeyTask × WebState := alone crypto serverIdentity asked.envs 6 (.asked asked.request) s

def served : WebState → List Asked → List KeyTask
  | _, [] => []
  | s, asked :: later => (serve crypto serverIdentity asked s).1 :: served (serve crypto serverIdentity asked s).2 later

end Serving

def Unsuccessful (tasks : List KeyTask) : Prop := ∀ task ∈ tasks, task.logsIn = false

/- Every challenge a server has out is its own. -/
def Own (serverIdentity : Bytes) (tracker : LoginChallengeTracker) : Prop :=
  ∀ fields ∈ tracker.outstanding, fields.serviceId = loginServiceId ∧ fields.serverIdentity = serverIdentity

def Hides (crypto : Crypto) (serverIdentity : Bytes) (one other : AccountStore) : Prop :=
  ∀ tracker limiter requests, Own serverIdentity tracker →
    Unsuccessful (served crypto serverIdentity ⟨tracker, one, limiter⟩ requests) →
    Unsuccessful (served crypto serverIdentity ⟨tracker, other, limiter⟩ requests) →
    served crypto serverIdentity ⟨tracker, one, limiter⟩ requests = served crypto serverIdentity ⟨tracker, other, limiter⟩ requests

def Fits (serverIdentity username : Bytes) : Prop :=
  serverIdentity.length ≤ loginMaxFieldLength ∧ username.length ≤ loginMaxFieldLength

/-! Every request is answered. -/
section Needs
variable {crypto : Crypto} {serverIdentity : Bytes} {env : WebEnv} {s : WebState}

theorem stepNeeds (task : KeyTask) : (task.step crypto serverIdentity env s).1.need ≤ task.need - 1 := by
  have moved := moves crypto serverIdentity env task s
  generalize (task.step crypto serverIdentity env s).1 = next at moved ⊢
  generalize (task.step crypto serverIdentity env s).2 = t at moved
  cases moved with
  | begun request _ limiter begun => cases begun <;> simp [KeyTask.need]
  | _ => simp [KeyTask.need]

theorem aloneAnswers (envs : Nat → WebEnv) {k : Nat} {task : KeyTask} (enough : task.need ≤ k) :
    (alone crypto serverIdentity envs k task s).1.need = 0 := by
  induction k generalizing task s with
  | zero => exact Nat.le_zero.mp enough
  | succ k ih => exact ih ((stepNeeds task).trans (by omega))

theorem answeredOf {task : KeyTask} (done : task.need = 0) : ∃ response, task = .answered response := by
  cases task with
  | answered response => exact ⟨response, rfl⟩
  | _ => cases done

theorem servesAnswer (asked : Asked) (s : WebState) : ∃ response, (serve crypto serverIdentity asked s).1 = .answered response :=
  answeredOf (aloneAnswers asked.envs (Nat.le_refl 6))

end Needs

/-! What a signature is judged to be under two keys of one suite, or under a key and none. -/
section Judging
variable {crypto : Crypto} {serverIdentity : Bytes} {challenge : LoginChallengeFields} {signature : Bytes}

theorem payloadFits (service : challenge.serviceId.length ≤ loginMaxFieldLength)
    (identity : challenge.serverIdentity.length ≤ loginMaxFieldLength) (user : challenge.username.length ≤ loginMaxFieldLength) :
    ∃ payload, encodeLoginChallengeSignedPayload challenge = .ok payload := by
  have short : loginMaxFieldLength ≤ 65535 := by decide
  have label : loginChallengeDomainLabel.length ≤ 65535 := by decide
  simp only [encodeLoginChallengeSignedPayload, bind_ok, pure_ok, throwIf_ok, Wire.lengthPrefixedOk]
  exact ⟨_, (), by omega, _, ⟨Nat.le_refl _, label, rfl⟩, _, ⟨service, service.trans short, rfl⟩, _, ⟨identity, identity.trans short, rfl⟩,
    _, ⟨user, user.trans short, rfl⟩, rfl⟩

theorem payloadUnfit (unfit : challenge.serverIdentity.length > loginMaxFieldLength ∨ challenge.username.length > loginMaxFieldLength) :
    encodeLoginChallengeSignedPayload challenge = .error (.invalidArgument "login challenge field exceeds maximum length") := by
  have hit : challenge.serviceId.length > loginMaxFieldLength ∨ challenge.serverIdentity.length > loginMaxFieldLength ∨
      challenge.username.length > loginMaxFieldLength := .inr unfit
  rw [encodeLoginChallengeSignedPayload, throwIf_bad hit]
  rfl

theorem loginThrows {Seed Key Signature : Type} (scheme : SignatureScheme Seed Key Signature) (key : Key) (signature : Signature)
    {e : Error} (unencoded : encodeLoginChallengeSignedPayload challenge = .error e) :
    (SignedObject.login challenge).verify scheme key signature = .error e := by
  show (encodeLoginChallengeSignedPayload challenge >>= _) = _
  rw [unencoded]
  rfl

theorem verifyDecides (ed25519 : crypto.ed25519.Decides) (mldsa65 : crypto.mldsa65.Decides) (key : EnrolledLoginKey) {payload : Bytes}
    (encoded : encodeLoginChallengeSignedPayload challenge = .ok payload) : ∃ verdict, key.verify crypto challenge signature = .ok verdict := by
  unfold EnrolledLoginKey.verify
  split
  · obtain ⟨verdict, decided⟩ := ed25519 (copied 32 key.bytes) payload (copied 64 signature)
    exact ⟨verdict, bind_ok.mpr ⟨payload, encoded, decided⟩⟩
  · split
    · obtain ⟨verdict, decided⟩ := mldsa65 (copied 1952 key.bytes) payload (copied 3309 signature)
      exact ⟨verdict, bind_ok.mpr ⟨payload, encoded, decided⟩⟩
    · exact ⟨false, rfl⟩

theorem verifyThrows (key : EnrolledLoginKey) {e : Error} (unencoded : encodeLoginChallengeSignedPayload challenge = .error e) :
    key.verify crypto challenge signature =
      if key.suiteId = loginSuiteEd25519V1 ∨ key.suiteId = loginSuiteMlDsa65V1 then .error e else .ok false := by
  unfold EnrolledLoginKey.verify verifyLoginResponse verifyLoginResponseMldsa65
  by_cases first : key.suiteId = loginSuiteEd25519V1
  · rw [if_pos first, if_pos (.inl first), loginThrows _ _ _ unencoded]
  · by_cases second : key.suiteId = loginSuiteMlDsa65V1
    · rw [if_neg first, if_pos second, if_pos (.inr second), loginThrows _ _ _ unencoded]
    · rw [if_neg first, if_neg second, if_neg (not_or.mpr ⟨first, second⟩)]
      rfl

variable {username : Bytes} {one other : Option EnrolledLoginKey} {attempt : Attempt} {found : Option LoginChallengeFields}

/- As far as key logins tell, two accounts of a name are the same. -/
structure SameShape (serverIdentity username : Bytes) (one other : Option EnrolledLoginKey) : Prop where
  suite : suiteOf one = suiteOf other
  keys : one.isSome = other.isSome ∨ Fits serverIdentity username

/- A key that fits the challenge decides, and no key is a refusal. -/
theorem judgeAgainstNone (ed25519 : crypto.ed25519.Decides) (mldsa65 : crypto.mldsa65.Decides) {key : EnrolledLoginKey}
    (own : ∀ fields, found = some fields → fields.serviceId = loginServiceId ∧ fields.serverIdentity = serverIdentity)
    (fits : Fits serverIdentity attempt.username) :
    judge crypto attempt found (some key) = .ok false ∨ judge crypto attempt found (some key) = .ok true := by
  unfold judge
  split
  · cases found with
    | none => exact .inl rfl
    | some fields =>
        obtain ⟨service, identity⟩ := own fields rfl
        dsimp only
        split
        · rename_i matching
          have short : fields.serviceId.length ≤ loginMaxFieldLength := by rw [service]; decide
          obtain ⟨payload, encoded⟩ := payloadFits short (identity ▸ fits.1) (matching.1 ▸ fits.2)
          obtain ⟨verdict, decided⟩ := verifyDecides ed25519 mldsa65 key encoded
          rw [decided]
          cases verdict with
          | false => exact .inl rfl
          | true => exact .inr rfl
        · exact .inl rfl
  · exact .inl rfl

theorem judgeNone : judge crypto attempt found none = .ok false := by
  unfold judge
  split
  · cases found <;> rfl
  · rfl

theorem judgeKeys (ed25519 : crypto.ed25519.Decides) (mldsa65 : crypto.mldsa65.Decides) {key key' : EnrolledLoginKey}
    (suite : key.suiteId = key'.suiteId) :
    judge crypto attempt found (some key) = judge crypto attempt found (some key') ∨
      judge crypto attempt found (some key) = .ok true ∨ judge crypto attempt found (some key') = .ok true := by
  have same : suiteOf (some key) = suiteOf (some key') := suite
  unfold judge
  rw [same]
  split
  · cases found with
    | none => exact .inl rfl
    | some fields =>
        dsimp only
        rw [suite]
        split
        · cases encoded : encodeLoginChallengeSignedPayload fields with
          | error e => exact .inl (by rw [verifyThrows key encoded, verifyThrows key' encoded, suite])
          | ok payload =>
              obtain ⟨verdict, decided⟩ := @verifyDecides _ _ attempt.signature ed25519 mldsa65 key _ encoded
              obtain ⟨verdict', decided'⟩ := @verifyDecides _ _ attempt.signature ed25519 mldsa65 key' _ encoded
              rw [decided, decided']
              cases verdict <;> cases verdict' <;> simp
        · exact .inl rfl
  · exact .inl rfl

theorem judgeAlike (ed25519 : crypto.ed25519.Decides) (mldsa65 : crypto.mldsa65.Decides)
    (own : ∀ fields, found = some fields → fields.serviceId = loginServiceId ∧ fields.serverIdentity = serverIdentity)
    (shape : SameShape serverIdentity attempt.username one other) :
    judge crypto attempt found one = judge crypto attempt found other ∨
      judge crypto attempt found one = .ok true ∨ judge crypto attempt found other = .ok true := by
  cases one with
  | none =>
      cases other with
      | none => exact .inl rfl
      | some key =>
          have fits := shape.keys.resolve_left (by simp)
          rw [judgeNone]
          exact (judgeAgainstNone ed25519 mldsa65 own fits).imp Eq.symm Or.inr
  | some key =>
      cases other with
      | none =>
          have fits := shape.keys.resolve_left (by simp)
          rw [judgeNone]
          exact (judgeAgainstNone ed25519 mldsa65 own fits).imp (fun same => same) Or.inl
      | some key' => exact judgeKeys ed25519 mldsa65 shape.suite

end Judging

/-! One request in two runs. -/
section Alike
variable {crypto : Crypto} {serverIdentity : Bytes} {env : WebEnv} {s : WebState} {one other : AccountStore} {task : KeyTask}

def under (accounts : AccountStore) (s : WebState) : WebState := { s with accounts }

def OwnFields (serverIdentity : Bytes) (fields : LoginChallengeFields) : Prop :=
  fields.serviceId = loginServiceId ∧ fields.serverIdentity = serverIdentity

-- A challenge that a thread carries is the server's own.
def Carries (serverIdentity : Bytes) : KeyTask → Prop
  | .taking _ challenge | .fetching _ challenge => ∀ fields, challenge = some fields → OwnFields serverIdentity fields
  | _ => True

theorem throttledUnder (username : Bytes) (next : Except Error KeyTask) : throttled env username next (under other s) =
    match throttled env username next s with
    | .ok task t => .ok task (under other t)
    | .error e t => .error e (under other t) := by
  simp only [throttled, bind_run, modify_run, get_run, lift_run, under]
  cases throwIf ((!AuthRateLimiter.allowed (s.limiter.prune env.steady username) username) = true) tooMany with
  | error e => rfl
  | ok u => cases next <;> rfl

theorem startUnder (request : KeyRequest) : start env request (under other s) =
    match start env request s with
    | .ok task t => .ok task (under other t)
    | .error e t => .error e (under other t) := by
  cases request with
  | challenge admitted username =>
      cases admitted with
      | false => rfl
      | true =>
          simp only [start, if_true, bind_run, lift_run]
          cases requiredParam "username" username with
          | error e => rfl
          | ok name => exact throttledUnder name _
  | verify admitted username sessionId signature =>
      cases admitted with
      | false => rfl
      | true =>
          simp only [start, if_true, bind_run, lift_run]
          cases requiredParam "username" username with
          | error e => rfl
          | ok name =>
              cases requiredParam "session_id" sessionId with
              | error e => rfl
              | ok sessionIdHex =>
                  cases requiredParam "signature" signature with
                  | error e => rfl
                  | ok signatureHex => exact throttledUnder name _

theorem accountsStay (task : KeyTask) : (task.step crypto serverIdentity env s).2.accounts = s.accounts := by
  have moved := moves crypto serverIdentity env task s
  generalize (task.step crypto serverIdentity env s).1 = next at moved
  generalize (task.step crypto serverIdentity env s).2 = t at moved ⊢
  cases moved <;> rfl

theorem ownStays (own : Own serverIdentity s.tracker) (carries : Carries serverIdentity task) :
    Own serverIdentity (task.step crypto serverIdentity env s).2.tracker ∧ Carries serverIdentity (task.step crypto serverIdentity env s).1 := by
  have moved := moves crypto serverIdentity env task s
  generalize (task.step crypto serverIdentity env s).1 = next at moved ⊢
  generalize (task.step crypto serverIdentity env s).2 = t at moved ⊢
  cases moved with
  | begun request _ limiter begun => exact ⟨own, by cases begun <;> exact True.intro⟩
  | issued username suiteId fields user suite service identity =>
      refine ⟨fun other mem => ?_, True.intro⟩
      rcases List.mem_append.mp mem with old | new
      · exact own other old
      · rw [List.mem_singleton.mp new]
        exact ⟨service, identity⟩
  | looked attempt =>
      refine ⟨own, fun fields found => ?_⟩
      unfold LoginChallengeTracker.peek at found
      split at found
      · cases found
      · rename_i inside
        split at found
        · cases found
        · obtain rfl := Option.some.inj found
          exact own _ (List.mem_of_find?_eq_some inside)
  | took attempt challenge => exact ⟨fun fields mem => own fields (List.mem_of_mem_filter mem), carries⟩
  | _ => exact ⟨own, True.intro⟩

/- A step reads the accounts in two places only. -/
theorem stepUnder (enrolled : ∀ username, task ≠ .enrolled username) (fetching : ∀ attempt challenge, task ≠ .fetching attempt challenge) :
    task.step crypto serverIdentity env (under other s) =
      ((task.step crypto serverIdentity env s).1, under other (task.step crypto serverIdentity env s).2) := by
  cases task with
  | asked request =>
      simp only [KeyTask.step, KeyTask.run, startUnder]
      cases start env request s <;> rfl
  | issuing username suiteId =>
      have same : (under other s).tracker = s.tracker := rfl
      simp only [KeyTask.step, KeyTask.run, bind_run, get_run, same]
      cases LoginChallengeTracker.issue env.toLoginEnv loginServiceId serverIdentity username 0 suiteId s.tracker <;> rfl
  | enrolled username => exact absurd rfl (enrolled username)
  | fetching attempt challenge => exact absurd rfl (fetching attempt challenge)
  | _ => rfl

def judged (attempt : Attempt) : Except Error Bool → KeyTask
  | .ok true => .succeeding attempt.username
  | .ok false => .failing attempt.username
  | .error e => .answered (.failed e.text)

theorem fetchStep (attempt : Attempt) (challenge : Option LoginChallengeFields) :
    (KeyTask.fetching attempt challenge).step crypto serverIdentity env s =
      (judged attempt (judge crypto attempt challenge (s.accounts.loginKey attempt.username)), s) := by
  simp only [KeyTask.step, KeyTask.run, bind_run, get_run, lift_run]
  cases judge crypto attempt challenge (s.accounts.loginKey attempt.username) with
  | error e => rfl
  | ok ok => cases ok <;> rfl

theorem answeredStays (envs : Nat → WebEnv) (k : Nat) (response : KeyResponse) :
    alone crypto serverIdentity envs k (.answered response) s = (.answered response, s) := by
  induction k with
  | zero => rfl
  | succ k ih => exact ih

theorem succeedsIn (envs : Nat → WebEnv) {k : Nat} (enough : 2 ≤ k) (username : Bytes) :
    (alone crypto serverIdentity envs k (.succeeding username) s).1.logsIn = true := by
  obtain ⟨j, rfl⟩ := Nat.exists_eq_add_of_le' enough
  have last : alone crypto serverIdentity envs (j + 2) (.succeeding username) s =
      alone crypto serverIdentity envs j (.answered (.authenticated (envs j).session))
        { s with limiter := s.limiter.recordSuccess username } := rfl
  rw [last, answeredStays]
  rfl

/- Stores of accounts that look the same. -/
def Shapes (serverIdentity : Bytes) (one other : AccountStore) : Prop :=
  ∀ username, SameShape serverIdentity username (one.loginKey username) (other.loginKey username)

theorem aloneAlike (ed25519 : crypto.ed25519.Decides) (mldsa65 : crypto.mldsa65.Decides) (shapes : Shapes serverIdentity one other)
    (envs : Nat → WebEnv) {k : Nat} (enough : task.need ≤ k) (accounts : s.accounts = one) (own : Own serverIdentity s.tracker)
    (carries : Carries serverIdentity task) (fails : (alone crypto serverIdentity envs k task s).1.logsIn = false)
    (fails' : (alone crypto serverIdentity envs k task (under other s)).1.logsIn = false) :
    alone crypto serverIdentity envs k task (under other s) =
      ((alone crypto serverIdentity envs k task s).1, under other (alone crypto serverIdentity envs k task s).2) ∧
    (alone crypto serverIdentity envs k task s).2.accounts = one ∧ Own serverIdentity (alone crypto serverIdentity envs k task s).2.tracker := by
  induction k generalizing task s with
  | zero => exact ⟨rfl, accounts, own⟩
  | succ k ih =>
      have same : task.step crypto serverIdentity (envs k) (under other s) =
          ((task.step crypto serverIdentity (envs k) s).1, under other (task.step crypto serverIdentity (envs k) s).2) := by
        cases task with
        | enrolled username =>
            have suite := (shapes username).suite
            rw [← accounts] at suite
            show ((.issuing username (suiteOf (other.loginKey username)), under other s) : KeyTask × WebState) = _
            rw [← suite]
            rfl
        | fetching attempt challenge =>
            have enough : 2 ≤ k := Nat.le_of_succ_le_succ enough
            have shape := shapes attempt.username
            rw [← accounts] at shape
            rcases judgeAlike ed25519 mldsa65 carries shape with alike | yes | yes
            · rw [fetchStep, fetchStep, alike]
              rfl
            · simp only [alone, fetchStep, yes, judged] at fails
              rw [succeedsIn envs enough] at fails
              cases fails
            · have yes : judge crypto attempt challenge ((under other s).accounts.loginKey attempt.username) = .ok true := yes
              simp only [alone, fetchStep, yes, judged] at fails'
              rw [succeedsIn envs enough] at fails'
              cases fails'
        | _ => exact stepUnder (by simp) (by simp)
      obtain ⟨own, carries⟩ := @ownStays crypto serverIdentity (envs k) s task own carries
      have less := @stepNeeds crypto serverIdentity (envs k) s task
      simp only [alone, same] at fails fails' ⊢
      exact ih (by omega) ((accountsStay task).trans accounts) own carries fails fails'

end Alike

/-! Runs of requests. -/
section Requests
variable {crypto : Crypto} {serverIdentity : Bytes} {one other : AccountStore} {s : WebState}

theorem servedAlike (ed25519 : crypto.ed25519.Decides) (mldsa65 : crypto.mldsa65.Decides) (shapes : Shapes serverIdentity one other)
    {requests : List Asked} (accounts : s.accounts = one) (own : Own serverIdentity s.tracker)
    (fails : Unsuccessful (served crypto serverIdentity s requests))
    (fails' : Unsuccessful (served crypto serverIdentity (under other s) requests)) :
    served crypto serverIdentity s requests = served crypto serverIdentity (under other s) requests := by
  induction requests generalizing s with
  | nil => rfl
  | cons asked later ih =>
      simp only [served, Unsuccessful, List.forall_mem_cons] at fails fails' ⊢
      obtain ⟨same, accounts, own⟩ := aloneAlike ed25519 mldsa65 shapes asked.envs (Nat.le_refl 6) accounts own
        (show Carries serverIdentity (.asked asked.request) from True.intro) fails.1 fails'.1
      simp only [serve, same] at fails fails' ⊢
      rw [ih accounts own fails.2 fails'.2]

end Requests

/-! Requests that tell accounts apart. -/
section Telling

theorem trimmedSame {text : Bytes} (solid : ∀ c ∈ text, isBlank c = false) : trimmed text = text := by
  have same : ∀ {l : Bytes}, (∀ c ∈ l, isBlank c = false) → l.dropWhile isBlank = l := by
    intro l solid
    cases l with
    | nil => rfl
    | cons c rest => rw [List.dropWhile_cons, solid c List.mem_cons_self]; rfl
  rw [trimmed, same solid, same fun c mem => solid c (List.mem_reverse.mp mem), List.reverse_reverse]

theorem hexByteRead (byte : UInt8) : (∀ c ∈ Credential.hexByte byte, isBlank c = false) ∧
    ∀ rest, hexBytes (Credential.hexByte byte ++ rest) = (hexBytes rest).map (byte :: ·) := by
  have all : ∀ k : Fin 256, isBlank (Credential.hexDigit ((UInt8.ofFin k).toNat / 16)) = false ∧
      isBlank (Credential.hexDigit ((UInt8.ofFin k).toNat % 16)) = false ∧
      (do return 16 * (← hexValue (Credential.hexDigit ((UInt8.ofFin k).toNat / 16))) +
        (← hexValue (Credential.hexDigit ((UInt8.ofFin k).toNat % 16)))) = some (UInt8.ofFin k) := by
    decide +kernel
  obtain ⟨high, low, joined⟩ := all byte.toFin
  have whole : UInt8.ofFin byte.toFin = byte := rfl
  rw [whole] at high low joined
  refine ⟨by simp [Credential.hexByte, high, low], fun rest => ?_⟩
  simp only [Option.bind_eq_bind, Option.bind_eq_some_iff, Option.pure_def, Option.some.injEq] at joined
  obtain ⟨hi, first, lo, second, rfl⟩ := joined
  rw [Credential.hexByte, List.cons_append, List.cons_append, List.nil_append, hexBytes, first, second]
  cases hexBytes rest <;> rfl

theorem hexSolid {bytes : Bytes} {c : UInt8} (mem : c ∈ toHex bytes) : isBlank c = false := by
  obtain ⟨byte, _, inside⟩ := List.mem_flatMap.mp mem
  exact (hexByteRead byte).1 c inside

theorem hexBytesBack (bytes : Bytes) : hexBytes (toHex bytes) = some bytes := by
  induction bytes with
  | nil => rfl
  | cons byte rest ih =>
    rw [toHex, List.flatMap_cons, (hexByteRead byte).2, ← toHex, ih]
    rfl

theorem hexRoundTrip (bytes : Bytes) : fromHex (toHex bytes) = .ok bytes := by
  have solid : ∀ c ∈ toHex bytes, isBlank c = false := fun c mem => hexSolid mem
  rw [fromHex, trimmedSame solid, hexBytesBack]

variable {crypto : Crypto} {serverIdentity username : Bytes} {store : AccountStore}

def askEnv : WebEnv where
  nowUnixSeconds := 1000
  sessionId := .ok (Vector.replicate 16 0)
  nonce := .ok (Vector.replicate 32 0)
  steady := 0
  steadyThen := 0
  session := .error (.runtimeError "this web client is at capacity, please try again shortly")

def askChallenge (username : Bytes) : Asked := ⟨.challenge true (some username), fun _ => askEnv⟩

def blindSignature : Bytes := List.replicate (expectedLoginSignatureLength loginSuiteMlDsa65V1) 0

def askVerify (username : Bytes) : Asked :=
  ⟨.verify true (some username) (some (toHex (List.replicate 16 0))) (some (toHex blindSignature)), fun _ => askEnv⟩

def firstChallenge (serverIdentity username : Bytes) (suiteId : UInt16) : LoginChallengeFields where
  suiteId := suiteId
  serviceId := loginServiceId
  serverIdentity := serverIdentity
  username := username
  sessionId := Vector.replicate 16 0
  nonce := Vector.replicate 32 0
  createdAt := 1000
  expiresAt := 1000 + loginChallengeTtlSeconds

theorem requiredSome (name : String) {value : Bytes} (some_ : value ≠ []) : requiredParam name (some value) = .ok value := by
  cases value with
  | nil => exact absurd rfl some_
  | cons c rest => rfl

theorem pruneFresh (now : Int) : ({} : AuthRateLimiter).prune now username = {} := by
  simp only [AuthRateLimiter.prune, List.filter_nil]
  rw [Function.update_eq_self_iff.mpr rfl]

theorem admitFresh (next : Except Error KeyTask) (tracker : LoginChallengeTracker) :
    throttled askEnv username next ⟨tracker, store, {}⟩ =
      match next with
      | .ok task => .ok task ⟨tracker, store, {}⟩
      | .error e => .error e ⟨tracker, store, {}⟩ := by
  have none : ({} : AuthRateLimiter).allowed username = true := rfl
  have allowed : throwIf ((!({} : AuthRateLimiter).allowed username) = true) tooMany = .ok () := throwIf_not (by simp [none])
  simp only [throttled, bind_run, modify_run, get_run, lift_run, pruneFresh, allowed]
  cases next <;> rfl

theorem challengeServed (some_ : username ≠ []) : serve crypto serverIdentity (askChallenge username) { accounts := store } =
    (.answered (.challenge (challengeJson (firstChallenge serverIdentity username (suiteOf (store.loginKey username))))),
      { tracker := ⟨[firstChallenge serverIdentity username (suiteOf (store.loginKey username))]⟩, accounts := store }) := by
  have begins : (KeyTask.asked (askChallenge username).request).step crypto serverIdentity askEnv { accounts := store } =
      (.enrolled username, { accounts := store }) := by
    simp only [KeyTask.step, KeyTask.run, askChallenge, start, if_true, bind_run, lift_run, requiredSome _ some_, admitFresh]
    rfl
  have issues : ∀ suiteId, (KeyTask.issuing username suiteId).step crypto serverIdentity askEnv { accounts := store } =
      (.answered (.challenge (challengeJson (firstChallenge serverIdentity username suiteId))),
        { tracker := ⟨[firstChallenge serverIdentity username suiteId]⟩, accounts := store }) := fun _ => rfl
  have goes : serve crypto serverIdentity (askChallenge username) { accounts := store } =
      alone crypto serverIdentity (fun _ => askEnv) 4
        ((KeyTask.enrolled username).step crypto serverIdentity askEnv { accounts := store }).1 { accounts := store } := by
    rw [serve, alone]
    simp only [askChallenge] at begins ⊢
    rw [begins]
    rfl
  rw [goes]
  show alone crypto serverIdentity (fun _ => askEnv) 4 (.issuing username (suiteOf (store.loginKey username))) _ = _
  rw [alone, issues]
  exact answeredStays _ _ _

theorem blindSome : blindSignature ≠ [] := by
  have long : blindSignature.length = 3309 := List.length_replicate
  intro none
  rw [none] at long
  cases long

theorem toHexSome {bytes : Bytes} (some_ : bytes ≠ []) : toHex bytes ≠ [] := by
  cases bytes with
  | nil => exact absurd rfl some_
  | cons byte rest => simp [toHex, Credential.hexByte]

theorem attemptedBlind : attempted username (toHex (List.replicate 16 0)) (toHex blindSignature) =
    .ok (.looking ⟨username, Vector.replicate 16 0, blindSignature⟩) := by
  have session : copied 16 (List.replicate 16 0) = Vector.replicate 16 0 := by decide
  refine bind_ok.mpr ⟨_, hexRoundTrip _, bind_ok.mpr ⟨_, hexRoundTrip _, ?_⟩⟩
  rw [if_pos List.length_replicate, session]
  rfl

def verdict : Except Error Bool → KeyTask
  | .ok true => .answered (.authenticated askEnv.session)
  | .ok false => .answered (.failed "invalid login")
  | .error e => .answered (.failed e.text)

theorem verifyServed (some_ : username ≠ []) {fields : LoginChallengeFields} (session : fields.sessionId = Vector.replicate 16 0)
    (early : fields.expiresAt = 1000 + loginChallengeTtlSeconds) :
    (serve crypto serverIdentity (askVerify username) { tracker := ⟨[fields]⟩, accounts := store }).1 =
      verdict (judge crypto ⟨username, Vector.replicate 16 0, blindSignature⟩ (some fields) (store.loginKey username)) := by
  have begins : (KeyTask.asked (askVerify username).request).step crypto serverIdentity askEnv { tracker := ⟨[fields]⟩, accounts := store } =
      (.looking ⟨username, Vector.replicate 16 0, blindSignature⟩, { tracker := ⟨[fields]⟩, accounts := store }) := by
    have session : toHex (List.replicate 16 0) ≠ [] := by decide
    simp only [KeyTask.step, KeyTask.run, askVerify, start, if_true, bind_run, lift_run, requiredSome _ some_, requiredSome _ session,
      requiredSome _ (toHexSome blindSome), admitFresh, attemptedBlind]
  have looks : (KeyTask.looking ⟨username, Vector.replicate 16 0, blindSignature⟩).step crypto serverIdentity askEnv
      { tracker := ⟨[fields]⟩, accounts := store } =
      (.taking ⟨username, Vector.replicate 16 0, blindSignature⟩ (some fields), { tracker := ⟨[fields]⟩, accounts := store }) := by
    have peeked : LoginChallengeTracker.peek askEnv.toLoginEnv ⟨[fields]⟩ (Vector.replicate 16 0) 0 = some fields := by
      have fresh : ¬askEnv.toLoginEnv.orNow 0 > fields.expiresAt := by
        rw [early]
        decide
      simp [LoginChallengeTracker.peek, LoginChallengeTracker.isSession, session, fresh]
    show ((.taking _ (LoginChallengeTracker.peek askEnv.toLoginEnv ⟨[fields]⟩ (Vector.replicate 16 0) 0), _) : KeyTask × WebState) = _
    rw [peeked]
  have takes : (KeyTask.taking ⟨username, Vector.replicate 16 0, blindSignature⟩ (some fields)).step crypto serverIdentity askEnv
      { tracker := ⟨[fields]⟩, accounts := store } = (.fetching ⟨username, Vector.replicate 16 0, blindSignature⟩ (some fields),
        { tracker := LoginChallengeTracker.consume ⟨[fields]⟩ (Vector.replicate 16 0), accounts := store }) := rfl
  simp only [askVerify] at begins
  simp only [serve, askVerify, alone, begins, looks, takes, fetchStep]
  cases judge crypto ⟨username, Vector.replicate 16 0, blindSignature⟩ (some fields) (store.loginKey username) with
  | error e => rfl
  | ok ok => cases ok <;> rfl

theorem bothServed (some_ : username ≠ []) : served crypto serverIdentity { accounts := store } [askChallenge username, askVerify username] =
    [.answered (.challenge (challengeJson (firstChallenge serverIdentity username (suiteOf (store.loginKey username))))),
      verdict (judge crypto ⟨username, Vector.replicate 16 0, blindSignature⟩
        (some (firstChallenge serverIdentity username (suiteOf (store.loginKey username)))) (store.loginKey username))] := by
  have verified := @verifyServed crypto serverIdentity username store some_
    (firstChallenge serverIdentity username (suiteOf (store.loginKey username))) rfl rfl
  simp only [served, challengeServed some_, verified]

/- Accounts of other suites are told apart by a challenge. -/
theorem suitesTold {one other : AccountStore} (some_ : username ≠ [])
    (apart : suiteOf (one.loginKey username) ≠ suiteOf (other.loginKey username)) : ¬Hides crypto serverIdentity one other := by
  intro hides
  have served_ : ∀ store : AccountStore, served crypto serverIdentity ⟨{}, store, {}⟩ [askChallenge username] =
      [.answered (.challenge (challengeJson (firstChallenge serverIdentity username (suiteOf (store.loginKey username)))))] := by
    intro store
    simp only [served, challengeServed some_]
  have fails : ∀ store : AccountStore, Unsuccessful (served crypto serverIdentity ⟨{}, store, {}⟩ [askChallenge username]) := by
    intro store task mem
    rw [served_ store] at mem
    rw [List.mem_singleton.mp mem]
    rfl
  have same := hides {} {} [askChallenge username] (by simp [Own]) (fails one) (fails other)
  rw [served_, served_] at same
  simp only [List.cons.injEq, KeyTask.answered.injEq, KeyResponse.challenge.injEq, challengeJson, firstChallenge,
    ChallengeJson.mk.injEq, and_true, true_and] at same
  exact apart same.1

/- Where the names are too long to be signed, an account with a key is told from one without by a verification. -/
theorem keyTold {one other : AccountStore} (some_ : username ≠ []) {key : EnrolledLoginKey} (enrolled : one.loginKey username = some key)
    (none_ : other.loginKey username = none) (suite : key.suiteId = loginSuiteMlDsa65V1) (unfit : ¬Fits serverIdentity username) :
    ∃ requests, Unsuccessful (served crypto serverIdentity ⟨{}, one, {}⟩ requests) ∧
      Unsuccessful (served crypto serverIdentity ⟨{}, other, {}⟩ requests) ∧
      served crypto serverIdentity ⟨{}, one, {}⟩ requests ≠ served crypto serverIdentity ⟨{}, other, {}⟩ requests := by
  have suite_ : suiteOf (some key) = loginSuiteMlDsa65V1 := suite
  have blindLong : blindSignature.length = expectedLoginSignatureLength loginSuiteMlDsa65V1 := List.length_replicate
  have judgedOne : judge crypto ⟨username, Vector.replicate 16 0, blindSignature⟩ (some (firstChallenge serverIdentity username
      (suiteOf (one.loginKey username)))) (one.loginKey username) =
        .error (.invalidArgument "login challenge field exceeds maximum length") := by
    have payload := @payloadUnfit (firstChallenge serverIdentity username loginSuiteMlDsa65V1) (by
      unfold Fits at unfit
      rw [not_and_or, Nat.not_le, Nat.not_le] at unfit
      exact unfit)
    rw [enrolled, judge, suite_, if_pos blindLong]
    dsimp only
    rw [if_pos ⟨rfl, suite.symm⟩, verifyThrows key payload, if_pos (.inr suite)]
  have servedOne := @bothServed crypto serverIdentity username one some_
  have servedOther := @bothServed crypto serverIdentity username other some_
  rw [judgedOne] at servedOne
  rw [none_, judgeNone] at servedOther
  refine ⟨[askChallenge username, askVerify username], ?_, ?_, ?_⟩
  · rw [servedOne]
    simp [Unsuccessful, verdict, KeyTask.logsIn, KeyResponse.logsIn]
  · rw [servedOther]
    simp [Unsuccessful, verdict, KeyTask.logsIn, KeyResponse.logsIn]
  · rw [servedOne, servedOther]
    simp [verdict, Error.text]

end Telling

theorem SameShape.ofSame {serverIdentity username : Bytes} {one other : Option EnrolledLoginKey} (same : one = other) :
    SameShape serverIdentity username one other := ⟨by rw [same], .inl (by rw [same])⟩

/- Two stores that differ in one name give the same answers to whoever does not log in, just when its accounts are of one
suite and, as long as names are not too long to be signed, whether there is a key or not. -/
theorem accountsHidden {crypto : Crypto} {serverIdentity username : Bytes} {one other : AccountStore} (ed25519 : crypto.ed25519.Decides)
    (mldsa65 : crypto.mldsa65.Decides) (named : username ≠ [])
    (others : ∀ name, name ≠ username → one.accounts name = other.accounts name) :
    Hides crypto serverIdentity one other ↔ suiteOf (one.loginKey username) = suiteOf (other.loginKey username) ∧
      ((one.loginKey username).isSome = (other.loginKey username).isSome ∨ Fits serverIdentity username) := by
  constructor
  · intro hides
    have suite : suiteOf (one.loginKey username) = suiteOf (other.loginKey username) := by
      by_contra apart
      exact suitesTold named apart hides
    refine ⟨suite, ?_⟩
    by_contra told
    obtain ⟨keys, unfit⟩ := not_or.mp told
    cases first : one.loginKey username with
    | none =>
        cases second : other.loginKey username with
        | none => simp [first, second] at keys
        | some key =>
            rw [first, second] at suite
            obtain ⟨requests, fails, fails', differ⟩ := keyTold named second first suite.symm unfit
            exact differ (hides {} {} requests (by simp [Own]) fails' fails).symm
    | some key =>
        cases second : other.loginKey username with
        | none =>
            rw [first, second] at suite
            obtain ⟨requests, fails, fails', differ⟩ := keyTold named first second suite unfit
            exact differ (hides {} {} requests (by simp [Own]) fails fails')
        | some key' => simp [first, second] at keys
  · rintro ⟨suite, keys⟩ tracker limiter requests own fails fails'
    have shapes : Shapes serverIdentity one other := by
      intro name
      by_cases same : name = username
      · rw [same]
        exact ⟨suite, keys⟩
      · exact .ofSame (by rw [AccountStore.loginKey, AccountStore.loginKey, others name same])
    exact @servedAlike crypto serverIdentity one other ⟨tracker, one, limiter⟩ ed25519 mldsa65 shapes requests rfl own fails fails'

/-! Alice, whom nobody knows, who has a password, or who has a key. -/
section Alice

def aliceKnown (account : Account) : AccountStore := ⟨Function.update (fun _ => none) (ascii "alice") (some account)⟩

def anyCrypto : Crypto where
  sha256 _ := Vector.replicate 32 0
  ed25519 := signatureTable (fun _ => Vector.replicate 32 0) []
  mldsa65 := signatureTable (fun _ => Vector.replicate 1952 0) []

theorem aliceElse (account : Account) (name : Bytes) (other : name ≠ ascii "alice") :
    ({} : AccountStore).accounts name = (aliceKnown account).accounts name := (Function.update_of_ne other _ _).symm

-- A password is not told from nobody.
theorem passwordHidden : Hides anyCrypto (ascii "host:1") {} (aliceKnown {}) :=
  (accountsHidden (fun _ _ _ => ⟨_, rfl⟩) (fun _ _ _ => ⟨_, rfl⟩) (by decide) (aliceElse {})).mpr ⟨by decide, .inl (by decide)⟩

-- A key of the older suite is.
theorem oldKeyTold : ¬Hides anyCrypto (ascii "host:1") {}
    (aliceKnown ⟨some ⟨loginSuiteEd25519V1, List.replicate 32 7, by decide⟩⟩) :=
  suitesTold (show ascii "alice" ≠ [] by decide) (by decide)

end Alice
end KeyLogin
end TradeP2P
