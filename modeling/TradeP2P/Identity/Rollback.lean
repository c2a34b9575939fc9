import TradeP2P.Identity.Entries

/-! What is left of a call on a history that throws. A call that is refused has changed nothing; one that could not write
its change has made it in memory all the same. -/
namespace TradeP2P
open Wire (Bytes)
open Checks Machine HistoryCodec
open Aead (Cipher)

namespace LocalCounterpartyHistory

/-! The grounds of a throw. -/

def Call.full (call : Call) (entry : CounterpartyHistoryEntry) : Bool :=
  match call.change with
  | .addNote _ _ => entry.notes.length ≥ historyMaxNotesPerEntry
  | .addEvidenceHash _ => entry.evidenceHashes.length ≥ historyMaxEvidenceHashesPerEntry
  | .recordEncounter _ _ | .setBlocked _ => false

def Call.held (call : Call) (entries : List CounterpartyHistoryEntry) : Option CounterpartyHistoryEntry :=
  Keyed.lookup CounterpartyHistoryEntry.pair call.pair entries

structure Call.Accepted (call : Call) (entries : List CounterpartyHistoryEntry) : Prop where
  fits : call.fits = true
  room : call.held entries = none → entries.length < historyMaxEntries
  open_ : ∀ entry, call.held entries = some entry → call.full entry = false

-- The flag is set as it was.
def Call.Idle (call : Call) (entries : List CounterpartyHistoryEntry) : Prop :=
  ∃ entry, call.held entries = some entry ∧ call.change = .setBlocked entry.locallyBlocked

/- Everything the file takes is there: the bytes, a nonce, the seal and the place to write. -/
def Storable (cipher : Cipher) (env : HistoryEnv) (history : LocalCounterpartyHistory) : Prop :=
  ∃ payload nonce sealing, encodePayload history.entries = .ok payload ∧ env.nonce = .ok nonce ∧
    cipher.encrypt history.aeadKey nonce header payload = some sealing ∧ env.writeReplaceAtomic = .ok ()

section Edits
variable {call : Call} {entries : List CounterpartyHistoryEntry} {entry : CounterpartyHistoryEntry}

theorem editFull (full : call.full entry = true) : call.edit entry = entry := by
  unfold Call.full at full
  unfold Call.edit
  cases change : call.change with
  | recordEncounter outcome now => simp [change] at full
  | setBlocked blocked => simp [change] at full
  | addNote text now =>
    simp only [change, decide_eq_true_eq] at full
    exact if_pos full
  | addEvidenceHash hash =>
    simp only [change, decide_eq_true_eq] at full
    exact if_pos full

/- But for a flag that is set as it was, whatever there is room for is seen in the entry. -/
theorem editSame (open_ : call.full entry = false) : call.edit entry = entry ↔ call.change = .setBlocked entry.locallyBlocked := by
  unfold Call.full at open_
  unfold Call.edit
  cases change : call.change with
  | recordEncounter outcome now =>
    simp only [reduceCtorEq, iff_false]
    intro same
    have counted : entry.encounterCount + 1 = entry.encounterCount := congrArg CounterpartyHistoryEntry.encounterCount same
    simp at counted
  | setBlocked blocked =>
    simp only [Change.setBlocked.injEq]
    constructor
    · exact fun same => congrArg CounterpartyHistoryEntry.locallyBlocked same
    · rintro rfl
      rfl
  | addNote text now =>
    simp only [change, decide_eq_false_iff_not] at open_
    simp only [reduceCtorEq, iff_false, if_neg open_]
    intro same
    have grown := congrArg (fun entry => entry.notes.length) same
    simp at grown
  | addEvidenceHash hash =>
    simp only [change, decide_eq_false_iff_not] at open_
    simp only [reduceCtorEq, iff_false, if_neg open_]
    intro same
    have grown := congrArg (fun entry => entry.evidenceHashes.length) same
    simp [recomputeConfidence] at grown

theorem touchSame (fits : call.fits = true) : call.effect entries = entries ↔
    (call.held entries = none → entries.length ≥ historyMaxEntries) ∧
      ∀ entry, call.held entries = some entry → call.edit entry = entry := by
  have own := Keyed.touchOwn (pairEdited call) (pairFresh call) historyMaxEntries entries
  rw [Call.effect, if_pos fits]
  constructor
  · intro same
    rw [same] at own
    refine ⟨fun none_ => ?_, fun entry there => ?_⟩
    · by_contra room
      have below : entries.length < historyMaxEntries := by omega
      rw [Call.held] at none_
      simp [none_, below] at own
    · rw [Call.held] at there
      simpa [there] using own.symm
  · rintro ⟨full, idle⟩
    have found : entries[entries.findIdx fun entry => entry.pair = call.pair]? = call.held entries := Keyed.lookupPlace entries
    rw [Keyed.touchPlace]
    dsimp only
    split
    next there =>
      have kept : entries.modify (entries.findIdx fun entry => entry.pair = call.pair) call.edit =
          entries.modify (entries.findIdx fun entry => entry.pair = call.pair) id :=
        modifySame fun entry at_ => idle entry (found.symm.trans at_)
      rw [kept, List.modify_id]
    next missing =>
      rw [not_not] at missing
      rw [missing, List.getElem?_eq_none le_rfl] at found
      exact if_pos (full found.symm)

/- A call that is let through changes the entries, unless it is idle. -/
theorem effectSame : call.effect entries = entries ↔ ¬call.Accepted entries ∨ call.Idle entries := by
  by_cases fits : call.fits = true
  · rw [touchSame fits]
    constructor
    · rintro ⟨full, idle⟩
      by_cases accepted : call.Accepted entries
      · refine .inr ?_
        cases there : call.held entries with
        | none => exact absurd (accepted.room there) (not_lt.mpr (full there))
        | some entry => exact ⟨entry, there, (editSame (accepted.open_ entry there)).mp (idle entry there)⟩
      · exact .inl accepted
    · rintro (refused | ⟨entry, there, same⟩)
      · refine ⟨fun none_ => ?_, fun entry there => ?_⟩
        · by_contra below
          exact refused ⟨fits, fun _ => not_le.mp below, fun entry there => by simp [none_] at there⟩
        · refine editFull ?_
          by_contra notFull
          rw [Bool.not_eq_true] at notFull
          exact refused ⟨fits, fun none_ => by simp [none_] at there, fun other at_ => by
            rw [there, Option.some.injEq] at at_
            rwa [← at_]⟩
      · have open_ : call.full entry = false := by rw [Call.full, same]
        refine ⟨fun none_ => by simp [none_] at there, fun other at_ => ?_⟩
        rw [there, Option.some.injEq] at at_
        rw [← at_]
        exact (editSame open_).mpr same
  · have refused : ¬call.Accepted entries := fun accepted => fits accepted.fits
    simp [Call.effect, fits, refused]

end Edits

/-! What a call comes to. -/
section Calls
variable {call : Call} {s u : HistoryOnDisk} {cipher : Cipher}

theorem standardlyOk {α : Type} {x : Except Error α} {a : α} : standardly x = .ok a ↔ x = .ok a := by cases x <;> simp [standardly]

theorem standardlyError {α : Type} {x : Except Error α} {e : HistoryError} (failed : standardly x = .error e) (a : α) : x ≠ .ok a := by
  rintro rfl
  cases failed

theorem sealOk {key : Aead.Key} {nonce : Aead.Nonce} {aad plaintext : Bytes} {sealing : Aead.Sealed} :
    chacha20poly1305Seal cipher key nonce aad plaintext = .ok sealing ↔ cipher.encrypt key nonce aad plaintext = some sealing := by
  unfold chacha20poly1305Seal
  cases cipher.encrypt key nonce aad plaintext <;> simp

theorem ensuresStored (cipher : Cipher) (env : HistoryEnv) (u : HistoryOnDisk) :
    Ensures (persist cipher env) u (fun _ _ => Storable cipher env u.history) (fun _ t => t = u ∧ ¬Storable cipher env u.history) := by
  simp only [persist, ensuresBind, ensuresGet, ensuresLift, ensuresSet]
  refine ⟨fun payload encoded => ⟨fun nonce drawn => ⟨fun sealing sealed => ⟨fun _ written => ?_, fun e failed => ⟨True.intro, ?_⟩⟩,
    fun e failed => ⟨True.intro, ?_⟩⟩, fun e failed => ⟨True.intro, ?_⟩⟩, fun e failed => ⟨True.intro, ?_⟩⟩
  · exact ⟨payload, nonce, sealing, encoded, standardlyOk.mp drawn, sealOk.mp sealed, standardlyOk.mp written⟩
  · rintro ⟨_, _, _, _, _, _, written⟩
    exact standardlyError failed _ written
  · rintro ⟨other, again, sealing, encoded', drawn', sealed, _⟩
    rw [encoded, Except.ok.injEq] at encoded'
    rw [standardlyOk.mp drawn, Except.ok.injEq] at drawn'
    subst encoded' drawn'
    rw [sealOk.mpr sealed] at failed
    cases failed
  · rintro ⟨_, nonce, _, _, drawn, _⟩
    exact standardlyError failed _ drawn
  · rintro ⟨payload, _, _, encoded, _⟩
    rw [encoded] at failed
    cases failed

theorem ensuresPlace (fingerprint : CounterpartyFingerprint) (mediatorId : Bytes) (now : UInt64) (s : HistoryOnDisk) :
    Ensures (getOrCreate fingerprint mediatorId now) s
      (fun idx t => t.file = s.file ∧ t.history.aeadKey = s.history.aeadKey ∧ t.history.entries[idx]? =
        some ((Keyed.lookup CounterpartyHistoryEntry.pair (fingerprint, mediatorId) s.history.entries).getD
          { fingerprint, mediatorId, firstSeen := now, lastSeen := now }))
      (fun _ _ => mediatorId.length > historyMaxMediatorIdLength ∨
        Keyed.lookup CounterpartyHistoryEntry.pair (fingerprint, mediatorId) s.history.entries = none ∧
          s.history.entries.length ≥ historyMaxEntries) := by
  have found : s.history.entries[s.history.indexOf fingerprint mediatorId]? =
      Keyed.lookup CounterpartyHistoryEntry.pair (fingerprint, mediatorId) s.history.entries := by
    rw [indexOf, isForPair]
    exact Keyed.lookupPlace _
  unfold getOrCreate
  simp only [ensuresBind, ensuresLift, throwIf_ok, throwIf_error, ensuresGet, ensuresIte, ensuresPure, ensuresSet, true_and]
  refine ⟨fun _ short => ⟨fun there => ?_, fun missing => ⟨fun _ room => ?_, fun _ full => ?_⟩⟩, fun _ long => .inl long.1⟩
  · have inside : s.history.indexOf fingerprint mediatorId < s.history.entries.length :=
      lt_of_le_of_ne (by rw [indexOf]; exact List.findIdx_le_length) there
    rw [List.getElem?_eq_getElem inside] at found
    rw [← found, List.getElem?_eq_getElem inside]
    rfl
  · rw [not_not] at missing
    rw [missing, List.getElem?_eq_none le_rfl] at found
    rw [← found, List.getElem?_concat_length]
    rfl
  · rw [not_not] at missing
    rw [missing, List.getElem?_eq_none le_rfl] at found
    exact .inr ⟨found.symm, full.1⟩

/- How a call ends: its change is on disk, or the file is as it was and the call was refused or could not be written. -/
def Ends (cipher : Cipher) (call : Call) (s : HistoryOnDisk) (x : HistoryM (Option CounterpartyHistoryEntry)) : Prop :=
  Ensures x s (fun _ _ => call.Accepted s.history.entries ∧ Storable cipher call.env { s.history with entries := call.effect s.history.entries })
    (fun _ t => t.file = s.file ∧ ¬(call.Accepted s.history.entries ∧
      Storable cipher call.env { s.history with entries := call.effect s.history.entries }))

theorem endsChanged (idx : Nat) (f : CounterpartyHistoryEntry → CounterpartyHistoryEntry) (env : HistoryEnv) :
    Ensures (do change idx f; persist cipher env; entryAt idx) u
      (fun _ _ => Storable cipher env { u.history with entries := u.history.entries.modify idx f })
      (fun _ t => t.file = u.file ∧ ¬Storable cipher env { u.history with entries := u.history.entries.modify idx f }) := by
  rw [ensuresBind, change, ensuresModify, ensuresBind]
  refine (ensuresStored cipher env _).weaken (fun _ t _ storable => ?_) fun _ t _ failed => ?_
  · exact (ensuresEntryAt t idx).weaken (fun _ _ _ _ => storable) fun _ _ _ never => never.elim
  · exact ⟨failed.1 ▸ rfl, failed.2⟩

theorem endsChangedTwice (idx : Nat) (f g : CounterpartyHistoryEntry → CounterpartyHistoryEntry) (env : HistoryEnv) :
    Ensures (do change idx f; change idx g; persist cipher env; entryAt idx) u
      (fun _ _ => Storable cipher env { u.history with entries := u.history.entries.modify idx (g ∘ f) })
      (fun _ t => t.file = u.file ∧ ¬Storable cipher env { u.history with entries := u.history.entries.modify idx (g ∘ f) }) := by
  have both : u.history.entries.modify idx (g ∘ f) = (u.history.entries.modify idx f).modify idx g :=
    (List.modify_modify_eq f g idx u.history.entries).symm
  rw [ensuresBind, change, ensuresModify, both]
  exact endsChanged idx g env

theorem endsPlaced {k : Nat → HistoryM (Option CounterpartyHistoryEntry)}
    (fits : call.mediatorId.length ≤ historyMaxMediatorIdLength → call.fits = true)
    (edits : ∀ idx u entry, u.history.entries[idx]? = some entry → Ensures (k idx) u
      (fun _ _ => call.full entry = false ∧ Storable cipher call.env { u.history with entries := u.history.entries.modify idx call.edit })
      (fun _ t => t.file = u.file ∧
        ¬(call.full entry = false ∧ Storable cipher call.env { u.history with entries := u.history.entries.modify idx call.edit }))) :
    Ends cipher call s (getOrCreate call.fingerprint call.mediatorId call.stamp >>= k) := by
  have placed := ensuresPlace call.fingerprint call.mediatorId call.stamp s
  rw [Ends, ensuresBind]
  refine (ensuresGetOrCreate call.fingerprint call.mediatorId call.stamp s).weaken ?_ ?_
  · intro idx u ran touched
    unfold Ensures at placed
    rw [ran] at placed
    obtain ⟨short, room, entries, rfl, touched⟩ := touched
    obtain ⟨file, _, there⟩ := placed
    have affected : call.effect s.history.entries = entries.modify idx call.edit := by
      rw [Call.effect, if_pos (fits short), touched]
      rfl
    have accepted : call.Accepted s.history.entries ↔ call.full ((call.held s.history.entries).getD call.fresh) = false := by
      cases held : call.held s.history.entries with
      | none =>
        have open_ : call.full call.fresh = false := by
          unfold Call.full Call.fresh
          cases call.change <;> rfl
        exact ⟨fun _ => open_, fun _ => ⟨fits short, fun _ => room.resolve_left fun some_ => some_ held, fun _ is => by simp [held] at is⟩⟩
      | some entry =>
        refine ⟨fun accepted => accepted.open_ entry held, fun open_ => ⟨fits short, fun is => by simp [held] at is, fun other is => ?_⟩⟩
        rw [held, Option.some.injEq] at is
        rwa [← is]
    rw [affected, accepted]
    exact edits idx _ _ there
  · intro e t ran refused
    unfold Ensures at placed
    rw [ran] at placed
    refine ⟨refused.1 ▸ rfl, fun ends => ?_⟩
    rcases placed with long | ⟨none_, full⟩
    · have accepted := ends.1.fits
      simp only [Call.fits, Bool.and_eq_true, decide_eq_true_eq] at accepted
      omega
    · exact absurd (ends.1.room none_) (not_lt.mpr full)

theorem endsGuarded {full : CounterpartyHistoryEntry → Bool} {f : CounterpartyHistoryEntry → CounterpartyHistoryEntry}
    (guards : ∀ entry, call.full entry = full entry) (edit : ∀ entry, call.edit entry = if full entry then entry else f entry)
    {rest : HistoryM (Option CounterpartyHistoryEntry)} {e : HistoryError} {idx : Nat} {entry : CounterpartyHistoryEntry}
    (there : u.history.entries[idx]? = some entry)
    (does : Ensures rest u (fun _ _ => Storable cipher call.env { u.history with entries := u.history.entries.modify idx f })
      (fun _ t => t.file = u.file ∧ ¬Storable cipher call.env { u.history with entries := u.history.entries.modify idx f })) :
    Ensures (do let entry ← entryAt idx; throwIf (entry.any full) e; rest) u
      (fun _ _ => call.full entry = false ∧ Storable cipher call.env { u.history with entries := u.history.entries.modify idx call.edit })
      (fun _ t => t.file = u.file ∧
        ¬(call.full entry = false ∧ Storable cipher call.env { u.history with entries := u.history.entries.modify idx call.edit })) := by
  rw [ensuresBind]
  refine (ensuresEntryAt u idx).weaken ?_ fun _ _ _ never => never.elim
  rintro found v _ ⟨rfl, rfl⟩
  simp only [there, Option.any_some, ensuresBind (x := liftM _), ensuresLift, throwIf_ok, throwIf_error, guards, Bool.not_eq_true]
  refine ⟨fun _ open_ => ?_, fun _ closed => ⟨True.intro, fun stores => ?_⟩⟩
  · have same : v.history.entries.modify idx call.edit = v.history.entries.modify idx f := modifySame fun other at_ => by
      rw [there, Option.some.injEq] at at_
      rw [edit, ← at_, open_, if_neg Bool.false_ne_true]
    rw [same]
    exact does.weaken (fun _ _ _ storable => ⟨open_, storable⟩) fun _ _ _ failed => ⟨failed.1, fun stores => failed.2 stores.2⟩
  · rw [closed.1] at stores
    simp at stores

theorem ensuresEnds (cipher : Cipher) (call : Call) (s : HistoryOnDisk) : Ends cipher call s (perform cipher call) := by
  unfold perform
  split
  case h_1 outcome now how =>
    have stamp : call.stamp = call.env.orNow now := by rw [Call.stamp, how]
    have edit : call.edit = recomputeConfidence ∘ encountered outcome call.stamp := by
      funext entry
      rw [Call.edit, how, stamp]
      rfl
    have open_ (entry : CounterpartyHistoryEntry) : call.full entry = false := by rw [Call.full, how]
    unfold recordEncounter
    dsimp only
    rw [← stamp]
    refine endsPlaced (fun short => by simp [Call.fits, short, how]) fun idx u entry there => ?_
    simp only [edit, open_, true_and]
    exact endsChangedTwice idx _ _ call.env
  case h_2 blocked how =>
    have stamp : call.stamp = call.env.nowUnixSeconds := by rw [Call.stamp, how]
    have edit : call.edit = fun entry => { entry with locallyBlocked := blocked } := by
      funext entry
      rw [Call.edit, how]
    have open_ (entry : CounterpartyHistoryEntry) : call.full entry = false := by rw [Call.full, how]
    unfold setBlocked
    rw [← stamp]
    refine endsPlaced (fun short => by simp [Call.fits, short, how]) fun idx u entry there => ?_
    simp only [edit, open_, true_and]
    exact endsChanged idx _ call.env
  case h_3 text now how =>
    have stamp : call.stamp = call.env.orNow now := by rw [Call.stamp, how]
    unfold addNote
    dsimp only
    rw [← stamp, Ends]
    simp only [ensuresBind (x := liftM _), ensuresLift, throwIf_ok, throwIf_error]
    refine ⟨fun _ within => ?_, fun _ long => ⟨True.intro, fun ends => ?_⟩⟩
    · refine endsPlaced (fun short => by simp [Call.fits, short, how, Nat.le_of_not_lt within]) fun idx u entry there => ?_
      refine endsGuarded (fun entry => by rw [Call.full, how]) (fun entry => ?_) there (endsChanged idx _ call.env)
      rw [Call.edit, how, stamp]
      simp
    · have fits := ends.1.fits
      simp only [Call.fits, how, Bool.and_eq_true, decide_eq_true_eq] at fits
      omega
  case h_4 hash how =>
    have stamp : call.stamp = call.env.nowUnixSeconds := by rw [Call.stamp, how]
    unfold addEvidenceHash
    rw [← stamp]
    refine endsPlaced (fun short => by simp [Call.fits, short, how]) fun idx u entry there => ?_
    refine endsGuarded (fun entry => by rw [Call.full, how]) (fun entry => ?_) there (endsChangedTwice idx _ _ call.env)
    rw [Call.edit, how]
    simp

/- A call that throws leaves the entries and the file alone exactly if it was refused, would have changed nothing, or throws not. -/
theorem throwsClean (cipher : Cipher) (call : Call) (s : HistoryOnDisk) :
    (∀ e t, perform cipher call s = .error e t → t.history.entries = s.history.entries ∧ t.file = s.file) ↔
      ¬call.Accepted s.history.entries ∨ call.Idle s.history.entries ∨
        Storable cipher call.env { s.history with entries := call.effect s.history.entries } := by
  have ends := ensuresEnds cipher call s
  have affects := ensuresPerform cipher call s
  unfold Ends Ensures at ends
  unfold Ensures Affects at affects
  cases ran : perform cipher call s with
  | ok entry t =>
    rw [ran] at ends
    exact ⟨fun _ => .inr (.inr ends.2), fun _ e t failed => by cases failed⟩
  | error e t =>
    rw [ran] at ends affects
    constructor
    · intro clean
      have changed : t.history.entries = call.effect s.history.entries := congrArg LocalCounterpartyHistory.entries affects
      have same : call.effect s.history.entries = s.history.entries := changed.symm.trans (clean e t rfl).1
      rcases effectSame.mp same with refused | idle
      · exact .inl refused
      · exact .inr (.inl idle)
    · intro held e' t' failed
      cases failed
      refine ⟨?_, ends.1⟩
      have same : call.effect s.history.entries = s.history.entries := by
        rcases held with refused | idle | storable
        · exact effectSame.mpr (.inl refused)
        · exact effectSame.mpr (.inr idle)
        · by_cases accepted : call.Accepted s.history.entries
          · exact absurd ⟨accepted, storable⟩ ends.2
          · exact effectSame.mpr (.inl accepted)
      rw [affects]
      exact same

/- The disk is full: the encounter is remembered until the program ends, and not after. -/
def unwritten : Call where
  env := ⟨1700000000, .ok (Vector.replicate 12 0), .error (.runtimeError "failed to write history file contents: No space left on device")⟩
  fingerprint := Vector.replicate 32 7
  mediatorId := []
  change := .recordEncounter .successful 0

theorem remembersUnwritten : ∃ e t, perform Aead.chacha20Poly1305 unwritten (create (Vector.replicate 32 1)) = .error e t ∧
    t.history.entries ≠ (create (Vector.replicate 32 1)).history.entries ∧ t.file = (create (Vector.replicate 32 1)).file := by
  have ends := ensuresEnds Aead.chacha20Poly1305 unwritten (create (Vector.replicate 32 1))
  have affects := ensuresPerform Aead.chacha20Poly1305 unwritten (create (Vector.replicate 32 1))
  unfold Ends Ensures at ends
  unfold Ensures Affects at affects
  cases ran : perform Aead.chacha20Poly1305 unwritten (create (Vector.replicate 32 1)) with
  | ok entry t =>
    rw [ran] at ends
    obtain ⟨_, _, _, _, _, _, _, written⟩ := ends
    cases written
  | error e t =>
    rw [ran] at ends affects
    refine ⟨e, t, rfl, ?_, ends.1⟩
    rw [affects]
    decide

end Calls

end LocalCounterpartyHistory
end TradeP2P
