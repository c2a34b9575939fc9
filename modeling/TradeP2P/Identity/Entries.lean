import TradeP2P.Identity.History
import TradeP2P.Lib.Contracts
import TradeP2P.Lib.Keyed

/-! What a call does to the entries of a history: it touches the entry of its pair, whether or not the
file can be written afterwards. -/
namespace TradeP2P
open Wire (Bytes)
open Checks Machine HistoryCodec
open Aead (Cipher)

abbrev Pair := CounterpartyFingerprint × Bytes

def CounterpartyHistoryEntry.pair (entry : CounterpartyHistoryEntry) : Pair := (entry.fingerprint, entry.mediatorId)

namespace LocalCounterpartyHistory

def Call.pair (call : Call) : Pair := (call.fingerprint, call.mediatorId)

def Call.stamp (call : Call) : UInt64 := match call.change with
  | .recordEncounter _ now => call.env.orNow now
  | .setBlocked _ => call.env.nowUnixSeconds
  | .addNote _ now => call.env.orNow now
  | .addEvidenceHash _ => call.env.nowUnixSeconds

def Call.fresh (call : Call) : CounterpartyHistoryEntry :=
  { fingerprint := call.fingerprint, mediatorId := call.mediatorId, firstSeen := call.stamp, lastSeen := call.stamp }

-- What the call makes of the entry; a full list is left as it is.
def Call.edit (call : Call) (entry : CounterpartyHistoryEntry) : CounterpartyHistoryEntry := match call.change with
  | .recordEncounter outcome now => recomputeConfidence (encountered outcome (call.env.orNow now) entry)
  | .setBlocked blocked => { entry with locallyBlocked := blocked }
  | .addNote text now =>
      if entry.notes.length ≥ historyMaxNotesPerEntry then entry
      else { entry with notes := entry.notes ++ [⟨call.env.orNow now, text⟩] }
  | .addEvidenceHash hash =>
      if entry.evidenceHashes.length ≥ historyMaxEvidenceHashesPerEntry then entry
      else recomputeConfidence { entry with evidenceHashes := entry.evidenceHashes ++ [hash] }

-- Whether the arguments of a call are within their limits.
def Call.fits (call : Call) : Bool := decide (call.mediatorId.length ≤ historyMaxMediatorIdLength) &&
  match call.change with
  | .addNote text _ => decide (text.length ≤ historyMaxNoteLength)
  | _ => true

def Call.effect (call : Call) (entries : List CounterpartyHistoryEntry) : List CounterpartyHistoryEntry :=
  if call.fits then Keyed.touch CounterpartyHistoryEntry.pair call.pair call.fresh call.edit historyMaxEntries entries
  else entries

/-! Entries keep their pair. -/

@[simp] theorem pairFresh (call : Call) : call.fresh.pair = call.pair := rfl
@[simp] theorem pairRecomputed (entry : CounterpartyHistoryEntry) : (recomputeConfidence entry).pair = entry.pair := rfl

@[simp] theorem pairEncountered (outcome : LocalOutcome) (now : UInt64) (entry : CounterpartyHistoryEntry) :
    (encountered outcome now entry).pair = entry.pair := rfl

@[simp] theorem pairEdited (call : Call) (entry : CounterpartyHistoryEntry) : (call.edit entry).pair = entry.pair := by
  unfold Call.edit
  cases call.change with
  | recordEncounter outcome now => rfl
  | setBlocked blocked => rfl
  | addNote text now => dsimp only; split <;> rfl
  | addEvidenceHash hash => dsimp only; split <;> rfl

theorem isForPair (fingerprint : CounterpartyFingerprint) (mediatorId : Bytes) :
    isFor fingerprint mediatorId = fun entry => decide (entry.pair = (fingerprint, mediatorId)) := by
  funext entry
  simp [isFor, CounterpartyHistoryEntry.pair]

theorem findIsLookup (history : LocalCounterpartyHistory) (fingerprint : CounterpartyFingerprint) (mediatorId : Bytes) :
    history.find fingerprint mediatorId =
      Keyed.lookup CounterpartyHistoryEntry.pair (fingerprint, mediatorId) history.entries := by
  rw [find, indexOf, isForPair, Keyed.lookupPlace]

/-! The steps of a call. -/

theorem ensuresPersist (cipher : Cipher) (env : HistoryEnv) (s : HistoryOnDisk) :
    Ensures (persist cipher env) s (fun _ t => t.history = s.history) (fun _ t => t = s) := by
  simp [persist, ensuresBind, ensuresGet, ensuresSet, ensuresLift]

section Places
variable (fingerprint : CounterpartyFingerprint) (mediatorId : Bytes) (now : UInt64) (s : HistoryOnDisk)

/- The entry a call refers to is in its place, and is new when the pair had none. -/
theorem ensuresGetOrCreate :
    Ensures (getOrCreate fingerprint mediatorId now) s
      (fun idx t => mediatorId.length ≤ historyMaxMediatorIdLength ∧
        (Keyed.lookup CounterpartyHistoryEntry.pair (fingerprint, mediatorId) s.history.entries ≠ none ∨
          s.history.entries.length < historyMaxEntries) ∧
        ∃ entries, t = { s with history.entries := entries } ∧
          ∀ f, entries.modify idx f = Keyed.touch CounterpartyHistoryEntry.pair (fingerprint, mediatorId)
            { fingerprint, mediatorId, firstSeen := now, lastSeen := now } f historyMaxEntries s.history.entries)
      (fun e t => t = s ∧ (∃ text, e = invalid text) ∧ (mediatorId.length > historyMaxMediatorIdLength ∨
        ∀ fresh f, Keyed.touch CounterpartyHistoryEntry.pair (fingerprint, mediatorId) fresh f historyMaxEntries
          s.history.entries = s.history.entries)) := by
  unfold getOrCreate
  simp only [ensuresBind, ensuresLift, throwIf_ok, throwIf_error, ensuresGet, ensuresIte, ensuresPure, ensuresSet]
  refine ⟨fun _ short => ⟨fun there => ?_, fun missing => ⟨fun _ room => ?_, fun _ full => ?_⟩⟩, fun _ long => ?_⟩
  · rw [indexOf, isForPair] at there
    have held : Keyed.lookup CounterpartyHistoryEntry.pair (fingerprint, mediatorId) s.history.entries ≠ none := by
      rw [← Keyed.lookupPlace, ne_eq, List.getElem?_eq_none_iff]
      exact fun past => there (Nat.le_antisymm List.findIdx_le_length past)
    refine ⟨Nat.le_of_not_lt short, .inl held, s.history.entries, rfl, fun f => ?_⟩
    rw [indexOf, isForPair]
    simp only [Keyed.touchPlace, if_pos there]
  · refine ⟨Nat.le_of_not_lt short, .inr (Nat.lt_of_not_le room), _, rfl, fun f => ?_⟩
    rw [indexOf, isForPair, not_not] at missing
    simp only [Keyed.touchPlace, missing, ne_eq, not_true, if_false, if_neg room]
    simp [List.modify_eq_take_drop]
  · refine ⟨trivial, ⟨_, full.2.symm⟩, .inr fun fresh f => ?_⟩
    rw [indexOf, isForPair, not_not] at missing
    simp only [Keyed.touchPlace, missing, ne_eq, not_true, if_false, if_pos full.1]
  · exact ⟨trivial, ⟨_, long.2.symm⟩, .inl long.1⟩

theorem ensuresEntryAt (idx : Nat) :
    Ensures (entryAt idx) s (fun entry t => entry = s.history.entries[idx]? ∧ t = s) (fun _ _ => False) := by
  unfold entryAt
  simp only [ensuresBind, ensuresGet, ensuresPure, and_self]

end Places

/-! Calls. -/

def Affects (call : Call) (s t : HistoryOnDisk) : Prop :=
  t.history = { s.history with entries := call.effect s.history.entries }

section Performing
variable {call : Call} {s : HistoryOnDisk}

theorem affectsNothing (same : call.effect s.history.entries = s.history.entries) : Affects call s s := by
  unfold Affects
  rw [same]

theorem unfit (h : call.fits = false) : Affects call s s := affectsNothing (by simp [Call.effect, h])

/- What is left to do once the entry is in its place. -/
theorem ensuresPlaced {β : Type} {k : Nat → HistoryM β} (fits : call.mediatorId.length ≤ historyMaxMediatorIdLength → call.fits)
    (edits : ∀ idx u, Ensures (k idx) u
      (fun _ t => t.history = { u.history with entries := u.history.entries.modify idx call.edit })
      (fun _ t => t.history = { u.history with entries := u.history.entries.modify idx call.edit })) :
    Ensures (getOrCreate call.fingerprint call.mediatorId call.stamp >>= k) s (fun _ t => Affects call s t)
      (fun _ t => Affects call s t) := by
  rw [ensuresBind]
  refine (ensuresGetOrCreate call.fingerprint call.mediatorId call.stamp s).weaken ?_ ?_
  · intro idx u _ placed
    obtain ⟨short, _, entries, rfl, touched⟩ := placed
    have affected : call.effect s.history.entries = entries.modify idx call.edit := by
      rw [Call.effect, if_pos (fits short), touched]
      rfl
    refine (edits idx _).weaken ?_ ?_
    · intro _ t _ same
      rw [Affects, same, affected]
    · intro _ t _ same
      rw [Affects, same, affected]
  · intro _ t _ refused
    obtain ⟨rfl, _, long | full⟩ := refused
    · exact unfit (by simp [Call.fits, long])
    · exact affectsNothing (by rw [Call.effect]; split; exacts [full _ _, rfl])

/- The entry is changed and the file written, and the entry stays changed if it cannot be. -/
theorem ensuresWritten (cipher : Cipher) (env : HistoryEnv) (idx : Nat) (u : HistoryOnDisk) :
    Ensures (do persist cipher env; entryAt idx) u (fun _ t => t.history = u.history) (fun _ t => t.history = u.history) := by
  rw [ensuresBind]
  refine (ensuresPersist cipher env u).weaken ?_ ?_
  · intro _ t _ same
    refine (ensuresEntryAt t idx).weaken ?_ ?_
    · intro _ v _ kept
      rw [kept.2, same]
    · intro _ _ _ never
      exact never.elim
  · intro _ t _ same
    rw [same]

def Edited (u : HistoryOnDisk) (idx : Nat) (f : CounterpartyHistoryEntry → CounterpartyHistoryEntry) (t : HistoryOnDisk) : Prop :=
  t.history = { u.history with entries := u.history.entries.modify idx f }

theorem ensuresChanged (cipher : Cipher) (env : HistoryEnv) (idx : Nat) (f : CounterpartyHistoryEntry → CounterpartyHistoryEntry)
    (u : HistoryOnDisk) : Ensures (do change idx f; persist cipher env; entryAt idx) u
      (fun _ t => Edited u idx f t) (fun _ t => Edited u idx f t) := by
  rw [ensuresBind, change, ensuresModify]
  exact ensuresWritten cipher env idx _

theorem ensuresChangedTwice (cipher : Cipher) (env : HistoryEnv) (idx : Nat)
    (f g : CounterpartyHistoryEntry → CounterpartyHistoryEntry) (u : HistoryOnDisk) :
    Ensures (do change idx f; change idx g; persist cipher env; entryAt idx) u
      (fun _ t => Edited u idx (g ∘ f) t) (fun _ t => Edited u idx (g ∘ f) t) := by
  have both : u.history.entries.modify idx (g ∘ f) = (u.history.entries.modify idx f).modify idx g :=
    (List.modify_modify_eq f g idx u.history.entries).symm
  rw [ensuresBind, change, ensuresModify]
  unfold Edited
  rw [both]
  exact ensuresChanged cipher env idx g _

theorem modifySame {entries : List CounterpartyHistoryEntry} {idx : Nat} {f g : CounterpartyHistoryEntry → CounterpartyHistoryEntry}
    (same : ∀ entry, entries[idx]? = some entry → f entry = g entry) : entries.modify idx f = entries.modify idx g := by
  apply List.ext_getElem?
  intro i
  rw [List.getElem?_modify, List.getElem?_modify]
  split
  · rename_i here
    subst here
    cases there : entries[idx]? with
    | none => rfl
    | some entry => simp [same entry there]
  · rfl

/- A full list is checked once the entry is in its place. -/
theorem ensuresGuarded {full : CounterpartyHistoryEntry → Bool} {f : CounterpartyHistoryEntry → CounterpartyHistoryEntry}
    (edit : ∀ entry, call.edit entry = if full entry then entry else f entry) {β : Type} {rest : HistoryM β} {e : HistoryError}
    {idx : Nat} {u : HistoryOnDisk} (does : Ensures rest u (fun _ t => Edited u idx f t) (fun _ t => Edited u idx f t)) :
    Ensures (do let entry ← entryAt idx; throwIf (entry.any full) e; rest) u
      (fun _ t => Edited u idx call.edit t) (fun _ t => Edited u idx call.edit t) := by
  rw [ensuresBind]
  refine (ensuresEntryAt u idx).weaken ?_ fun _ _ _ never => never.elim
  intro entry v _ there
  rw [there.1, there.2]
  simp only [ensuresBind (x := liftM _), ensuresLift, throwIf_ok, throwIf_error]
  constructor
  · intro _ open_
    have same : u.history.entries.modify idx call.edit = u.history.entries.modify idx f := modifySame fun entry at_ => by
      have notFull : full entry = false := by simpa [at_] using open_
      simp [edit, notFull]
    unfold Edited
    rw [same]
    exact does
  · intro _ closed
    have same : u.history.entries.modify idx call.edit = u.history.entries := by
      rw [← List.modify_id idx u.history.entries, List.modify_modify_eq]
      refine modifySame fun entry at_ => ?_
      have isFull : full entry = true := by simpa [at_] using closed.1
      simp [edit, isFull]
    rw [Edited, same]

theorem ensuresPerform (cipher : Cipher) (call : Call) (s : HistoryOnDisk) :
    Ensures (perform cipher call) s (fun _ t => Affects call s t) (fun _ t => Affects call s t) := by
  unfold perform
  split
  case h_1 outcome now how =>
    have stamp : call.stamp = call.env.orNow now := by rw [Call.stamp, how]
    have edit : call.edit = recomputeConfidence ∘ encountered outcome call.stamp := by
      funext entry
      rw [Call.edit, how, stamp]
      rfl
    unfold recordEncounter
    dsimp only
    rw [← stamp]
    refine ensuresPlaced (fun short => by simp [Call.fits, short, how]) fun idx u => ?_
    rw [edit]
    exact ensuresChangedTwice cipher call.env idx _ _ u
  case h_2 blocked how =>
    have stamp : call.stamp = call.env.nowUnixSeconds := by rw [Call.stamp, how]
    have edit : call.edit = fun entry => { entry with locallyBlocked := blocked } := by
      funext entry
      rw [Call.edit, how]
    unfold setBlocked
    rw [← stamp]
    refine ensuresPlaced (fun short => by simp [Call.fits, short, how]) fun idx u => ?_
    rw [edit]
    exact ensuresChanged cipher call.env idx _ u
  case h_3 text now how =>
    have stamp : call.stamp = call.env.orNow now := by rw [Call.stamp, how]
    unfold addNote
    dsimp only
    rw [← stamp]
    simp only [ensuresBind (x := liftM _), ensuresLift, throwIf_ok, throwIf_error]
    refine ⟨fun _ within => ?_, fun _ long => unfit (by simp [Call.fits, how, long.1])⟩
    refine ensuresPlaced (fun short => by simp [Call.fits, short, how, Nat.le_of_not_lt within]) fun idx u => ?_
    refine ensuresGuarded (f := fun entry => { entry with notes := entry.notes ++ [⟨call.stamp, text⟩] }) ?_
      (ensuresChanged cipher call.env idx _ u)
    intro entry
    rw [Call.edit, how, stamp]
    simp
  case h_4 hash how =>
    have stamp : call.stamp = call.env.nowUnixSeconds := by rw [Call.stamp, how]
    unfold addEvidenceHash
    rw [← stamp]
    refine ensuresPlaced (fun short => by simp [Call.fits, short, how]) fun idx u => ?_
    refine ensuresGuarded ?_ (ensuresChangedTwice cipher call.env idx _ _ u)
    intro entry
    rw [Call.edit, how]
    simp

/- A call that leaves its pair without an entry has thrown and changed nothing. -/
def Refuses (s : HistoryOnDisk) (e : HistoryError) (t : HistoryOnDisk) : Prop := t = s ∧ ∃ text, e = invalid text

theorem ensuresUnplaced {β : Type} {k : Nat → HistoryM β} (fits : call.mediatorId.length ≤ historyMaxMediatorIdLength → call.fits)
    (gone : Keyed.lookup CounterpartyHistoryEntry.pair call.pair (call.effect s.history.entries) = none) :
    Ensures (getOrCreate call.fingerprint call.mediatorId call.stamp >>= k) s (fun _ _ => False) (Refuses s) := by
  rw [ensuresBind]
  refine (ensuresGetOrCreate call.fingerprint call.mediatorId call.stamp s).weaken ?_ ?_
  · intro idx u _ placed
    obtain ⟨short, room, _⟩ := placed
    have held := Keyed.touchOwn (pairEdited call) (pairFresh call) historyMaxEntries s.history.entries
    rw [Call.effect, if_pos (fits short), held] at gone
    cases found : Keyed.lookup CounterpartyHistoryEntry.pair call.pair s.history.entries with
    | some entry => simp [found] at gone
    | none =>
        rw [found] at gone
        have fresh : s.history.entries.length < historyMaxEntries := room.resolve_left fun held => held found
        simp [fresh] at gone
  · intro _ t _ refused
    exact ⟨refused.1, refused.2.1⟩

theorem ensuresRefused (cipher : Cipher)
    (gone : Keyed.lookup CounterpartyHistoryEntry.pair call.pair (call.effect s.history.entries) = none) :
    Ensures (perform cipher call) s (fun _ _ => False) (Refuses s) := by
  unfold perform
  split
  case h_1 outcome now how =>
    have stamp : call.stamp = call.env.orNow now := by rw [Call.stamp, how]
    unfold recordEncounter
    dsimp only
    rw [← stamp]
    exact ensuresUnplaced (fun short => by simp [Call.fits, short, how]) gone
  case h_2 blocked how =>
    have stamp : call.stamp = call.env.nowUnixSeconds := by rw [Call.stamp, how]
    unfold setBlocked
    rw [← stamp]
    exact ensuresUnplaced (fun short => by simp [Call.fits, short, how]) gone
  case h_3 text now how =>
    have stamp : call.stamp = call.env.orNow now := by rw [Call.stamp, how]
    unfold addNote
    dsimp only
    rw [← stamp]
    simp only [ensuresBind (x := liftM _), ensuresLift, throwIf_ok, throwIf_error]
    exact ⟨fun _ within => ensuresUnplaced (fun short => by simp [Call.fits, short, how, Nat.le_of_not_lt within]) gone,
      fun _ long => ⟨rfl, _, long.2.symm⟩⟩
  case h_4 hash how =>
    have stamp : call.stamp = call.env.nowUnixSeconds := by rw [Call.stamp, how]
    unfold addEvidenceHash
    rw [← stamp]
    exact ensuresUnplaced (fun short => by simp [Call.fits, short, how]) gone

end Performing

/-! Runs. -/

def effects (calls : List Call) (entries : List CounterpartyHistoryEntry) : List CounterpartyHistoryEntry :=
  calls.foldl (fun entries call => call.effect entries) entries

theorem effectsAppend (calls more : List Call) (entries : List CounterpartyHistoryEntry) :
    effects (calls ++ more) entries = effects more (effects calls entries) := List.foldl_append

def create (aeadKey : Aead.Key) : HistoryOnDisk := { history := { aeadKey } }

theorem nextEffect (cipher : Cipher) (s : HistoryOnDisk) (call : Call) :
    (next (object cipher) s call).history = { s.history with entries := call.effect s.history.entries } := by
  have spec := ensuresPerform cipher call s
  unfold Ensures at spec
  unfold next object
  rw [bind_run]
  cases ran : perform cipher call s with
  | ok entry t =>
      rw [ran] at spec
      exact spec
  | error e t =>
      rw [ran] at spec
      exact spec

theorem runEffects (cipher : Cipher) (s : HistoryOnDisk) (calls : List Call) :
    (exec (object cipher) s calls).history = { s.history with entries := effects calls s.history.entries } := by
  induction calls generalizing s with
  | nil => rfl
  | cons call rest ih =>
      rw [exec_cons, ih, nextEffect]
      rfl

theorem runEntries (cipher : Cipher) (aeadKey : Aead.Key) (calls : List Call) :
    (exec (object cipher) (create aeadKey) calls).history.entries = effects calls [] := by
  rw [runEffects]
  rfl

theorem refusedCall (cipher : Cipher) {s : HistoryOnDisk} {call : Call}
    (gone : Keyed.lookup CounterpartyHistoryEntry.pair call.pair (call.effect s.history.entries) = none) :
    ∃ text, object cipher call s = .error (invalid text) s := by
  have spec := ensuresRefused cipher gone
  unfold Ensures at spec
  unfold object
  rw [bind_run]
  cases ran : perform cipher call s with
  | ok entry t =>
      rw [ran] at spec
      exact spec.elim
  | error e t =>
      rw [ran] at spec
      obtain ⟨rfl, text, rfl⟩ := spec
      exact ⟨text, rfl⟩

end LocalCounterpartyHistory
end TradeP2P
