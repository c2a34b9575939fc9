import TradeP2P.Identity.Entries

/-! The accounts of a history. Each pair has one entry; it counts the encounters recorded for the pair
and holds the outcomes of the first of them, as many as an entry has room for. -/
namespace TradeP2P
open Wire (Bytes)
open Machine HistoryCodec
open Aead (Cipher)

namespace LocalCounterpartyHistory

def Call.outcome (call : Call) : Option LocalOutcome := match call.change with
  | .recordEncounter outcome _ => some outcome
  | _ => none

/- The outcomes of the encounters recorded for a pair, in the order of the calls. -/
def recorded (pair : Pair) (calls : List Call) : List LocalOutcome :=
  (calls.filter fun call => call.pair = pair).filterMap Call.outcome

def known (outcome : LocalOutcome) : Bool := outcome ≠ .unknown

theorem recordedOther {pair : Pair} {call : Call} (other : call.pair ≠ pair) (calls : List Call) :
    recorded pair (calls ++ [call]) = recorded pair calls := by simp [recorded, other]

theorem recordedOwn (call : Call) (calls : List Call) :
    recorded call.pair (calls ++ [call]) = recorded call.pair calls ++ call.outcome.toList := by
  cases same : call.outcome <;> simp [recorded, same]

/-! What an entry shows of the outcomes recorded for it. -/

def Records (outcomes : List LocalOutcome) (entry : CounterpartyHistoryEntry) : Prop :=
  entry.encounterCount = UInt64.ofNat outcomes.length ∧
    entry.outcomeLabels = (outcomes.filter known).take historyMaxOutcomesPerEntry

theorem recordsFresh (call : Call) : Records [] call.fresh := ⟨rfl, rfl⟩

theorem takeSnoc {α : Type} (limit : Nat) (items : List α) (a : α) : (items ++ [a]).take limit =
    if (items.take limit).length < limit then items.take limit ++ [a] else items.take limit := by
  rw [List.take_append, List.length_take]
  split
  · have room : items.length < limit := by omega
    have one : [a].take (limit - items.length) = [a] := List.take_of_length_le (by simp only [List.length_singleton]; omega)
    rw [one]
  · have full : limit - items.length = 0 := by omega
    simp [full]

theorem recordsEncountered {outcomes : List LocalOutcome} {entry : CounterpartyHistoryEntry} (records : Records outcomes entry)
    (outcome : LocalOutcome) (now : UInt64) : Records (outcomes ++ [outcome]) (encountered outcome now entry) := by
  constructor
  · simp [encountered, records.1]
  · simp only [encountered, records.2, List.filter_append]
    cases outcome with
    | unknown => simp [known]
    | successful => simp [known, takeSnoc]
    | incomplete => simp [known, takeSnoc]

theorem recordsEdited {outcomes : List LocalOutcome} {entry : CounterpartyHistoryEntry} (records : Records outcomes entry)
    (call : Call) : Records (outcomes ++ call.outcome.toList) (call.edit entry) := by
  unfold Call.edit Call.outcome
  cases call.change with
  | recordEncounter outcome now => exact recordsEncountered records outcome (call.env.orNow now)
  | setBlocked blocked =>
      rw [Option.toList_none, List.append_nil]
      exact records
  | addNote text now =>
      rw [Option.toList_none, List.append_nil]
      dsimp only
      split <;> exact records
  | addEvidenceHash hash =>
      rw [Option.toList_none, List.append_nil]
      dsimp only
      split <;> exact records

/-! Runs. A pair without an entry has none for good, or has nothing recorded yet. -/

structure Kept (calls : List Call) (entries : List CounterpartyHistoryEntry) : Prop where
  single : (entries.map CounterpartyHistoryEntry.pair).Nodup
  short : ∀ entry ∈ entries, entry.pair.2.length ≤ historyMaxMediatorIdLength
  records : ∀ {pair entry}, Keyed.lookup CounterpartyHistoryEntry.pair pair entries = some entry →
    Records (recorded pair calls) entry
  absent : ∀ {pair}, Keyed.lookup CounterpartyHistoryEntry.pair pair entries = none →
    recorded pair calls = [] ∨ entries.length ≥ historyMaxEntries ∨ pair.2.length > historyMaxMediatorIdLength

theorem keptStart : Kept [] [] where
  single := List.nodup_nil
  short := by simp
  records found := by simp [Keyed.lookup] at found
  absent _ := .inl rfl

theorem lookupEffect {pair : Pair} {call : Call} (other : call.pair ≠ pair) (entries : List CounterpartyHistoryEntry) :
    Keyed.lookup CounterpartyHistoryEntry.pair pair (call.effect entries) =
      Keyed.lookup CounterpartyHistoryEntry.pair pair entries := by
  unfold Call.effect
  split
  · exact Keyed.touchOther (pairEdited call) (by rwa [pairFresh]) other
  · rfl

theorem unfitCall {call : Call} (unfit : ¬call.fits) : call.outcome = none ∨ call.pair.2.length > historyMaxMediatorIdLength := by
  unfold Call.outcome
  cases how : call.change with
  | recordEncounter outcome now => exact .inr (by simpa [Call.fits, how, Call.pair] using unfit)
  | setBlocked blocked => exact .inl rfl
  | addNote text now => exact .inl rfl
  | addEvidenceHash hash => exact .inl rfl

theorem fitsShort {call : Call} (fits : call.fits) : call.pair.2.length ≤ historyMaxMediatorIdLength := by
  simp only [Call.fits, Bool.and_eq_true, decide_eq_true_eq] at fits
  exact fits.1

theorem effectLength (call : Call) (entries : List CounterpartyHistoryEntry) :
    entries.length ≤ (call.effect entries).length := by
  unfold Call.effect
  split
  · have keys := Keyed.touchKeys (pairEdited call) call.pair call.fresh historyMaxEntries entries
    rcases keys with same | ⟨_, _, grown⟩
    · have lengths := congrArg List.length same
      simp only [List.length_map] at lengths
      omega
    · have lengths := congrArg List.length grown
      simp only [List.length_map, List.length_append] at lengths
      omega
  · exact le_rfl

theorem keptStep {calls : List Call} {entries : List CounterpartyHistoryEntry} (kept : Kept calls entries) (call : Call) :
    Kept (calls ++ [call]) (call.effect entries) where
  single := by
    unfold Call.effect
    split
    · exact Keyed.touchDistinct (pairEdited call) (pairFresh call) kept.single
    · exact kept.single
  short := by
    unfold Call.effect
    split
    · rename_i fits
      refine Keyed.touchAll kept.short ?_ fun entry short => ?_
      · rw [pairEdited, pairFresh]
        exact fitsShort fits
      · rwa [pairEdited]
    · exact kept.short
  records := by
    intro pair entry found
    by_cases other : call.pair = pair
    · subst other
      rw [recordedOwn]
      by_cases fits : call.fits
      · rw [Call.effect, if_pos fits, Keyed.touchOwn (pairEdited call) (pairFresh call)] at found
        cases held : Keyed.lookup CounterpartyHistoryEntry.pair call.pair entries with
        | some old =>
            rw [held] at found
            obtain rfl := Option.some.inj found
            exact recordsEdited (kept.records held) call
        | none =>
            rw [held] at found
            obtain ⟨room, made⟩ := Option.ite_none_right_eq_some.mp found
            obtain rfl := Option.some.inj made
            have new : recorded call.pair calls = [] := (kept.absent held).resolve_right fun past =>
              past.elim (Nat.not_le_of_lt room) (Nat.not_lt_of_le (fitsShort fits))
            rw [new]
            exact recordsEdited (recordsFresh call) call
      · rw [Call.effect, if_neg fits] at found
        have short := kept.short entry (Keyed.lookupMem found)
        rw [Keyed.lookupKey found] at short
        have silent := (unfitCall fits).resolve_right (Nat.not_lt_of_le short)
        rw [silent, Option.toList_none, List.append_nil]
        exact kept.records found
    · rw [lookupEffect other] at found
      rw [recordedOther other]
      exact kept.records found
  absent := by
    intro pair none
    by_cases other : call.pair = pair
    · subst other
      rw [recordedOwn]
      by_cases fits : call.fits
      · rw [Call.effect, if_pos fits] at none ⊢
        rw [Keyed.touchOwn (pairEdited call) (pairFresh call)] at none
        cases held : Keyed.lookup CounterpartyHistoryEntry.pair call.pair entries with
        | some old => simp [held] at none
        | none =>
            rw [held] at none
            have full : ¬entries.length < historyMaxEntries := fun room => by simp [room] at none
            have longer := effectLength call entries
            rw [Call.effect, if_pos fits] at longer
            exact .inr (.inl ((Nat.le_of_not_lt full).trans longer))
      · rw [Call.effect, if_neg fits] at none ⊢
        rcases unfitCall fits with silent | long
        · rw [silent, Option.toList_none, List.append_nil]
          exact kept.absent none
        · exact .inr (.inr long)
    · rw [lookupEffect other] at none
      rw [recordedOther other]
      exact (kept.absent none).imp_right (.imp_left fun full => full.trans (effectLength call entries))

theorem keptRun (calls : List Call) : Kept calls (effects calls []) := by
  induction calls using List.reverseRecOn with
  | nil => exact keptStart
  | append_singleton rest call ih =>
      rw [effects, List.foldl_append]
      exact keptStep ih call

/-! Counts. -/

theorem countsKnown (outcomes : List LocalOutcome) :
    (outcomes.filter known).length = outcomes.count .successful + outcomes.count .incomplete := by
  induction outcomes with
  | nil => rfl
  | cons outcome rest ih =>
      cases outcome <;> simp [known, ih] <;> omega

theorem countFiltered {outcome : LocalOutcome} (isKnown : known outcome) (outcomes : List LocalOutcome) :
    (outcomes.filter known).count outcome = outcomes.count outcome := List.count_filter isKnown

def Counts (outcomes : List LocalOutcome) (entry : CounterpartyHistoryEntry) : Prop :=
  entry.encounterCount.toNat = outcomes.length ∧ settlementCount entry = outcomes.count .successful ∧
    incompleteCount entry = outcomes.count .incomplete

def WithinLimits (outcomes : List LocalOutcome) : Prop :=
  outcomes.length < 2 ^ 64 ∧ outcomes.count .successful + outcomes.count .incomplete ≤ historyMaxOutcomesPerEntry

theorem countsIff {outcomes : List LocalOutcome} {entry : CounterpartyHistoryEntry} (records : Records outcomes entry) :
    Counts outcomes entry ↔ WithinLimits outcomes := by
  unfold Counts WithinLimits settlementCount incompleteCount
  rw [records.1, records.2, UInt64.toNat_ofNat', ← countsKnown]
  constructor
  · intro counts
    obtain ⟨encounters, successes, failures⟩ := counts
    have allKnown : ((outcomes.filter known).take historyMaxOutcomesPerEntry).filter known =
        (outcomes.filter known).take historyMaxOutcomesPerEntry :=
      List.filter_eq_self.mpr fun outcome mem => (List.mem_filter.mp (List.mem_of_mem_take mem)).2
    have kept := countsKnown ((outcomes.filter known).take historyMaxOutcomesPerEntry)
    rw [allKnown, successes, failures, ← countsKnown, List.length_take] at kept
    have wrapped := Nat.mod_lt outcomes.length (show 0 < 2 ^ 64 by decide)
    exact ⟨by omega, by omega⟩
  · intro within
    rw [List.take_of_length_le within.2]
    exact ⟨Nat.mod_eq_of_lt within.1, countFiltered rfl outcomes, countFiltered rfl outcomes⟩

/-! What holds after any run. -/

structure Accounts (cipher : Cipher) (aeadKey : Aead.Key) (calls : List Call) : Prop where
  single : ((exec (object cipher) (create aeadKey) calls).history.entries.map CounterpartyHistoryEntry.pair).Nodup
  frame : ∀ call fingerprint mediatorId, call.pair ≠ (fingerprint, mediatorId) →
    (next (object cipher) (exec (object cipher) (create aeadKey) calls) call).history.find fingerprint mediatorId =
      (exec (object cipher) (create aeadKey) calls).history.find fingerprint mediatorId
  refused : ∀ fingerprint mediatorId,
    (exec (object cipher) (create aeadKey) calls).history.find fingerprint mediatorId = none →
    ∀ before call after, calls = before ++ call :: after → call.pair = (fingerprint, mediatorId) →
      ∃ text, object cipher call (exec (object cipher) (create aeadKey) before) =
        .error (invalid text) (exec (object cipher) (create aeadKey) before)
  counted : ∀ fingerprint mediatorId entry,
    (exec (object cipher) (create aeadKey) calls).history.find fingerprint mediatorId = some entry →
    (Counts (recorded (fingerprint, mediatorId) calls) entry ↔ WithinLimits (recorded (fingerprint, mediatorId) calls))
  displayed : ∀ fingerprint mediatorId entry,
    (exec (object cipher) (create aeadKey) calls).history.find fingerprint mediatorId = some entry →
    WithinLimits (recorded (fingerprint, mediatorId) calls) → entry.locallyBlocked = false →
    .incomplete ∈ recorded (fingerprint, mediatorId) calls →
    classifyForDisplay (some entry) = .previousIncompleteInteraction

theorem staysHeld {pair : Pair} (calls : List Call) {entries : List CounterpartyHistoryEntry}
    (gone : Keyed.lookup CounterpartyHistoryEntry.pair pair (effects calls entries) = none) :
    Keyed.lookup CounterpartyHistoryEntry.pair pair entries = none := by
  induction calls generalizing entries with
  | nil => exact gone
  | cons call rest ih =>
      have before : Keyed.lookup CounterpartyHistoryEntry.pair pair (call.effect entries) = none := ih gone
      by_cases other : call.pair = pair
      · subst other
        unfold Call.effect at before
        split at before
        · rw [Keyed.touchOwn (pairEdited call) (pairFresh call)] at before
          cases held : Keyed.lookup CounterpartyHistoryEntry.pair call.pair entries with
          | some old => simp [held] at before
          | none => rfl
        · exact before
      · rwa [lookupEffect other] at before

theorem historyAccounted (cipher : Cipher) (aeadKey : Aead.Key) (calls : List Call) : Accounts cipher aeadKey calls := by
  have kept := keptRun calls
  have entries := runEntries cipher aeadKey calls
  refine ⟨?single, ?frame, ?refused, ?counted, ?displayed⟩
  case single =>
    rw [entries]
    exact kept.single
  case frame =>
    intro call fingerprint mediatorId other
    rw [findIsLookup, findIsLookup, nextEffect]
    exact lookupEffect other _
  case refused =>
    intro fingerprint mediatorId gone before call after split own
    rw [findIsLookup, entries, split, effects, List.foldl_append, List.foldl_cons] at gone
    have here := staysHeld after gone
    rw [← own] at here
    refine refusedCall cipher ?_
    rw [runEffects]
    exact here
  case counted =>
    intro fingerprint mediatorId entry found
    rw [findIsLookup, entries] at found
    exact countsIff (kept.records found)
  case displayed =>
    intro fingerprint mediatorId entry found within free failed
    rw [findIsLookup, entries] at found
    have labels := (kept.records found).2
    rw [List.take_of_length_le (by rw [countsKnown]; exact within.2)] at labels
    have shown : .incomplete ∈ entry.outcomeLabels := by
      rw [labels]
      exact List.mem_filter.mpr ⟨failed, rfl⟩
    simp [classifyForDisplay, free, shown]

/- A counterparty with a long good record defaults, and still shows as settled. -/
section Dropped

def swindler : CounterpartyFingerprint := Vector.replicate 32 7

def meets (outcome : LocalOutcome) : Call where
  env := ⟨1700000000, .ok (Vector.replicate 12 0), .ok ()⟩
  fingerprint := swindler
  mediatorId := []
  change := .recordEncounter outcome 0

def longRecord : List Call := List.replicate historyMaxOutcomesPerEntry (meets .successful) ++ [meets .incomplete]

theorem effectAlone (outcome : LocalOutcome) {entry : CounterpartyHistoryEntry} (own : entry.pair = (swindler, [])) :
    (meets outcome).effect [entry] = [(meets outcome).edit entry] := by
  have fits : (meets outcome).fits = true := rfl
  have same : entry.pair = (meets outcome).pair := own
  rw [Call.effect, if_pos fits, Keyed.touch, if_pos same]

theorem effectsAlone (count : Nat) (outcome : LocalOutcome) {entry : CounterpartyHistoryEntry} (own : entry.pair = (swindler, []))
    (free : entry.locallyBlocked = false) : ∃ last, last.pair = (swindler, []) ∧ last.locallyBlocked = false ∧
      effects (List.replicate count (meets outcome)) [entry] = [last] := by
  induction count generalizing entry with
  | zero => exact ⟨entry, own, free, rfl⟩
  | succ count ih =>
      rw [List.replicate_succ, effects, List.foldl_cons, effectAlone outcome own]
      exact ih (by rwa [pairEdited]) free

theorem longRecordAlone : ∃ last, last.pair = (swindler, []) ∧ last.locallyBlocked = false ∧ effects longRecord [] = [last] := by
  have first : effects [meets .successful] [] = [(meets .successful).edit (meets .successful).fresh] := by
    have fits : (meets .successful).fits = true := rfl
    rw [effects, List.foldl_cons, List.foldl_nil, Call.effect, if_pos fits, historyMaxEntries, Keyed.touch]
  have split : longRecord = [meets .successful] ++ (List.replicate 4095 (meets .successful) ++ [meets .incomplete]) := rfl
  have new : ((meets .successful).edit (meets .successful).fresh).pair = (swindler, []) := by
    rw [pairEdited]
    rfl
  obtain ⟨long, own, free, ran⟩ := effectsAlone 4095 .successful new rfl
  have last : effects [meets .incomplete] [long] = [(meets .incomplete).edit long] := effectAlone .incomplete own
  refine ⟨(meets .incomplete).edit long, (pairEdited _ long).trans own, free, ?_⟩
  rw [split, effectsAppend, first, effectsAppend, ran, last]

theorem longRecordOutcomes : recorded (swindler, []) longRecord = List.replicate historyMaxOutcomesPerEntry LocalOutcome.successful ++ [LocalOutcome.incomplete] := by
  have own (outcome : LocalOutcome) : decide ((meets outcome).pair = (swindler, [])) = true := decide_eq_true rfl
  have all : longRecord.filter (fun call => call.pair = (swindler, [])) = longRecord := by
    refine List.filter_eq_self.mpr fun call mem => ?_
    rcases List.mem_append.mp mem with inside | inside
    · rw [List.eq_of_mem_replicate inside]
      exact own _
    · rw [List.mem_singleton.mp inside]
      exact own _
  have outcome (o : LocalOutcome) : (meets o).outcome = some o := rfl
  rw [recorded, all, longRecord, List.filterMap_append, List.filterMap_replicate_of_some (outcome _)]
  rfl

theorem outcomeDropped : ∃ entry,
    (exec (object Aead.chacha20Poly1305) (create (Vector.replicate 32 1)) longRecord).history.find swindler [] = some entry ∧
    (recorded (swindler, []) longRecord).count LocalOutcome.incomplete = 1 ∧ incompleteCount entry = 0 ∧
    classifyForDisplay (some entry) = DisplayCategory.previousSuccessfulInteraction := by
  obtain ⟨entry, own, free, alone⟩ := longRecordAlone
  have found : Keyed.lookup CounterpartyHistoryEntry.pair (swindler, []) (effects longRecord []) = some entry := by
    rw [alone, Keyed.lookup, List.find?_cons_of_pos (by simpa using own)]
  have labels := ((keptRun longRecord).records found).2
  have kept : ((List.replicate historyMaxOutcomesPerEntry LocalOutcome.successful ++ [LocalOutcome.incomplete]).filter known).take historyMaxOutcomesPerEntry =
      List.replicate historyMaxOutcomesPerEntry .successful := by
    have good : known .successful = true := rfl
    rw [List.filter_append, List.filter_replicate_of_pos good]
    exact List.take_left' List.length_replicate
  rw [longRecordOutcomes, kept] at labels
  have never : LocalOutcome.incomplete ∉ List.replicate historyMaxOutcomesPerEntry LocalOutcome.successful := fun mem =>
    LocalOutcome.noConfusion (List.eq_of_mem_replicate mem)
  refine ⟨entry, ?_, ?_, ?_, ?_⟩
  · rw [findIsLookup, runEntries, found]
  · rw [longRecordOutcomes, List.count_append, List.count_eq_zero_of_not_mem never]
    rfl
  · rw [incompleteCount, labels, List.count_eq_zero_of_not_mem never]
  · have good : LocalOutcome.successful ∈ entry.outcomeLabels := by
      rw [labels]
      exact List.mem_replicate.mpr ⟨by decide, rfl⟩
    rw [← labels] at never
    simp [classifyForDisplay, free, good, never]

end Dropped

end LocalCounterpartyHistory
end TradeP2P
