import TradeP2P.Hub.Outcome
import TradeP2P.Mediator.Signals

/-! Runs of a room. A joined offer or a record of the persistence file opens it, and every call made
on it after that finds what the calls before left, whether they returned or threw. -/
namespace TradeP2P
open Machine
open MediatorSession (Operation Step)

/- A room opened by a joined offer, with the session as it was before the join. -/
def Joined (session : MediatorSession) (entry : RoomEntry) : Prop :=
  ∃ offer joiningClient receiveAddressB fee requireFeeConfirmation feePosition,
    MediatorSession.construct ⟨offer.terms, offer.receiveAddressA⟩ offer.id fee requireFeeConfirmation feePosition =
      .ok session ∧
    RoomEntry.fromOffer offer joiningClient receiveAddressB fee requireFeeConfirmation feePosition = .ok entry

def Restored (entry : RoomEntry) : Prop :=
  ∃ persisted requireFeeConfirmation feePosition,
    RoomEntry.fromPersisted persisted requireFeeConfirmation feePosition = .ok entry

section Opening
variable {session : MediatorSession} {entry : RoomEntry}

theorem joinedConstructed (joined : Joined session entry) :
    ∃ creator roomId fee requireFeeConfirmation feePosition,
      MediatorSession.construct creator roomId fee requireFeeConfirmation feePosition = .ok session := by
  obtain ⟨offer, _, _, fee, confirm, feePosition, opened, _⟩ := joined
  exact ⟨_, offer.id, fee, confirm, feePosition, opened⟩

theorem joinedEntry (joined : Joined session entry) :
    entry = { id := session.roomId, partyA := entry.partyA, partyB := entry.partyB, session := entry.session } ∧
      ∃ message, Step session (.join message) entry.session := by
  obtain ⟨offer, client, address, fee, confirm, feePosition, opened, ok⟩ := joined
  have named := (MediatorSession.constructedTerms opened).2.1
  simp only [RoomEntry.fromOffer, opened, bind, Except.bind] at ok
  cases ran : MediatorSession.join ⟨offer.id, address⟩ session with
  | error e t => simp [ran, throw, throwThe, MonadExceptOf.throw] at ok
  | ok u t =>
    rw [ran] at ok
    cases ok
    exact ⟨by rw [named], _, MediatorSession.joinStep.mp ran⟩

theorem restoredEntry (restored : Restored entry) :
    entry = { id := entry.id, partyA := entry.partyA, partyB := entry.partyB, session := entry.session
              active := entry.active } := by
  obtain ⟨persisted, confirm, feePosition, ok⟩ := restored
  simp only [RoomEntry.fromPersisted, bind, Except.bind] at ok
  split at ok
  · contradiction
  · cases ok
    rfl

end Opening

namespace Hub

/- What a room keeps for good: who it is, and a session that only its own operations move. -/
structure Carries (room t : RoomEntry) : Prop where
  id : t.id = room.id
  partyA : t.partyA = room.partyA
  partyB : t.partyB = room.partyB
  session : ∃ operations, t.session = exec MediatorSession.perform room.session operations

section Steps
variable {hub : HubConfig} {env : HubEnv} {room t u : RoomEntry} {call : Call} {receipts : List IssuedReceipt}
  {closing : Bool}

theorem carriesRefl : Carries room room := ⟨rfl, rfl, rfl, [], rfl⟩

theorem Carries.trans (first : Carries room t) (second : Carries t u) : Carries room u := by
  obtain ⟨xs, before⟩ := first.session
  obtain ⟨ys, after⟩ := second.session
  exact ⟨second.id.trans first.id, second.partyA.trans first.partyA, second.partyB.trans first.partyB, xs ++ ys,
    by rw [after, before, exec_append]⟩

theorem stepCarried {op : Operation} {session : MediatorSession} (step : Step room.session op session) :
    ∃ operations, session = exec MediatorSession.perform room.session operations :=
  ⟨[op], (MediatorSession.acceptsIff.mpr step).next.symm⟩

theorem Outcome.carries (outcome : Outcome hub env room call t receipts closing) : Carries room t := by
  cases outcome with
  | unchanged => exact carriesRefl
  | announced clientId message party member => cases party <;> exact ⟨rfl, rfl, rfl, [], rfl⟩
  | moved _ op session since drives active step => exact ⟨rfl, rfl, rfl, stepCarried step⟩
  | gated clientId message party session receipt active step => exact ⟨rfl, rfl, rfl, stepCarried step⟩
  | settled _ op session receipt drives active step => exact ⟨rfl, rfl, rfl, stepCarried step⟩
  | unsettled _ op session drives active step => exact ⟨rfl, rfl, rfl, stepCarried step⟩
  | aborted _ operations active => exact ⟨rfl, rfl, rfl, operations, rfl⟩

/- An inactive room is past: only keys are still noted in it. -/
structure Rests (room t : RoomEntry) (receipts : List IssuedReceipt) (closing : Bool) : Prop where
  active : t.active = false
  session : t.session = room.session
  receipts : receipts = []
  closing : closing = false

theorem Outcome.rests (outcome : Outcome hub env room call t receipts closing) (inactive : room.active = false) :
    Rests room t receipts closing := by
  cases outcome with
  | unchanged => exact ⟨inactive, rfl, rfl, rfl⟩
  | announced clientId message party member => cases party <;> exact ⟨inactive, rfl, rfl, rfl⟩
  | moved _ op session since drives active => simp [inactive] at active
  | gated clientId message party session receipt active => simp [inactive] at active
  | settled _ op session receipt drives active => simp [inactive] at active
  | unsettled _ op session drives active => simp [inactive] at active
  | aborted _ operations active => simp [inactive] at active

end Steps

theorem runCarries (hub : HubConfig) (s : Room) (calls : List (HubEnv × Call)) :
    Carries s.entry (exec (perform hub) s calls).entry := by
  refine exec_history (I := fun _ (t : Room) => Carries s.entry t.entry) carriesRefl ?_ calls
  intro done call before
  obtain ⟨closing, new, _, outcome, _⟩ := performDoes hub call.1 call.2 (exec (perform hub) s done)
  exact before.trans outcome.carries

/- The session of a joined room is always one its construction leads to. -/
theorem joinedRun (hub : HubConfig) {session : MediatorSession} {entry : RoomEntry} (joined : Joined session entry)
    (calls : List (HubEnv × Call)) :
    ∃ operations, (exec (perform hub) { entry } calls).entry.session = exec MediatorSession.perform session operations := by
  obtain ⟨_, message, step⟩ := joinedEntry joined
  obtain ⟨operations, reached⟩ := (runCarries hub { entry } calls).session
  have start : entry.session = next MediatorSession.perform session (.join message) :=
    (MediatorSession.acceptsIff.mpr step).next.symm
  exact ⟨.join message :: operations, by rw [reached, start, exec_cons]⟩

end Hub
end TradeP2P
