import TradeP2P.Hub.Order

/-! What a client shows while the frames of a room come in order. -/
namespace TradeP2P
open DashboardClient

def RoomFrame.EndsRoom : RoomFrame → Prop
  | .told (.complete _) | .told (.abort _) => True
  | _ => False

def SameLeg (turn : TurnMessage) (message : RoundSignalMessage) : Prop :=
  turn.isFee = false ∧ turn.roundIndex = message.roundIndex ∧ turn.sender = message.sender

/- Once the end of a room was seen it is not shown as active again. -/
def NeverRevives (queue : List RoomFrame) : Prop :=
  ∀ seen, seen <+: queue → (∃ frame ∈ seen, frame.EndsRoom) → ∃ view, shown seen = some view ∧ view.status ≠ .active

/- While a turn is current, a Sent of it that was seen is shown. -/
def NeverForgets (queue : List RoomFrame) : Prop :=
  ∀ seen, seen <+: queue → ∀ view turn message, shown seen = some view → view.hasTurn = true → view.turn = some turn →
    .told (.sent message) ∈ seen → SameLeg turn message → view.peerSentThisTurn = true

section Folding
variable {first : Party} {frame : RoomFrame} {seen : List RoomFrame} {view : RoomView}

theorem shownSnoc : shown (seen ++ [frame]) = handleFrame (shown seen) frame := by
  simp [shown, List.foldl_append]

structure SameTurn (view view' : RoomView) : Prop where
  status : view'.status = view.status
  hasTurn : view'.hasTurn = view.hasTurn
  turn : view'.turn = view.turn
  sent : view'.peerSentThisTurn = view.peerSentThisTurn

/- A frame that does not matter for the order leaves the turn and the status as they are. -/
theorem looseShown (loose : frame.standing first = .loose) (known : Option RoomView) :
    handleFrame known frame = none ∧ known = none ∨
      ∃ view, handleFrame known frame = some view ∧ SameTurn (known.getD {}) view := by
  cases frame with
  | tradeReady message => simp [RoomFrame.standing] at loose
  | relayed message =>
      cases message with
      | receiptDisclosure message =>
          cases known with
          | none => exact .inl ⟨rfl, rfl⟩
          | some view => exact .inr ⟨view, rfl, rfl, rfl, rfl, rfl⟩
      | _ => exact .inr ⟨_, rfl, rfl, rfl, rfl, rfl⟩
  | told frame =>
      cases frame with
      | turn turn => simp [RoomFrame.standing] at loose
      | sent message => simp [RoomFrame.standing] at loose
      | complete roomId => simp [RoomFrame.standing] at loose
      | abort message => simp [RoomFrame.standing] at loose
      | received message =>
          cases known with
          | none => exact .inl ⟨rfl, rfl⟩
          | some view => exact .inr ⟨view, rfl, rfl, rfl, rfl, rfl⟩
      | _ => exact .inr ⟨_, rfl, rfl, rfl, rfl, rfl⟩

theorem endsRoom (first : Party) : frame.EndsRoom ↔ frame.standing first = .final := by
  cases frame with
  | told frame => cases frame <;> simp [RoomFrame.EndsRoom, RoomFrame.standing]
  | _ => simp [RoomFrame.EndsRoom, RoomFrame.standing]

theorem endShown (ends : frame.EndsRoom) (known : Option RoomView) :
    ∃ view, handleFrame known frame = some view ∧ view.status ≠ .active ∧ view.hasTurn = false := by
  cases frame with
  | told frame =>
      cases frame with
      | complete roomId => exact ⟨_, rfl, by simp, rfl⟩
      | abort message => exact ⟨_, rfl, by simp, rfl⟩
      | _ => exact ends.elim
  | _ => exact ends.elim

theorem sentBeforeTurn {turn : TurnMessage} {message : RoundSignalMessage} (same : SameLeg turn message) :
    ¬((RoomFrame.told (.sent message)).standing first).mayPrecede ((RoomFrame.told (.turn turn)).standing first) = true := by
  obtain ⟨noFee, round, sender⟩ := same
  simp [RoomFrame.standing, Standing.mayPrecede, noFee, round, sender]

theorem InOrder.last (ordered : InOrder first (seen ++ [frame])) {earlier : RoomFrame} (mem : earlier ∈ seen) :
    (earlier.standing first).mayPrecede (frame.standing first) = true :=
  (List.pairwise_append.mp ordered).2.2 earlier mem frame (List.mem_singleton.mpr rfl)

theorem InOrder.front (ordered : InOrder first (seen ++ [frame])) : InOrder first seen :=
  (List.pairwise_append.mp ordered).1

theorem endedShown (ordered : InOrder first seen) (ended : ∃ frame ∈ seen, frame.EndsRoom) :
    ∃ view, shown seen = some view ∧ view.status ≠ .active := by
  induction seen using List.reverseRecOn with
  | nil => simp at ended
  | append_singleton seen frame ih =>
      rw [shownSnoc]
      by_cases now : frame.EndsRoom
      · obtain ⟨view, shows, over_, _⟩ := endShown now (shown seen)
        exact ⟨view, shows, over_⟩
      · obtain ⟨earlier, mem, ends⟩ := ended
        have before : earlier ∈ seen := by
          rcases List.mem_append.mp mem with before | last
          · exact before
          · rw [List.mem_singleton.mp last] at ends
            exact absurd ends now
        obtain ⟨view, shows, over_⟩ := ih ordered.front ⟨earlier, before, ends⟩
        have follows := ordered.last before
        rw [endsRoom first] at ends now
        rw [ends] at follows
        have loose : frame.standing first = .loose := by
          cases standing : frame.standing first with
          | loose => rfl
          | final => exact absurd standing now
          | ready => simp [standing, Standing.mayPrecede] at follows
          | placed n => simp [standing, Standing.mayPrecede] at follows
        rcases looseShown loose (shown seen) with ⟨_, none⟩ | ⟨view', shows', same⟩
        · simp [shows] at none
        · rw [shows] at same
          exact ⟨view', shows', by rw [same.status]; exact over_⟩

theorem sentShown (ordered : InOrder first seen) {turn : TurnMessage} {message : RoundSignalMessage}
    (shows : shown seen = some view) (has : view.hasTurn = true) (current : view.turn = some turn)
    (mem : .told (.sent message) ∈ seen) (same : SameLeg turn message) : view.peerSentThisTurn = true := by
  induction seen using List.reverseRecOn generalizing view with
  | nil => simp at mem
  | append_singleton seen frame ih =>
      rw [shownSnoc] at shows
      have before (other : frame ≠ .told (.sent message)) : .told (.sent message) ∈ seen := by
        rcases List.mem_append.mp mem with before | last
        · exact before
        · exact absurd (List.mem_singleton.mp last).symm other
      have later (loose : frame.standing first = .loose) (other : frame ≠ .told (.sent message)) :
          view.peerSentThisTurn = true := by
        rcases looseShown loose (shown seen) with ⟨none, _⟩ | ⟨view', shows', same'⟩
        · simp [none] at shows
        · obtain rfl := Option.some.inj (shows.symm.trans shows')
          cases known : shown seen with
          | none =>
              rw [known] at same'
              simp [same'.hasTurn] at has
          | some old =>
              rw [known] at same'
              rw [same'.sent]
              exact ih ordered.front known (by rw [← same'.hasTurn]; exact has) (by rw [← same'.turn]; exact current)
                (before other)
      cases frame with
      | tradeReady ready =>
          cases shows
          simp at has
      | relayed message => exact later rfl (by simp)
      | told frame =>
          cases frame with
          | sent message =>
              cases shows
              rfl
          | turn turn' =>
              cases shows
              cases current
              exact absurd (ordered.last (before (by simp))) (sentBeforeTurn same)
          | complete roomId =>
              cases shows
              simp at has
          | abort message =>
              cases shows
              simp at has
          | _ => exact later rfl (by simp)

theorem InOrder.sees (ordered : InOrder first seen) {front : List RoomFrame} (sees : front <+: seen) :
    InOrder first front :=
  List.Pairwise.sublist sees.sublist ordered

theorem neverRevives (ordered : InOrder first seen) : NeverRevives seen :=
  fun _ sees ended => endedShown (ordered.sees sees) ended

theorem neverForgets (ordered : InOrder first seen) : NeverForgets seen :=
  fun _ sees _ _ _ shows has current mem same => sentShown (ordered.sees sees) shows has current mem same

end Folding
end TradeP2P
