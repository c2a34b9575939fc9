import TradeP2P.Hub.Runs

/-! When a closed room is a finished trade. Three paths close a room, and each decides for itself
that the trade is over; the session alone knows. -/
namespace TradeP2P
open Machine
open MediatorSession (Operation Step)

/- The outside has been told of a settlement: by a receipt, a broadcast or a price tick. -/
def Room.Closed (room : Room) : Prop := ∃ effect ∈ room.effects, effect.closes = true

def Room.AwaitsFee (room : Room) (roomId : RoomId) : Prop :=
  room.listed = true ∧ roomId = room.entry.id ∧ room.entry.active = true ∧
    room.entry.session.state = .waitingForFeeConfirmation

namespace Hub

/- The operator confirms a fee that was charged before rounds still to come. -/
def ConfirmsEarlyFee (room : Room) : Call → Prop
  | .confirmFee roomId => room.AwaitsFee roomId ∧ room.entry.session.feePosition ≠ .afterLastRound
  | _ => False

section Steps
variable {hub : HubConfig} {env : HubEnv} {s t : Room} {call : Call} {roomId : RoomId} {closing : Bool}

/-! Fee confirmations. -/

theorem otherwiseIdle (other : ¬s.AwaitsFee roomId) : next (perform hub) s (env, .confirmFee roomId) = s := by
  have idle : tryConfirmFeeLocked hub env roomId s = .ok false s := by
    unfold tryConfirmFeeLocked
    rw [bind_run, get_run]
    exact congrFun (if_neg other) s
  simp only [next, perform, bind_run, idle, pure_run]

theorem confirmEnsures (hub : HubConfig) (env : HubEnv) (awaits : s.AwaitsFee roomId) :
    Ensures (tryConfirmFeeLocked hub env roomId) s
      (fun _ t => t.entry = { s.entry with session := s.entry.session.inState s.entry.session.onceFeeSettled, active := false })
      (fun _ t => t.entry = { s.entry with session := s.entry.session.inState s.entry.session.onceFeeSettled, active := false }) := by
  have waiting := awaits.2.2.2
  have confirms : MediatorSession.confirmFeeReceived s.entry.session =
      .ok () (s.entry.session.inState s.entry.session.onceFeeSettled) :=
    MediatorSession.confirmFeeReceivedStep.mpr (.confirmed waiting)
  have session : onSession MediatorSession.confirmFeeReceived s =
      .ok () { s with entry := { s.entry with session := s.entry.session.inState s.entry.session.onceFeeSettled } } := by
    simp only [onSession, confirms]
  unfold tryConfirmFeeLocked
  rw [ensuresBind, ensuresGet, ensuresIte]
  refine ⟨fun _ => ?_, fun other => absurd awaits other⟩
  rw [ensuresBind, Ensures, session]
  dsimp only
  rw [ensuresBind]
  refine (settleEnsures _).weaken ?_ ?_
  · intro receipt t _ settled
    rw [ensuresBind, settled.2]
    exact (emitsAnnounceCompletion receipt _).weaken (fun _ _ _ grows => grows.entry) (fun _ _ _ grows => grows.entry)
  · intro _ t _ left
    rw [left]

theorem confirmedEntry (awaits : s.AwaitsFee roomId) :
    (next (perform hub) s (env, .confirmFee roomId)).entry =
      { s.entry with session := s.entry.session.inState s.entry.session.onceFeeSettled, active := false } := by
  have ensures := confirmEnsures hub env awaits
  unfold Ensures at ensures
  simp only [next, perform, bind_run]
  cases ran : tryConfirmFeeLocked hub env roomId s with
  | ok settled t => simpa only [ran, pure_run] using ensures
  | error e t => simpa only [ran] using ensures

/-! One call. -/

theorem Does.isClosing (does : Does hub env s call closing t) (before : ¬s.Closed) (after : t.Closed) :
    closing = true := by
  obtain ⟨new, effects, _, still⟩ := does
  obtain ⟨effect, mem, closes⟩ := after
  by_contra stays
  rw [effects, List.mem_append] at mem
  cases mem with
  | inl old => exact before ⟨effect, old, closes⟩
  | inr fresh => simp [still (by simpa using stays) effect fresh] at closes

theorem Does.keepsOpen (does : Does hub env s call false t) (before : ¬s.Closed) : ¬t.Closed := by
  intro after
  have closing := does.isClosing before after
  contradiction

/- A call that closes a room ends its session, or confirms its fee. -/
theorem Does.closes (does : Does hub env s call true t) :
    t.entry.active = false ∧ (t.entry.session.state = .complete ∨ ∃ roomId, call = .confirmFee roomId) := by
  obtain ⟨new, _, outcome, _⟩ := does
  generalize new.filterMap Effect.receipt? = receipts at outcome
  generalize t.entry = room at outcome ⊢
  cases outcome with
  | settled _ op session receipt drives active step final =>
    refine ⟨rfl, ?_⟩
    cases final with
    | inl complete => exact .inl complete
    | inr confirms =>
      subst confirms
      cases call with
      | confirmFee roomId => exact .inr ⟨roomId, rfl⟩
      | sent clientId message => simp [Drives] at drives
      | received clientId message => simp [Drives] at drives
      | receiptAck clientId message => simp [Drives] at drives
      | _ => exact drives.elim

/-! Runs. -/

structure SettledSoFar (s : Room) (sound : Prop) : Prop where
  whileActive : s.entry.active = true → sound ∧ ¬s.Closed
  onceClosed : s.Closed → s.entry.active = false ∧ (s.entry.session.state = .complete ↔ sound)

theorem settledStep {sound : Prop} (settled : SettledSoFar s sound) :
    SettledSoFar (next (perform hub) s (env, call)) (sound ∧ ¬ConfirmsEarlyFee s call) := by
  obtain ⟨closing, does⟩ := performDoes hub env call s
  generalize left : next (perform hub) s (env, call) = t at does
  by_cases active : s.entry.active = true
  · obtain ⟨holds, open_⟩ := settled.whileActive active
    by_cases early : ConfirmsEarlyFee s call
    · cases call with
      | confirmFee roomId =>
        have entry : t.entry = _ := left ▸ confirmedEntry early.1
        have stays : s.entry.session.onceFeeSettled = .waitingForSent := by
          simp [MediatorSession.onceFeeSettled, early.2]
        exact ⟨by simp [entry], by simp [entry, early, stays]⟩
      | _ => exact early.elim
    · cases closing with
      | false =>
        have still := does.keepsOpen open_
        exact ⟨fun _ => ⟨⟨holds, early⟩, still⟩, fun closed => absurd closed still⟩
      | true =>
        obtain ⟨inactive, ends⟩ := does.closes
        refine ⟨by simp [inactive], fun closed => ⟨inactive, ?_⟩⟩
        simp only [holds, early, not_false_eq_true, and_self, iff_true]
        cases ends with
        | inl complete => exact complete
        | inr confirms =>
          obtain ⟨roomId, rfl⟩ := confirms
          by_cases awaits : s.AwaitsFee roomId
          · have last : s.entry.session.feePosition = .afterLastRound := by
              by_contra other
              exact early ⟨awaits, other⟩
            have entry : t.entry = _ := left ▸ confirmedEntry awaits
            simp [entry, MediatorSession.onceFeeSettled, last]
          · rw [otherwiseIdle awaits] at left
            exact absurd (left ▸ closed) open_
  · have inactive : s.entry.active = false := by simpa using active
    have late : ¬ConfirmsEarlyFee s call := by
      intro early
      cases call with
      | confirmFee roomId => exact active early.1.2.2.1
      | _ => exact early
    obtain ⟨new, effects, outcome, quiet⟩ := does
    have rests := outcome.rests inactive
    refine ⟨by simp [rests.active], fun closed => ?_⟩
    have before : s.Closed := by
      by_contra open_
      exact Does.keepsOpen ⟨new, effects, rests.closing ▸ outcome, fun _ => quiet rests.closing⟩ open_ closed
    simpa [rests.active, rests.session, late] using (settled.onceClosed before).2

end Steps

theorem runSettled (hub : HubConfig) (entry : RoomEntry) (calls : List (HubEnv × Call)) :
    SettledSoFar (exec (perform hub) { entry } calls)
      (Throughout (perform hub) (fun s e => ¬ConfirmsEarlyFee s e.2) { entry } calls) := by
  refine exec_history (I := fun done (t : Room) => SettledSoFar t
    (Throughout (perform hub) (fun s e => ¬ConfirmsEarlyFee s e.2) { entry } done)) ?_ ?_ calls
  · exact ⟨fun _ => ⟨trivial, by simp [Room.Closed]⟩, by simp [Room.Closed]⟩
  · intro done call before
    rw [throughout_snoc]
    exact settledStep before

/- With no early fee, or none the operator wants to confirm, the question never comes up. -/
theorem noEarlyConfirmation (hub : HubConfig) {session : MediatorSession} {entry : RoomEntry}
    (joined : Joined session entry)
    (ordinary : session.fee.amount = 0 ∨ session.feePosition = .afterLastRound ∨ session.requireFeeConfirmation = false)
    (calls : List (HubEnv × Call)) :
    Throughout (perform hub) (fun s e => ¬ConfirmsEarlyFee s e.2) { entry } calls := by
  refine throughout_of (fun done e early => ?_) calls
  obtain ⟨operations, reached⟩ := joinedRun hub joined done
  obtain ⟨_, _, _, _, _, opened⟩ := joinedConstructed joined
  cases call : e.2 with
  | confirmFee roomId =>
    rw [call, ConfirmsEarlyFee] at early
    have waiting := early.1.2.2.2
    rw [reached] at waiting
    have asked := MediatorSession.confirmationAsked opened operations waiting
    have place := early.2
    rw [reached, (MediatorSession.runSame operations).feePosition] at place
    rcases ordinary with free | last | trusting
    · exact MediatorSession.noFee.mp free asked.1
    · exact place last
    · simp [asked.2] at trusting
  | _ => simp [call, ConfirmsEarlyFee] at early

/- A closed room is a finished trade exactly when the operator confirmed no early fee on the way:
then a joined room's session has done everything its trade consists of. -/
theorem closedRoomsComplete (hub : HubConfig) (entry : RoomEntry) (calls : List (HubEnv × Call))
    (closed : (exec (perform hub) { entry } calls).Closed) :
    let room := exec (perform hub) { entry } calls
    room.entry.active = false ∧
    (room.entry.session.state = .complete ↔
      Throughout (perform hub) (fun s e => ¬ConfirmsEarlyFee s e.2) { entry } calls) ∧
    ∀ session, Joined session entry →
      (room.entry.session.state = .complete → ∃ operations,
        room.entry.session = exec MediatorSession.perform session operations ∧
        (log MediatorSession.perform session operations).filterMap MediatorSession.task = session.plan.agenda) ∧
      (session.fee.amount = 0 ∨ session.feePosition = .afterLastRound ∨ session.requireFeeConfirmation = false →
        room.entry.session.state = .complete) := by
  intro room
  obtain ⟨inactive, exact_⟩ := (runSettled hub entry calls).onceClosed closed
  refine ⟨inactive, exact_, fun session joined => ⟨fun complete => ?_, fun ordinary => ?_⟩⟩
  · obtain ⟨operations, reached⟩ := joinedRun hub joined calls
    obtain ⟨_, _, _, _, _, opened⟩ := joinedConstructed joined
    exact ⟨operations, reached, MediatorSession.completedAgenda opened operations (reached ▸ complete)⟩
  · exact exact_.mpr (noEarlyConfirmation hub joined ordinary calls)

/- The small trade with its fee before the first round: both parties announce their keys, A reports
the fee, and the operator confirms it. The digest, keys and signatures are the library's, for the
seeds and the randomness written here. -/
section Swap
open MediatorSession (swapCreator swapRoom swapFee swapAddressB swap swapOpened)

-- Bytes, 64 to a number.
def dump (n : Nat) (words : List Nat) : Vector UInt8 n :=
  Vector.ofFn fun i => UInt8.ofNat (words.getD (i.val / 64) 0 >>> (8 * (63 - i.val % 64)))

def swapTermsHash : Vector UInt8 32 :=
  #v[0x17, 0x11, 0x40, 0xf7, 0xaf, 0x1e, 0x88, 0x91, 0xc4, 0x1e, 0x58, 0x05, 0x54, 0x8a, 0x2a, 0x84,
     0xa1, 0xb8, 0x9c, 0x4c, 0x9c, 0xf9, 0x03, 0x39, 0x0c, 0x56, 0x42, 0x40, 0xf4, 0xc0, 0x2b, 0x0f]

def swapMediatorKey : Ed25519PublicKey :=
  #v[0x8a, 0x88, 0xe3, 0xdd, 0x74, 0x09, 0xf1, 0x95, 0xfd, 0x52, 0xdb, 0x2d, 0x3c, 0xba, 0x5d, 0x72,
     0xca, 0x67, 0x09, 0xbf, 0x1d, 0x94, 0x12, 0x1b, 0xf3, 0x74, 0x88, 0x01, 0xb4, 0x0f, 0x6f, 0x5c]

def swapSignature : Ed25519Signature :=
  #v[0xce, 0xc6, 0x4b, 0x14, 0x57, 0xee, 0xb2, 0xbe, 0x7d, 0x4b, 0xdb, 0x5e, 0x9b, 0x37, 0x84, 0xec,
     0x87, 0xfe, 0xa1, 0xef, 0x9c, 0x89, 0x6d, 0xa1, 0x67, 0xe7, 0x3d, 0x39, 0x7c, 0xcb, 0x32, 0x1a,
     0x74, 0xb8, 0xb9, 0x81, 0x82, 0xcc, 0x26, 0x33, 0x8c, 0x8f, 0xc5, 0xce, 0x46, 0x8b, 0x59, 0xf0,
     0xd3, 0xad, 0x86, 0x0b, 0x00, 0x9b, 0x93, 0x19, 0xe4, 0x7b, 0x66, 0x3c, 0xba, 0x7d, 0xd0, 0x0b]

def swapMediatorKeyMldsa65 : MlDsa65PublicKey := dump 1952
  [0x424b2f267e58d5b3b44d71acfc6a656bb26950d57c61db1c880bcfa1feab443f0942ab8bdbad7d708abbc356078f6d99a252271fe62c74091eb94afb9b9264c5,
   0x0a888e0dfed80cd5fb2cbd3667e60d539ebe44930219cd4faed15dbb3455a264802b9f49bce42ee7550feffdd4642a55ade693868a460cbec03f4fc99a4e30bc,
   0xcffa8a475e5395396674ebb81a94937587880f6dbd27bf1c4f5a9ee43cdd8b0e53b3b7fb49c73adfbc2d4f8c54303520c29bf97e26ee57db342d957c89393652,
   0x2d0942b41d82ee3772a00570adfb545c1143922b0496f826a0a970064b36ddf534b5f8e1c1cd0b5565ea846b45431f0618143ece89777bb3f61179ad20295fe0,
   0xa6e062ae6eecbc2ef38f2ac1a22dc93b7b126336223c55b61eb8c0795542bbb2dc65e722eadc6866ffa9683beb8a999ad7a83e5e6e016c2e4c35f6f7649ad3bd,
   0x52ec67ec1c5c6e7b9972771218be9554bba7727f0b84c44b9b0a8bd831fcff2c9779ccd4ca30c6ad75b04983e41de893ee5f39ea7355180b709c7045c22d33a0,
   0x83f6ae07a114746d1bfdccbee5b9043879bb5a2e120e2a4636283f4a1cd4924a2de6a4aa3d99ddd88f48aaa4e88bfd1ea769d82c10779f2ded796db542971ca2,
   0x89b76863ede5997b7e9ce183b43ccec278b10d92b87442ce0435bb1625171db5554b470239c50d2a0c3a41b2a38807db070b47bfb3e7d10f3cd979d69963c8d7,
   0x9f8029cc4a48eb04fcb3d708844febaa8b6ddff01ab64d59358e6505c4ec1d7cbb14ed2212df458ecefc03fe03037b1505a4c9444322f5f98dfa91a4cb8c4586,
   0x0a2dadc7515350bb6d431e49a6bc8f5ba956e682b0e513321a97d1962602891c9078f62a8a9646a31387a6f09684264837899e0d8ec7d11c565901298b20b345,
   0x081690eb4c562c1aa3a25bef06566cb34c79bc0b25e4095d6ba793e81311e41a3329152686f00d4897f84fc4edf4b26d545365785ead8d63aef64a87c0b91a2e,
   0x5500383956cdf5f6e37cf9d5482d1c8e3a5be38f17259ac45c9fa1c4bd3bf177d312ee52a6da023c05722a8738274dda8d1b04e99831cf57c87282a256c565c2,
   0x96d0524a063a3a41a48a83009978d98d8abf61af68e8013b594fe151d9bec199902c4c70b49584201743c6b53103d2fd24bdf078dc90b5a188b4f8d772179988,
   0xd0416c94d4c57c0860b9d7b53d4cd261f332a1851565d52ac37f008747cafe320f363d9beb6e4117db43fd8aeebe5e0ce2f54e3f0367eb3cc971bbe0c301a8e5,
   0x2f96094936035c6ee3ca2d13db483a0dd04dc16247de0e0894ad7cb7e1ae7ebd4f8f900582b20021e77f70254501c6ac3dd15d43bbb7931c5283244312158c2e,
   0xb1b3e1117e194f0a1e4c783efbc62c9f81c21562d0d34a5f042b5eaaf32f31f95c5b055f4e7a2070fb096f56c415549cde74f3864e8b9fc27e3299724b463998,
   0x6044b55928fd6972785b280c25a3e21aab814ecbfb0c3cbec0914907ec907f25a1d88bce3d319ae8222a35945db62af7cc75cd29c1f5d98fcb93f750dc303107,
   0x6979bb51dfc37d23e8eea78073a24d3e26c68e7bb10e459f2577b90080359ae0aec10318dcd9e0f9e34029c31b3e54b1855645db420618783346dad5b55eddb4,
   0xf977b326a655525ebe2195eca9cec38a3c0d2273b77d3e68f1901c2ca5149734a51177bcb089476b18cba09fa8b9b46d94a2946f358e1decb1998652c58a9085,
   0x2423e2c85e79d19724461627e6390d1a81fb1a72f9c7edc4bd747dd5c85217b5856141028414ddbe71458f0a0b2b589df2e1b051783b8f718676b1defbae98ba,
   0x496c2a935e92eeadea0a8393ef59f9e914f0743fe65640ddf9981cea6dbdd957a534ad4e790efc974ee89938ad99d53c5b680775399326834729bb37b082e795,
   0xf8d87f52e6c8a8db68e515c277bbea82a7570d4280896c987a0608903e306c632a223c55f0ea3682039c4a3f5440f4b5ac3e6ed2b2dc900cecc72b72f50e49b2,
   0x629ad30f0487b2707b86286f8c4f55659b25f9bdd7a6af460cc3c57a3982663bb717461581e196894929d84153d87a7f482d284b5b894ce1a78216b2a011f2b8,
   0x8742cee52d5133e8fe77edae242f5af91637c37ffca32430509b2fe4756303a9a3659fe32528af1e10d8d43bea991b2d109786cc66d35b1d78df254b92cdaa40,
   0xf91a987e4a922ca81050e5bc3530ca85493bdf2a825374d0a8310a6860284ec3ec732326eeeffc42bbd42bc91b73e5e7c6b599d016490637629f3876c3e42f8d,
   0xb590e66a85a7838c818f78fffb4853cbef09434989803545dca87657cf7c7e7e6afa71382bc10fa0bb6480f243eea1b861101006fa0cff3275621943cc58eb4d,
   0xc3a0428a5e425670fe82268de71c511d8ffbdc11b0d0f961120e971015ad5f448886b802e3fac11672319d487c84f1001339cb969784cb57344f2807f8b425f1,
   0xd73caf8496d742ed237f4c9fcd5a4e84fba7e27fb1a8ae12c4f0427ae24e910d951bd8c35d61f8a678db01caea8ef789a95b62ee1b8c5d32c6baa536ba88a107,
   0x0ea61aabbf59294e3f6f974c4c91cafc5bbf6b7ecfd57a18fb7557d71e06e900d281b0b49aa00feabb35714af33870edd7ac2393d93177f79ee5606c9df176f0,
   0x25ce49a6e5ff51a2a412ebf86ac0f40471c96ad4c119df230be6173df530ed656cbd8069214741ecdd0271c603fb6c4a8614ff878d33e726cac6693e938ca3fb,
   0xa82c4995c14a2d4af9014fe4c4c50b794cac596b52189f66a7106fb325b526ea0000000000000000000000000000000000000000000000000000000000000000]

def swapSignatureMldsa65 : MlDsa65Signature := dump 3309
  [0x5b618a9b1b3d2e7680473abc520559c73ffd4f980fe3af30b430838cf3dd7a8fb35eff2bb31e2d5097199b07ade251173531fb354855a9fd380e2a788fbf501b,
   0x5aa260adeb857125a50a8cf52dc73c8abbcba3ae81990ec149b03f4e8b2e6d3c7f54c7c67c1c4add0ed32c502161c0866327c2f12da5ff439599c523b1eb5602,
   0x59e7e83fb0d5e207980cbed53fb87eea96f8a376ffd8448fff27ad90fe41a104beb90368c693a9951fb054e22f21fa1b3b9d572d926e9748952a113c9a8f140a,
   0xfc96124f054cdf5bd7467f785da29d3904a46c97add7ab443dfd74ab7c0a074f088f38396d4f7d9d6dd96b1d8437f9f612e9b22647ef8df44fcb39a5cbfe3bee,
   0x15bb5fd32855242c6a08f820e652bbd3157122b95c816e6a69155ac8cc5df393d62d670e15992bfbeff1fb27d0d8a4b6398cbb109869a1c2d5613c82b2a27e80,
   0x1c26b0064a0c7b14ceecdb3aafb48e17148832c0fec4cc368dabd1bd0592faa93c7caaf62c31ce70abb56f12e8196e3fe84848c99d6ece0dc16fa75f7067bd57,
   0xe089c1d09ad947a53ffa3a19227ff1952d56379c9f704a693f14655758878956eda1351abab6ae4a15ca761928b581cf8c41ad2e7cbd0a5247280d2f32508a8a,
   0x9a55809ea6b64ee5dc4f63948b406a6c147bdde53f01da8f9a853abd43866b12d8240e772077cef5b778577f8a9b8ad4a3f7234c1c635893ed77e8b8902e5228,
   0xb07bdf566f227ddf9363aae9413dfb435fd988818ccbdce0bf9c863262bc8c8f8471becb60acea3cb285d291ed118f8174d92c8ca88d6fcae8e3e2a7099d8d10,
   0x969aefcfa46d2ecbac03b517a2a78fce61995089628c9d678d81aef682aee7bc4110fe72dbff626ff8b44ed2bb692c90d466dcff34a96707385691e502a6493d,
   0xa8b2c6942e4326fa2d005efd4ded98a7b71d0b7a0ccaaa40adf8988e2fb94e5d2304ea46a4aa795b62492f9ae45712ae6707dd17e3fb35c0a9e8796472c70ddd,
   0x0791fa3828c2548e458d254f2e19b84180affe1900d1fb47ef590c2d008e23888d2b21eeacd10d0efe405e255a296da171d171c8427ee9a015f9369aad32d5e1,
   0xea574366f3c9a39a9f72c74ffd19696a2c55839c93705f19b7ef292b631bdd4a7dceeaa24ea1f76c3da31d953591e8177497e50811581ce381636bb954db4bf5,
   0x1959c594892727715be74b661b9939a97b45e10f42fdf6dd33126e442c557996112ec364f95c58ec0fdf7931f6a22902c563ca8d2c3c49605cfcc1b30b5860c2,
   0xfeed35257a53b27585df05ec2f198f9d900401ca5f11e8193c65916cf9edadc3a97bdaef9f564f4c975ea1920ecb5c393ea33483c5270f4c89e4e333c3fab708,
   0x7f65f1a8f0d2265ad432e05f8b50d1988aa17daa5952419e976fffb42f37116197454ff2ea94597efbda22534fef0ba68c2970bee06b8d987e1429743e457258,
   0x32601360a4a1f7fc46c9934d30adc715f112f0f1f6c0373dc9294436ede4a4b20dca6433be751f867c7bb105e8b879c3fc988a65fe407759a90b0a43fd226028,
   0xbc7adaf20b1e0f36df5fe4809b1f0cb69b22b0627fa6e5494aca22335dda7a6ca3a8d9c3dd1b547f940c9bc2aa771c00586af6db740532d72d4f915cb19e4f46,
   0xe16601ae5f5fc00504617b77b61c16f8b128571f7c1b5d9a7acde46e79c174a8271c9d7f50c4954c290ee960c5b2c0a3dc378ce47cdd7f6dfb131898d5e310d7,
   0x018e36c43c6ee9ad859cb210ae3a2606833a4076ed772f4567efea8956558b57211102c93c9583685194ca42af83f526d4cd834e89439a373cf1e1909652d8db,
   0xdbfdd85e5d7225bd3f8c60bc1c99fed5341201098e9ece212f18d34576204598136196c0b8d39190a042bd6c4803721349b5c03790a237480cfe871c8427ce6f,
   0xbac6b9aee532b7f30df6336a0a58ef0aea8de6107c2818b6b35e7395dbdeb336cbce22233fc2abad8db85b6317496aa57425d2b233ff0bc764cba53c9c361afe,
   0xdd1c1845cd34964a4cb2954ac99d0db0888f8d10d16603a0db93cc821fbadd36d483c1dd63deb8e5c134a4bb55f7318c53104ca578ecc28675bd8b5fadd75509,
   0xe18920bf45600c69a30a114a7952d01710374aef6833268e116b0c5a5b63b9c093207fa69d4feae382d516bcfbc48d7fb5635feb1a8869861b29fa4b5938db0f,
   0xdf728a5da84eed42125c9ba1a0de02ae2a93e94bbd356772ddaf9055dc3977ee89613bbac18f1731a8c22d3d08aa15e816c883ec7549dba2d2ec70c3576a737d,
   0xfb3cce873f822921189ba619dbf0c459ab220db85fe378b57c04223e50ebcd633455d0525688ed66ab6eef706c93e2bdbab77f7dc3d99d1fc072742c2c7c8527,
   0x1cd0edeba437e21c273604c4fb0790fb3b3adc0ff974fc295294d876ee1ecb2be977390d18349dbf6fb4d9a19e90e34eeb198885f44082fdfb0c7cb609d6285a,
   0x40b14ab4a7db6d35b4365b457d4354fab14d0197346253c1101f74a935a2298669dbc1b6d7831d1daeda8842f10e281e188e03a5a5819c0b66653a084e50f9ec,
   0x1c4fb3c42c5ded7e5160c057ced8c579b23f6965c2d175e7f32eeb7fc9e44ddd91f8c35c93d4b82c315c0bec6d4fbbfb9d3670b6584243437cedcb77afc570f0,
   0x66070cd5a216fc742b325fba7194e496744e3bf684a5c92b71b4c8f5ec639db7fc290efb398faf1b190ffaf8e936d2bd92c08c35fb45e23d541e43d9a697c218,
   0x36eadcf49b8ac5a9beb1f06d159d023832a8171645689c0a94c587c143d78a9283952b37382577ce8de00eff270fe4f4597f155e8c6532763b02bbb41cb1dad0,
   0x0c6742dedcb8a7141847e25d16968cb61642d4568385626af04ef01b9fe5ef6c847259965ef34f90e4e2df7b019fb6241466844bad23f2befc1dd9203cc42b8c,
   0xf2f5d61ef1a7b5e8a8fbb69d965dcb3333408005c42a670334a9914bf95ec96a75942d853aff349c2560f35b60dd704bd521f997d15fe3860e4491fb6a8dfc80,
   0xeb12c606130a27f35371c8e96ffe79cdead9ae66d2b8f52b6061075bfa17032ee7360b7df8d65ba597879e23c09e759cc709b7b59ba404a7dea8f34801eea28b,
   0x58bf6fa9c4dd75041e19a424ef44803de52d75f0a6ff2ba2d33a46333a0acc3d34f2d99582fc5591c76a0262a17fb8a0dcebdf6e6616886621baeb62db800641,
   0xcc26d0a5f7c9804b2550bffa1cb3d734988fe6369c6c7f1c48825620eb1def4ebc9efa77e7ccf69ad198a27ced42440c290953f670802c9ad1d4f13cce30ca51,
   0x3f1fdbb42553ce40274e316298c00808f154917f8426d685cfb45c380381012853d28d153b756865d3bf9cf32db1e0ff43a804be94ccaa0f26a3b1f3af485e10,
   0x9e261d307e60f40b10c11422f2544d4c54e009176448dde288aada7d409285adac4d267450104174e1c86eaf5322e334a8dff9bab4189774837b7eca7525edbc,
   0x6f948d87dd44b64a4fc941e749c8ca05de10c84d425ee4df9f32220498b54c33b4ac7146351dd1c7c4ca9c40a7aa8c75e955f63ea47dc014f05c411a62e0c127,
   0x3db6bcfd5c830d2f83398d6a76f5b28492a0d5322a19e4bdbfa1da79116074614612d312f1c7d09a2b8cf515b4f752cb0511de01f46b6bdedd75281454ee7edc,
   0xf6dfb4cf0e4b42728efad81224759d31f56af26b54cf0b5a90d01c2716f2fceb791f74b8bfd9ae9b08d7a8ead6fc4034705911c3824a9f17012afa77baf0157b,
   0xc1a553adace4e69b51e659342ad73f39e991259a91c3275ce661f2d95741c9daecfcb01b9dcceaa7ae16abcd078086e2f728cb12388948882114eb9bce9e3c91,
   0x48be920a35e34be2f6070ab1b9f6ad1e67a8d6d99bfff6f8af71c2ba7c29e4c5327b3f84761b733a76d950642c865aac7d46c4fc8c9ba742514b80170ca04d35,
   0x698d2aed41460a4a1ea6b4deca850a45df4f0019c39d30618d88f5fd798b8db063894152d8bd7dab4b2e9184ab472dc85a7655977e69ce109851bda2f50521a0,
   0x66c54b62d71ae967288a1a7a1b11dd7f518cdbf19b1c2cba9c4d6822e6564a12873f8c3fcfeb0394bc2855e84f58687020908008f87884a3732438864530dc02,
   0xbbd0634203dab384303178593d21056864186677adbab8e37a5205f00b3116ef05cb8c0febe2da784375622b4d69ad72aa0f6e5b29b2f53b51992ad80e41325e,
   0x5d2a2123b53bb6cee39d75f564c432fb9b5f52bc30cf8a59c0259ca196815a91ffa7c5a640287347542a8d552f36f41738736d6c4b6808ec2fd1307a8bdba4d3,
   0xef7e459c8387546eb21ee645f2a644899d4c464a2c672702ddd8834137375220fd7cf7833c31cb2ad62348149611bd0f25d303859337d3daac5f51d0482f36aa,
   0xa3074298984ed8e60be178ff97a5653761d53c9bf2887a3cc2c6e818808ab097a582f4455ce74da224aef2e9c40afc88e866b95dc726f6c2c68f1c54f0849d44,
   0x60622cb8daff773b1e1c67e7d9a07e27adaf66ff93fb09d527ee45bb024bcecb397d2ee5528c60b459a0a80b3d3fd74871a539b46483ab47e8c0199a82e5dde3,
   0xc006b5a824e6ce063c1964863b949af67aa0f7e978e6c2f62d280a9e2e53ca3a7df30a5bd9efd38b97c251c889d2f7ce4264b4d55155ce2e90f27dee3f70a1c4,
   0xfd0552b1c3f5fd000000000000000000000000000000000000000000000000000000000000000004070a0c111700000000000000000000000000000000000000]

def swapHub : HubConfig where
  crypto := {
    sha256 := fun _ => swapTermsHash
    ed25519 := {
      publicKey := fun _ => swapMediatorKey
      sign := fun _ _ _ => .ok swapSignature
      verify := fun _ _ signature => .ok (signature == swapSignature) }
    mldsa65 := {
      publicKey := fun _ => swapMediatorKeyMldsa65
      sign := fun _ _ _ => .ok swapSignatureMldsa65
      verify := fun _ _ signature => .ok (signature == swapSignatureMldsa65) } }
  mediatorId := Wire.ascii "m"
  receiptSeed := Vector.replicate 32 1
  receiptSeedMldsa65 := Vector.replicate 32 0
  persists := false

def swapEnv : HubEnv where
  now := 1700000000
  nonce := .ok (Vector.replicate 16 7)
  entropy := List.replicate 32 0
  connected := fun _ => true

def swapClientA : ClientId := Vector.replicate 16 0x0a
def swapClientB : ClientId := Vector.replicate 16 0x0b

def swapEntry : RoomEntry where
  id := swapRoom
  partyA := swapClientA
  partyB := swapClientB
  session := (swap true .beforeFirstRound).joinedBy swapAddressB

theorem swapJoined : Joined (swap true .beforeFirstRound) swapEntry :=
  ⟨⟨swapRoom, swapClientA, swapCreator.terms, swapCreator.receiveAddressA⟩, swapClientB, swapAddressB, swapFee, true,
    .beforeFirstRound, swapOpened true .beforeFirstRound, by rfl⟩

def swapCalls : List (HubEnv × Call) :=
  [(swapEnv, .tradeEphemeralKey swapClientA ⟨swapRoom, Vector.replicate 32 0x0a, Vector.replicate 1952 0x0a⟩),
   (swapEnv, .tradeEphemeralKey swapClientB ⟨swapRoom, Vector.replicate 32 0x0b, Vector.replicate 1952 0x0b⟩),
   (swapEnv, .sent swapClientA ⟨swapRoom, 0, .a⟩),
   (swapEnv, .confirmFee swapRoom)]

def swapLeft : Room := exec (perform swapHub) { entry := swapEntry } swapCalls

theorem swapCloses : swapLeft.Closed := by
  have told : swapLeft.effects.any Effect.closes = true := by decide +kernel
  exact List.any_eq_true.mp told

theorem swapClosedEarly :
    Joined (swap true .beforeFirstRound) swapEntry ∧ swapLeft.Closed ∧
      swapLeft.entry.session.state = .waitingForSent ∧ swapLeft.entry.session.roundIndex = 0 :=
  ⟨swapJoined, swapCloses, by decide +kernel, by decide +kernel⟩

theorem swapClosed :
    swapLeft.entry.active = false ∧ (swapLeft.entry.session.state = .complete ↔
      Throughout (perform swapHub) (fun s e => ¬ConfirmsEarlyFee s e.2) { entry := swapEntry } swapCalls) := by
  obtain ⟨inactive, exact_, _⟩ := closedRoomsComplete swapHub swapEntry swapCalls swapCloses
  exact ⟨inactive, exact_⟩

end Swap
end Hub
end TradeP2P
