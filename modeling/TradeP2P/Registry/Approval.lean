import TradeP2P.Registry.Refresh

/-! What the operator approved, or a trusted peer brought, is what the registry lists, as long as no
untrusted peer puts another pin in the place of an approved one. -/
namespace TradeP2P
open Wire (Bytes ascii)
open Checks Machine

/- A node as it is kept when a peer lists it. -/
def RegistryPeer.brings (peer : RegistryPeer) (node : RegistryNode) : RegistryNode :=
  { node with sourceRegistry := peer.key }

namespace RegistryServer

/- A registry, with what its operator approved and what its trusted peers listed so far. -/
structure Watched where
  server : RegistryServer := {}
  approved : List RegistryNode := []
  trusted : List RegistryNode := []

def approval (config : RegistryConfig) (server : RegistryServer) : Call → Option RegistryNode
  | .admin _ line => match parseAdminLine config line with
      | .ok (.moderate true key) => ((server.entries.lookup key).or (server.gossipEntries.lookup key)).map (·.node)
      | _ => none
  | _ => none

def brought : Call → List RegistryNode
  | .pulled peer _ nodes => if peer.autoTrust then nodes.map (RegistryPeer.brings peer) else []
  | _ => []

def watch (config : RegistryConfig) (w : Watched) (call : Call) : Watched where
  server := next config w.server call
  approved := w.approved ++ (approval config w.server call).toList
  trusted := w.trusted ++ brought call

def watched (config : RegistryConfig) (calls : List Call) : Watched := calls.foldl (watch config) {}

/- Every call of a run, on the registry it finds. -/
def AtEveryCall (config : RegistryConfig) (P : RegistryServer → Call → Prop) (calls : List Call) : Prop :=
  ∀ front call back, calls = front ++ call :: back → P (watched config front).server call

def Vouched (w : Watched) (node : RegistryNode) : Prop :=
  (∃ n ∈ w.approved, SameForm n node) ∨ ∃ n ∈ w.trusted, SameForm n node

/- An approved entry was replaced by one in another form that is approved as well. -/
def Inherits (before after : Entries) : Prop :=
  ∃ key e e', before.lookup key = some e ∧ e.status = .approved ∧ after.lookup key = some e' ∧ e'.status = .approved ∧
    ¬SameForm e.node e'.node

/- No refresh inherits an approval: a registration, or a node of a peer that is not trusted. -/
def NeverInherits (config : RegistryConfig) (server : RegistryServer) : Call → Prop
  | .pulled peer now nodes => ∀ front node back, nodes = front ++ node :: back → peer.autoTrust = false →
      ¬Inherits (front.foldl (mergeNode peer now) server.gossipEntries)
        (mergeNode peer now (front.foldl (mergeNode peer now) server.gossipEntries) node)
  | call => ¬Inherits server.entries (next config server call).entries ∧
      ¬Inherits server.gossipEntries (next config server call).gossipEntries

/- A peer that is not trusted lists an approved endpoint as it was approved from it. -/
def Confirms (server : RegistryServer) : Call → Prop
  | .pulled peer now nodes => ∀ front node back, nodes = front ++ node :: back → peer.autoTrust = false →
      ∀ e, (front.foldl (mergeNode peer now) server.gossipEntries).lookup (registryKey node) = some e →
        e.status = .approved → e.node.certificatePin = node.certificatePin ∧ e.node.sourceRegistry = peer.key
  | _ => True

section Invariant
variable {config : RegistryConfig} {w : Watched} {call : Call} {node : RegistryNode}

/- What is approved is vouched for. -/
structure Covered (w : Watched) : Prop where
  keyed : Keyed w.server
  direct : ∀ key e, w.server.entries.lookup key = some e → e.status = .approved → Vouched w e.node
  gossip : ∀ key e, w.server.gossipEntries.lookup key = some e → e.status = .approved → Vouched w e.node

theorem coveredEmpty : Covered {} where
  keyed := keyedEmpty
  direct key e held := by simp [AList.lookup_empty] at held
  gossip key e held := by simp [AList.lookup_empty] at held

theorem Vouched.same (vouched : Vouched w node) {other : RegistryNode} (same : SameForm node other) : Vouched w other := by
  rcases vouched with ⟨n, mem, form⟩ | ⟨n, mem, form⟩
  · exact .inl ⟨n, mem, form.trans same⟩
  · exact .inr ⟨n, mem, form.trans same⟩

theorem Vouched.later (vouched : Vouched w node) : Vouched (watch config w call) node := by
  rcases vouched with ⟨n, mem, form⟩ | ⟨n, mem, form⟩
  · exact .inl ⟨n, List.mem_append_left _ mem, form⟩
  · exact .inr ⟨n, List.mem_append_left _ mem, form⟩

/- One node of a pull. -/
theorem mergedVouched {peer : RegistryPeer} {now : Nat} {gossip : Entries}
    (keyed : ∀ key e, gossip.lookup key = some e → key = registryKey e.node ∧ e.node.sourceRegistry ≠ [])
    (vouched : ∀ key e, gossip.lookup key = some e → e.status = .approved → Vouched w e.node)
    (trusted : peer.autoTrust = true → Vouched w (RegistryPeer.brings peer node))
    (confirms : peer.autoTrust = false → ∀ e, gossip.lookup (registryKey node) = some e → e.status = .approved →
      e.node.certificatePin = node.certificatePin ∧ e.node.sourceRegistry = peer.key)
    {key : Bytes} {e : RegistryEntry} (held : (mergeNode peer now gossip node).lookup key = some e)
    (approved : e.status = .approved) : Vouched w e.node := by
  rcases mergedFrom held with ⟨rfl, merged⟩ | ⟨_, old⟩
  · cases trust : peer.autoTrust with
    | true => exact (trusted trust).same merged.form
    | false =>
        have status := merged.status
        cases existing : gossip.lookup (registryKey node) with
        | none =>
            rw [existing, trust, approved] at status
            cases status
        | some old =>
            rw [existing, approved] at status
            obtain ⟨pin, source⟩ := confirms trust old existing status.symm
            obtain ⟨host, port⟩ := registryKeyInj (keyed _ _ existing).1
            have same : SameForm old.node { node with sourceRegistry := peer.key } := ⟨host.symm, port.symm, pin, source⟩
            exact (vouched _ _ existing status.symm).same (same.trans merged.form)
  · exact vouched _ _ old approved

theorem pulledVouched {peer : RegistryPeer} {now : Nat} {gossip : Entries} (nodes : List RegistryNode)
    (keyed : ∀ key e, gossip.lookup key = some e → key = registryKey e.node ∧ e.node.sourceRegistry ≠ [])
    (vouched : ∀ key e, gossip.lookup key = some e → e.status = .approved → Vouched w e.node)
    (trusted : peer.autoTrust = true → ∀ node ∈ nodes, Vouched w (RegistryPeer.brings peer node))
    (confirms : ∀ front node back, nodes = front ++ node :: back → peer.autoTrust = false →
      ∀ e, (front.foldl (mergeNode peer now) gossip).lookup (registryKey node) = some e → e.status = .approved →
        e.node.certificatePin = node.certificatePin ∧ e.node.sourceRegistry = peer.key)
    {key : Bytes} {e : RegistryEntry} (held : (nodes.foldl (mergeNode peer now) gossip).lookup key = some e)
    (approved : e.status = .approved) : Vouched w e.node := by
  induction nodes generalizing gossip with
  | nil => exact vouched _ _ held approved
  | cons node nodes ih =>
      exact ih (fun _ _ held => mergedKeyed keyed [node] held)
        (fun _ _ => mergedVouched keyed vouched (fun trust => trusted trust node (List.mem_cons_self ..))
          (confirms [] node nodes rfl))
        (fun trust n mem => trusted trust n (List.mem_cons_of_mem _ mem))
        (fun front n back split_ => confirms (node :: front) n back (by rw [split_]; rfl)) held

theorem approvedVouched {now : Nat} {line key : Bytes} {e : RegistryEntry}
    (command : parseAdminLine config line = .ok (.moderate true key))
    (held : (w.server.entries.lookup key).or (w.server.gossipEntries.lookup key) = some e) :
    Vouched (watch config w (.admin now line)) e.node := by
  refine .inl ⟨e.node, List.mem_append_right _ ?_, .refl _⟩
  simp [approval, command, held]

theorem Covered.step (covered : Covered w) (confirms : Confirms w.server call) : Covered (watch config w call) := by
  refine ⟨covered.keyed.next call, fun key e held approved => ?_, fun key e held approved => ?_⟩
  · rcases directFrom call held with old | ⟨now, node, t, accepted⟩ | ⟨now, line, _, old, command, was⟩
    · exact (covered.direct _ _ old approved).later
    · cases existing : (w.server.removeExpired now).entries.lookup (registryKey node) with
      | none => simp [existing] at approved
      | some old =>
          have status : old.status = .approved := by simpa [existing] using approved
          exact (covered.direct _ _ (lookupUnexpired.mp existing).1 status).later.same
            (registeredForm accepted covered.keyed existing)
    · exact approvedVouched (e := old) command (by simp [was])
  · rcases gossipedFrom call held with old | ⟨peer, now, nodes, _, _, merged⟩ | ⟨now, line, _, old, command, direct, was⟩
    · exact (covered.gossip _ _ old approved).later
    · refine pulledVouched nodes covered.keyed.gossip (fun _ _ old approved => (covered.gossip _ _ old approved).later)
        (fun trust node mem => ?_) confirms merged approved
      refine .inr ⟨RegistryPeer.brings peer node, List.mem_append_right _ ?_, .refl _⟩
      simp only [brought, trust, if_true]
      exact List.mem_map_of_mem mem
    · exact approvedVouched (e := old) command (by simp [direct, was])

theorem Covered.run {calls : List Call} (confirms : AtEveryCall config Confirms calls) : Covered (watched config calls) := by
  induction calls using List.reverseRecOn with
  | nil => exact coveredEmpty
  | append_singleton calls call ih =>
      rw [watched, List.foldl_append]
      refine (ih fun front c back split_ => ?_).step (confirms calls call [] rfl)
      exact confirms front c (back ++ [call]) (by rw [split_, List.append_assoc]; rfl)

/-! What follows for a snapshot, and for each refresh. -/

theorem Covered.lists (covered : Covered w) {now : Nat} (mem : node ∈ w.server.snapshot now) : Vouched w node := by
  rcases snapshotFrom.mp mem with direct | gossip
  · obtain ⟨key, e, held, _, approved, form⟩ := listedFrom direct
    exact (covered.direct key e held approved).same form
  · obtain ⟨key, e, held, _, approved, form⟩ := listedFrom gossip
    exact (covered.gossip key e held approved).same form

theorem Covered.directRefresh (covered : Covered w) : ¬Inherits w.server.entries (next config w.server call).entries := by
  intro inherits
  obtain ⟨key, e, e', held, approved, held', approved', other⟩ := inherits
  rcases directFrom call held' with old | ⟨now, node, t, accepted⟩ | ⟨now, line, _, old, _, was⟩
  · obtain rfl := Option.some.inj (held.symm.trans old)
    exact other (.refl _)
  · cases existing : (w.server.removeExpired now).entries.lookup (registryKey node) with
    | none => simp [existing] at approved'
    | some old =>
        obtain rfl := Option.some.inj (held.symm.trans (lookupUnexpired.mp existing).1)
        exact other (registeredForm accepted covered.keyed existing)
  · obtain rfl := Option.some.inj (held.symm.trans was)
    exact other (.refl _)

theorem gossipKept (unpulled : ∀ peer now nodes, call ≠ .pulled peer now nodes) :
    ¬Inherits w.server.gossipEntries (next config w.server call).gossipEntries := by
  intro inherits
  obtain ⟨key, e, e', held, approved, held', approved', other⟩ := inherits
  rcases gossipedFrom call held' with old | ⟨peer, now, nodes⟩ | ⟨now, line, _, old, _, _, was⟩
  · obtain rfl := Option.some.inj (held.symm.trans old)
    exact other (.refl _)
  · exact unpulled _ _ _ rfl
  · obtain rfl := Option.some.inj (held.symm.trans was)
    exact other (.refl _)

theorem mergedKept {peer : RegistryPeer} {now : Nat} {gossip : Entries}
    (keyed : ∀ key e, gossip.lookup key = some e → key = registryKey e.node ∧ e.node.sourceRegistry ≠ [])
    (confirms : ∀ e, gossip.lookup (registryKey node) = some e → e.status = .approved →
      e.node.certificatePin = node.certificatePin ∧ e.node.sourceRegistry = peer.key) :
    ¬Inherits gossip (mergeNode peer now gossip node) := by
  intro inherits
  obtain ⟨key, e, e', held, approved, held', approved', other⟩ := inherits
  rcases mergedFrom held' with ⟨rfl, merged⟩ | ⟨_, old⟩
  · obtain ⟨pin, source⟩ := confirms e held approved
    obtain ⟨host, port⟩ := registryKeyInj (keyed _ _ held).1
    have same : SameForm e.node { node with sourceRegistry := peer.key } := ⟨host.symm, port.symm, pin, source⟩
    exact other (same.trans merged.form)
  · obtain rfl := Option.some.inj (held.symm.trans old)
    exact other (.refl _)

theorem Covered.neverInherits (covered : Covered w) (confirms : Confirms w.server call) :
    NeverInherits config w.server call := by
  cases call with
  | pulled peer now nodes =>
      intro front node back split_ trust
      exact mergedKept (fun _ _ => mergedKeyed covered.keyed.gossip front) (confirms front node back split_ trust)
  | _ => exact ⟨covered.directRefresh, gossipKept (by simp)⟩

theorem AtEveryCall.front {P : RegistryServer → Call → Prop} {front : List Call} (back : List Call)
    (all : AtEveryCall config P (front ++ back)) : AtEveryCall config P front := by
  intro f call b split_
  exact all f call (b ++ back) (by rw [split_, List.append_assoc]; rfl)

end Invariant

/- As long as untrusted peers confirm what was approved from them, every node the registry lists was approved by
its operator, or brought by a trusted peer, in the form in which it is listed, and no refresh of an
approved entry in another form inherits the approval. -/
theorem approvalBinds (config : RegistryConfig) (calls : List Call) (confirms : AtEveryCall config Confirms calls) :
    (∀ now, ∀ node ∈ (watched config calls).server.snapshot now, Vouched (watched config calls) node) ∧
      AtEveryCall config (NeverInherits config) calls := by
  refine ⟨fun now node mem => (Covered.run confirms).lists mem, fun front call back split_ => ?_⟩
  have earlier : AtEveryCall config Confirms front := AtEveryCall.front (call :: back) (split_ ▸ confirms)
  exact (Covered.run earlier).neverInherits (confirms front call back split_)

/- A mediator that a peer lists under one pin, and later under another. -/
section Repinned

def repinnedConfig : RegistryConfig where
  adminToken := ascii "token"
  gossipPeers := [⟨⟨ascii "peer-one.example", 7555⟩, false⟩]

def repinnedPeer : RegistryPeer := ⟨⟨ascii "peer-one.example", 7555⟩, false⟩

def repinnedNode (pin : UInt8) : RegistryNode where
  host := ascii "mediator.example"
  port := 7443
  certificatePin := Vector.replicate 32 pin
  remainingTtlSeconds := 300

def approvedCalls : List Call :=
  [.pulled repinnedPeer 0 [repinnedNode 1], .admin (seconds 30) (ascii "APPROVE token mediator.example 7443")]

def refreshed (pin : UInt8) : List Call := approvedCalls ++ [.pulled repinnedPeer (seconds 60) [repinnedNode pin]]

def shownAt (calls : List Call) : List CertificatePin :=
  ((watched repinnedConfig calls).server.snapshot (seconds 61)).map (·.certificatePin)

theorem repinnedRun :
    shownAt (refreshed 1) = [Vector.replicate 32 1] ∧ shownAt (refreshed 2) = [Vector.replicate 32 2] ∧
    (watched repinnedConfig (refreshed 2)).approved.map (·.certificatePin) = [Vector.replicate 32 1] ∧
    (watched repinnedConfig (refreshed 2)).trusted = [] ∧
    (((watched repinnedConfig approvedCalls).server.gossipEntries.lookup (registryKey (repinnedNode 1))).all fun e =>
      e.node.certificatePin = (repinnedNode 1).certificatePin ∧ e.node.sourceRegistry = repinnedPeer.key) = true := by
  decide +kernel

/- The listed pin was not approved, and nobody who is trusted brought it. -/
theorem repinnedListed : ¬∀ calls now, ∀ node ∈ (watched repinnedConfig calls).server.snapshot now,
    (∃ n ∈ (watched repinnedConfig calls).approved, n.endpoint = node.endpoint ∧ n.certificatePin = node.certificatePin) ∨
      ∃ n ∈ (watched repinnedConfig calls).trusted, SameForm n node := by
  obtain ⟨_, shown, approved, trusted, _⟩ := repinnedRun
  intro vouched
  have pins : Vector.replicate 32 2 ∈ shownAt (refreshed 2) := by rw [shown]; simp
  obtain ⟨node, mem, pin⟩ := List.mem_map.mp pins
  rcases vouched (refreshed 2) _ node mem with ⟨n, known, _, same⟩ | ⟨n, known, _⟩
  · have first := List.mem_map_of_mem (f := fun n : RegistryNode => n.certificatePin) known
    rw [approved, List.mem_singleton, same, pin] at first
    revert first
    decide
  · rw [trusted] at known
    contradiction

theorem AtEveryCall.snoc {config : RegistryConfig} {P : RegistryServer → Call → Prop} {calls : List Call} {call : Call}
    (earlier : AtEveryCall config P calls) (last : P (watched config calls).server call) :
    AtEveryCall config P (calls ++ [call]) := by
  intro front c back split_
  rcases List.eq_nil_or_concat back with rfl | ⟨init, final, rfl⟩
  · obtain ⟨rfl, same⟩ := List.append_inj' split_ rfl
    cases same
    exact last
  · refine earlier front c init ?_
    have whole : calls ++ [call] = (front ++ c :: init) ++ [final] := by simpa using split_
    exact (List.append_inj' whole rfl).1

theorem confirmsOne {server : RegistryServer} {peer : RegistryPeer} {now : Nat} {node : RegistryNode}
    (same : ∀ e, server.gossipEntries.lookup (registryKey node) = some e →
      e.node.certificatePin = node.certificatePin ∧ e.node.sourceRegistry = peer.key) :
    Confirms server (.pulled peer now [node]) := by
  intro front n back split_ _ e held _
  cases front with
  | nil =>
      cases split_
      exact same e held
  | cons first front => simp at split_

/- The peer lists the same pin again, and the mediator stays listed. -/
theorem repinnedKept : (Vector.replicate 32 1 ∈ shownAt (refreshed 1)) ∧
    ∀ node ∈ (watched repinnedConfig (refreshed 1)).server.snapshot (seconds 61),
      Vouched (watched repinnedConfig (refreshed 1)) node := by
  obtain ⟨shown, _, _, _, same⟩ := repinnedRun
  have none_ : AtEveryCall repinnedConfig Confirms [] := fun front _ _ split_ => by simp at split_
  have first : Confirms (watched repinnedConfig []).server (.pulled repinnedPeer 0 [repinnedNode 1]) :=
    confirmsOne fun e held => by simp [watched, AList.lookup_empty] at held
  have again : Confirms (watched repinnedConfig approvedCalls).server (.pulled repinnedPeer (seconds 60) [repinnedNode 1]) :=
    confirmsOne fun e held => by simpa [held] using same
  have confirms : AtEveryCall repinnedConfig Confirms (refreshed 1) :=
    AtEveryCall.snoc (AtEveryCall.snoc (AtEveryCall.snoc none_ first) trivial) again
  exact ⟨by rw [shown]; simp, (approvalBinds repinnedConfig (refreshed 1) confirms).1 _⟩

end Repinned
end RegistryServer
end TradeP2P
