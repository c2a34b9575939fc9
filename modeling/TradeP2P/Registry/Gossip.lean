import TradeP2P.Registry.Approval
import Mathlib.Logic.Relation

/-! A network of registries that ask each other. What one of them answers to a peer is meant to be its own
direct registrations only, so that a node is never more than one registry away from where it registered. -/
namespace TradeP2P
open Wire (Bytes ascii)
open Checks Machine Maps RegistryServer

/- The registries, how each is configured, and which of them answers at an endpoint. -/
structure Network (Id : Type) where
  config : Id → RegistryConfig
  locate : Endpoint → Option Id

namespace Network

/- With what registered itself where, and what was answered to those who asked. -/
structure State (Id : Type) where
  servers : Id → RegistryServer := fun _ => {}
  registered : Id → List RegistryNode := fun _ => []
  listings : Id → List (List RegistryNode) := fun _ => []

inductive Event (Id : Type) where
  | registers (id : Id) (now : Nat) (node : RegistryNode)
  | moderates (id : Id) (now : Nat) (line : Bytes)
  | expires (id : Id) (now : Nat)
  | answers (id : Id) (now : Nat)
  | pulls (id : Id) (peer : RegistryPeer) (nodes : List RegistryNode) (now : Nat)
  deriving DecidableEq, Repr

/- A list on the wire. -/
def answer (now : Nat) (server : RegistryServer) : Except Error (List RegistryNode) := do
  let bytes ← encodeRegistryNodes ⟨server.snapshot now⟩
  let message ← decodeRegistryNodes bytes
  return message.nodes

section Steps
variable {Id : Type} [DecidableEq Id] (network : Network Id)

def State.set (s : State Id) (id : Id) (server : RegistryServer) : State Id :=
  { s with servers := Function.update s.servers id server }

-- A pull may come in at any time after the answer was given.
def fire (s : State Id) : Event Id → Option (State Id)
  | .registers id now node => match registerNode now node (s.servers id) with
      | .ok _ server => some { s.set id server with registered := Function.update s.registered id (node :: s.registered id) }
      | .error _ server => some (s.set id server)
  | .moderates id now line => some (s.set id (handleAdminLine (network.config id) now line (s.servers id)).2)
  | .expires id now => some (s.set id ((s.servers id).removeExpired now))
  | .answers id now => match answer now (s.servers id) with
      | .ok nodes => some { s.set id ((s.servers id).removeExpired now) with
          listings := Function.update s.listings id (nodes :: s.listings id) }
      | .error _ => some (s.set id ((s.servers id).removeExpired now))
  | .pulls id peer nodes now =>
      if peer ∈ (network.config id).gossipPeers ∧
          (network.locate peer.registry).any (fun source => nodes ∈ s.listings source) = true then
        some (s.set id ((s.servers id).merge peer now nodes))
      else none

def Run (P : State Id → Event Id → Prop) : State Id → State Id → Prop :=
  Relation.ReflTransGen fun s t => ∃ event, P s event ∧ network.fire s event = some t

def RegisteredAt (s : State Id) (id : Id) (node : RegistryNode) : Prop :=
  ∃ n ∈ s.registered id, n.host = node.host ∧ n.port = node.port ∧ n.certificatePin = node.certificatePin

/- A node that is attributed to a configured peer, and registered itself there. -/
def OneHop (s : State Id) (id : Id) (node : RegistryNode) : Prop :=
  ∃ peer ∈ (network.config id).gossipPeers, node.sourceRegistry = peer.key ∧
    ∃ source, network.locate peer.registry = some source ∧ RegisteredAt s source node

def SingleHop (s : State Id) : Prop :=
  ∀ id key e, (s.servers id).gossipEntries.lookup key = some e → network.OneHop s id e.node

/- A registry that is asked holds nothing from its own peers that it would list, but for what registered with
itself as well. -/
def OwnOnly (s : State Id) : Event Id → Prop
  | .answers id now => ∀ key e, (s.servers id).gossipEntries.lookup key = some e → e.status = .approved →
      now < e.expiresAt → RegisteredAt s id e.node
  | _ => True

end Steps

section Hops
variable {Id : Type} {network : Network Id} {s t : State Id} {id : Id}

/- The invariant: direct entries and answers are of what registered there. -/
structure Hops (network : Network Id) (s : State Id) : Prop where
  direct : ∀ id key e, (s.servers id).entries.lookup key = some e → RegisteredAt s id e.node
  listings : ∀ id, ∀ nodes ∈ s.listings id, ∀ node ∈ nodes, RegisteredAt s id node
  hop : network.SingleHop s

theorem RegisteredAt.same {node other : RegistryNode} (registered : RegisteredAt s id node) (host : node.host = other.host)
    (port : node.port = other.port) (pin : node.certificatePin = other.certificatePin) : RegisteredAt s id other := by
  obtain ⟨n, mem, h, p, c⟩ := registered
  exact ⟨n, mem, h.trans host, p.trans port, c.trans pin⟩

theorem hopsEmpty : Hops network {} where
  direct id key e held := by simp [AList.lookup_empty] at held
  listings id nodes mem := by simp at mem
  hop id key e held := by simp [AList.lookup_empty] at held

theorem answered {now : Nat} {server : RegistryServer} {nodes : List RegistryNode}
    (ok : answer now server = .ok nodes) : nodes = server.snapshot now := by
  obtain ⟨bytes, encoded, rest⟩ := bind_ok.mp ok
  obtain ⟨message, decoded, last⟩ := bind_ok.mp rest
  have back : decodeRegistryNodes bytes = .ok ⟨server.snapshot now⟩ := (invertsRegistryNodes.whole).mpr encoded
  obtain rfl := Except.ok.inj (decoded.symm.trans back)
  exact (pure_ok.mp last).symm

theorem RegisteredAt.grows {node : RegistryNode} (grows : ∀ id, s.registered id ⊆ t.registered id)
    (registered : RegisteredAt s id node) : RegisteredAt t id node := by
  obtain ⟨n, mem, same⟩ := registered
  exact ⟨n, grows id mem, same⟩

theorem OneHop.grows {node : RegistryNode} (grows : ∀ id, s.registered id ⊆ t.registered id)
    (hop : network.OneHop s id node) : network.OneHop t id node := by
  obtain ⟨peer, configured, attributed, source, located, registered⟩ := hop
  exact ⟨peer, configured, attributed, source, located, registered.grows grows⟩

/- What a registry that lists only its own answers registered there. -/
theorem Hops.answers (hops : Hops network s) {now : Nat} (own : OwnOnly s (.answers id now)) {nodes : List RegistryNode}
    (answers : answer now (s.servers id) = .ok nodes) : ∀ node ∈ nodes, RegisteredAt s id node := by
  intro node mem
  rw [answered answers] at mem
  rcases snapshotFrom.mp mem with direct | gossip
  · obtain ⟨key, e, held, _, _, form⟩ := listedFrom direct
    exact (hops.direct id key e held).same form.host form.port form.pin
  · obtain ⟨key, e, held, live, approved, form⟩ := listedFrom gossip
    exact (own key e held approved live).same form.host form.port form.pin

theorem mergedHop {peer : RegistryPeer} {now : Nat} {gossip : Entries} (nodes : List RegistryNode)
    (held : ∀ key e, gossip.lookup key = some e → network.OneHop s id e.node)
    (new : ∀ node ∈ nodes, network.OneHop s id (peer.brings node)) {key : Bytes} {e : RegistryEntry}
    (merged : (nodes.foldl (mergeNode peer now) gossip).lookup key = some e) : network.OneHop s id e.node := by
  induction nodes generalizing gossip with
  | nil => exact held _ _ merged
  | cons node nodes ih =>
      refine ih (fun key e kept => ?_) (fun n mem => new n (List.mem_cons_of_mem _ mem)) merged
      rcases mergedFrom kept with ⟨rfl, here⟩ | ⟨_, old⟩
      · obtain ⟨p, configured, attributed, source, located, registered⟩ := new node (List.mem_cons_self ..)
        refine ⟨p, configured, here.form.source.symm.trans attributed, source, located, ?_⟩
        exact registered.same here.form.host here.form.port here.form.pin
      · exact held _ _ old

variable [DecidableEq Id]

/- One registry goes on to another state. -/
theorem Hops.moves (hops : Hops network s) {server : RegistryServer} (servers : t.servers = Function.update s.servers id server)
    (grows : ∀ id, s.registered id ⊆ t.registered id)
    (direct : ∀ key e, server.entries.lookup key = some e → RegisteredAt t id e.node)
    (listings : ∀ i, ∀ nodes ∈ t.listings i, ∀ node ∈ nodes, RegisteredAt t i node)
    (gossip : ∀ key e, server.gossipEntries.lookup key = some e → network.OneHop t id e.node) : Hops network t := by
  refine ⟨fun i key e held => ?_, listings, fun i key e held => ?_⟩ <;> rw [servers] at held <;> by_cases here : i = id
  · subst here
    rw [Function.update_self] at held
    exact direct key e held
  · rw [Function.update_of_ne here] at held
    exact (hops.direct i key e held).grows grows
  · subst here
    rw [Function.update_self] at held
    exact gossip key e held
  · rw [Function.update_of_ne here] at held
    exact (hops.hop i key e held).grows grows

/- A step that registers nothing and pulls nothing keeps the nodes that are held. -/
theorem Hops.keeps (hops : Hops network s) (call : Call)
    (unregistered : ∀ now node, call ≠ .register now node) (unpulled : ∀ peer now nodes, call ≠ .pulled peer now nodes)
    (servers : t.servers = Function.update s.servers id (next (network.config id) (s.servers id) call))
    (same : t.registered = s.registered)
    (listings : ∀ i, ∀ nodes ∈ t.listings i, ∀ node ∈ nodes, RegisteredAt t i node) : Hops network t := by
  have grows : ∀ i, s.registered i ⊆ t.registered i := fun i => by rw [same]; exact List.Subset.refl _
  refine hops.moves servers grows (fun key e held => ?_) listings (fun key e held => ?_)
  · cases directFrom call held with
    | kept held => exact (hops.direct id _ _ held).grows grows
    | registered now node => exact absurd rfl (unregistered now node)
    | approved now line key old command was => exact (hops.direct id key old was).grows grows
  · cases gossipedFrom call held with
    | kept held => exact (hops.hop id _ _ held).grows grows
    | merged peer now nodes => exact absurd rfl (unpulled peer now nodes)
    | approved now line key old command direct was => exact (hops.hop id key old was).grows grows

theorem Hops.registers (hops : Hops network s) {now : Nat} {node : RegistryNode}
    (fired : network.fire s (.registers id now node) = some t) : Hops network t := by
  have spec := RegistryServer.registers now node (s.servers id)
  unfold Ensures at spec
  simp only [fire] at fired
  split at fired <;> rename_i ran <;> rw [ran] at spec <;> cases fired
  · have grows : ∀ i, s.registered i ⊆ Function.update s.registered id (node :: s.registered id) i := by
      intro i
      by_cases here : i = id
      · subst here
        rw [Function.update_self]
        exact List.subset_cons_self ..
      · rw [Function.update_of_ne here]
        exact List.Subset.refl _
    refine hops.moves rfl grows (fun key e held => ?_) (fun i nodes mem n known => (hops.listings i nodes mem n known).grows grows)
      (fun key e held => ?_)
    · rw [spec.entries] at held
      rcases lookupInserted held with ⟨rfl, rfl⟩ | ⟨_, old⟩
      · exact ⟨node, by simp, rfl, rfl, rfl⟩
      · exact (hops.direct id _ _ (lookupUnexpired.mp old).1).grows grows
    · rw [spec.gossip] at held
      exact (hops.hop id _ _ (lookupUnexpired.mp held).1).grows grows
  · rcases spec with rfl | rfl
    · refine hops.moves rfl (fun _ => List.Subset.refl _) (hops.direct id) hops.listings (hops.hop id)
    · exact hops.moves rfl (fun _ => List.Subset.refl _) (fun key e held => hops.direct id key e (lookupUnexpired.mp held).1)
        hops.listings (fun key e held => hops.hop id key e (lookupUnexpired.mp held).1)

theorem Hops.step (hops : Hops network s) {event : Event Id} (own : OwnOnly s event) (fired : network.fire s event = some t) :
    Hops network t := by
  cases event with
  | registers id now node => exact hops.registers fired
  | moderates id now line =>
      cases fired
      exact hops.keeps (.admin now line) (by simp) (by simp) rfl rfl hops.listings
  | expires id now =>
      cases fired
      exact hops.keeps (.list now) (by simp) (by simp) rfl rfl hops.listings
  | answers id now =>
      simp only [fire] at fired
      split at fired <;> cases fired
      · next nodes answers =>
          refine hops.keeps (.list now) (by simp) (by simp) rfl rfl fun i nodes' mem node known => ?_
          by_cases here : i = id
          · subst here
            rcases List.mem_cons.mp (by simpa using mem) with rfl | old
            · exact hops.answers own answers node known
            · exact hops.listings i nodes' old node known
          · exact hops.listings i nodes' (by simpa [Function.update_of_ne here] using mem) node known
      · exact hops.keeps (.list now) (by simp) (by simp) rfl rfl hops.listings
  | pulls id peer nodes now =>
      simp only [fire] at fired
      split at fired
      · next pulls =>
          cases fired
          obtain ⟨configured, located⟩ := pulls
          cases at_ : network.locate peer.registry with
          | none => simp [at_] at located
          | some source =>
              refine hops.moves rfl (fun _ => List.Subset.refl _) (hops.direct id) hops.listings fun key e merged => ?_
              refine mergedHop nodes (hops.hop id) (fun node mem => ?_) merged
              have registered := hops.listings source nodes (by simpa [at_] using located) node mem
              exact ⟨peer, configured, rfl, source, at_, registered.same rfl rfl rfl⟩
      · contradiction

theorem Hops.run (hops : Hops network s) (run : network.Run OwnOnly s t) : Hops network t := by
  induction run with
  | refl => exact hops
  | tail _ last ih =>
      obtain ⟨event, own, fired⟩ := last
      exact ih.step own fired

end Hops

/- As long as a registry that is asked lists only what registered with itself, everything that a registry holds from
a peer registered itself at that peer. -/
theorem singleHop {Id : Type} [DecidableEq Id] (network : Network Id) (s : State Id) (run : network.Run OwnOnly {} s) :
    network.SingleHop s :=
  (hopsEmpty.run run).hop

/- Three registries in a row. Each asks the one before it and trusts it. -/
section Chain

def chainEndpoint (n : Nat) : Endpoint := ⟨ascii "registry-" ++ decimal n, 7555⟩

def chainPeers : Nat → List RegistryPeer
  | 0 => []
  | n + 1 => [⟨chainEndpoint n, true⟩]

def chain : Network Nat where
  config n := ⟨ascii "token", chainPeers n⟩
  locate endpoint := (List.range 3).find? fun n => chainEndpoint n = endpoint

def chainNode (ttl : UInt32) (source : Bytes) : RegistryNode where
  host := ascii "mediator.example"
  port := 7443
  certificatePin := Vector.replicate 32 1
  remainingTtlSeconds := ttl
  sourceRegistry := source

-- The second registry pulls a node from the first.
def oneHop : List (Network.Event Nat) :=
  [.registers 0 0 (chainNode 0 []), .moderates 0 0 (ascii "APPROVE token mediator.example 7443"), .answers 0 (seconds 1),
   .pulls 1 ⟨chainEndpoint 0, true⟩ [chainNode 299 []] (seconds 1)]

def twoHops : List (Network.Event Nat) :=
  [.answers 1 (seconds 2), .pulls 2 ⟨chainEndpoint 1, true⟩ [chainNode 298 (chainEndpoint 0).key] (seconds 2)]

-- The run of a schedule, as long as each step passes a check.
def fires {Id : Type} [DecidableEq Id] (network : Network Id) (check : State Id → Network.Event Id → Bool) (s : State Id) :
    List (Network.Event Id) → Option (State Id)
  | [] => some s
  | event :: later => if check s event then (network.fire s event).bind fun t => fires network check t later else none

theorem firesRun {Id : Type} [DecidableEq Id] {network : Network Id} {check : State Id → Network.Event Id → Bool} {s t : State Id}
    {P : State Id → Network.Event Id → Prop} {events : List (Network.Event Id)} (fine : ∀ s event, check s event = true → P s event)
    (fired : fires network check s events = some t) : network.Run P s t := by
  induction events generalizing s with
  | nil =>
      cases fired
      exact .refl
  | cons event later ih =>
      unfold fires at fired
      split at fired
      · next checked =>
          obtain ⟨u, first, rest⟩ := Option.bind_eq_some_iff.mp fired
          exact .head ⟨event, fine s event checked, first⟩ (ih rest)
      · contradiction

def always (_ : State Nat) (_ : Network.Event Nat) : Bool := true

def holdsNoGossip (s : State Nat) : Network.Event Nat → Bool
  | .answers id _ => (s.servers id).gossipEntries.entries.isEmpty
  | _ => true

theorem holdsNoGossipOwn (s : State Nat) (event : Network.Event Nat) (checked : holdsNoGossip s event = true) :
    OwnOnly s event := by
  cases event with
  | answers id now =>
      intro key e held
      rw [lookupEntries, List.isEmpty_iff.mp checked] at held
      contradiction
  | _ => trivial

def heldBy (n : Nat) (s : State Nat) : Option RegistryNode :=
  ((s.servers n).gossipEntries.lookup (endpointKey (ascii "mediator.example") 7443)).map (·.node)

theorem chainRun :
    (fires chain holdsNoGossip {} oneHop).bind (heldBy 1) = some (chainNode 299 (chainEndpoint 0).key) ∧
    (fires chain always {} (oneHop ++ twoHops)).bind (heldBy 2) = some (chainNode 298 (chainEndpoint 1).key) ∧
    (fires chain always {} (oneHop ++ twoHops)).map (fun s => s.registered 1) = some [] ∧
    chain.locate (chainEndpoint 1) = some 1 := by
  decide +kernel

theorem twiceRelayed : ∃ s, chain.Run (fun _ _ => True) {} s ∧ ¬chain.SingleHop s := by
  obtain ⟨_, held, registered, located⟩ := chainRun
  obtain ⟨s, fired, kept⟩ := Option.bind_eq_some_iff.mp held
  obtain ⟨e, entry, node⟩ := Option.map_eq_some_iff.mp kept
  refine ⟨s, firesRun (fun _ _ _ => trivial) fired, fun single => ?_⟩
  obtain ⟨peer, configured, _, source, at_, n, known, _⟩ := single 2 _ e entry
  obtain rfl := List.mem_singleton.mp configured
  obtain rfl := Option.some.inj (located.symm.trans at_)
  rw [fired] at registered
  have none_ : s.registered 1 = [] := Option.some.inj registered
  rw [none_] at known
  exact absurd known List.not_mem_nil

theorem onceRelayed : ∃ s, heldBy 1 s = some (chainNode 299 (chainEndpoint 0).key) ∧ chain.SingleHop s := by
  obtain ⟨s, fired, kept⟩ := Option.bind_eq_some_iff.mp chainRun.1
  exact ⟨s, kept, singleHop chain s (firesRun holdsNoGossipOwn fired)⟩

end Chain
end Network
end TradeP2P
