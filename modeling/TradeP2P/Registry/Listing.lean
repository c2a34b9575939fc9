import TradeP2P.Registry.Approval

/-! How often an endpoint is listed: at most once as registered here, and at most once as listed by a peer.
The two are kept apart, and the direct listing does not change with what peers say. -/
namespace TradeP2P
open Wire (Bytes ascii)
open Checks Machine

namespace RegistryServer

def Call.time : Call → Nat
  | .register now _ => now
  | .admin now _ => now
  | .list now => now
  | .pulled _ now _ => now

/- A pull leaves the direct entries as they are, and no call changes the pin of one that is live. -/
def KeepsDirect (config : RegistryConfig) (server : RegistryServer) (call : Call) : Prop :=
  (∀ peer now nodes, call = .pulled peer now nodes → (next config server call).entries = server.entries) ∧
  ∀ key e e', server.entries.lookup key = some e → call.time < e.expiresAt →
    (next config server call).entries.lookup key = some e' → e'.node.certificatePin = e.node.certificatePin

def registeredHere (nodes : List RegistryNode) : List RegistryNode := nodes.filter fun node => node.sourceRegistry = []
def fromPeers (nodes : List RegistryNode) : List RegistryNode := nodes.filter fun node => node.sourceRegistry ≠ []

section Listed
variable {config : RegistryConfig} {server : RegistryServer} {now : Nat} {map : Entries}

theorem keepsDirect (call : Call) : KeepsDirect config server call := by
  refine ⟨fun peer now nodes pulled => by rw [pulled]; rfl, fun key e e' held live held' => ?_⟩
  cases directFrom call held' with
  | kept was => rw [Option.some.inj (was.symm.trans held)]
  | registered now node t accepted =>
      exact (accepted.samePin e (lookupUnexpired.mpr ⟨held, live⟩)).symm
  | approved now line _ old command was => rw [Option.some.inj (held.symm.trans was)]

/- Nodes are listed in the order of the entries, some of them left out. -/
theorem listedSublist (now : Nat) (entries : List (Sigma fun _ : Bytes => RegistryEntry))
    (keyed : ∀ entry ∈ entries, entry.1 = registryKey entry.2.node) :
    ((entries.filterMap fun entry => listed now entry.2).map registryKey).Sublist (entries.map Sigma.fst) := by
  induction entries with
  | nil => exact .slnil
  | cons entry rest ih =>
      have later := ih fun e mem => keyed e (List.mem_cons_of_mem _ mem)
      cases shown : listed now entry.2 with
      | none =>
          simp only [List.filterMap_cons, shown, List.map_cons]
          exact later.cons _
      | some node =>
          have form : registryKey node = entry.1 := by
            unfold listed at shown
            split at shown
            · contradiction
            · cases shown
              exact (keyed entry (List.mem_cons_self ..)).symm
          simp only [List.filterMap_cons, shown, List.map_cons, form]
          exact later.cons_cons _

/- The endpoints of what is listed from one map are those of its keys. -/
theorem listedKeys (keyed : ∀ key e, map.lookup key = some e → key = registryKey e.node) :
    ((appendApproved now map).map RegistryNode.endpoint).Nodup := by
  have keys := listedSublist now map.entries fun entry mem => keyed entry.1 entry.2 (lookupEntries.mpr mem)
  have distinct : ((appendApproved now map).map registryKey).Nodup := map.keys_nodup.sublist keys
  have same : (appendApproved now map).map registryKey = ((appendApproved now map).map RegistryNode.endpoint).map Endpoint.key := by
    rw [List.map_map]
    rfl
  rw [same] at distinct
  exact distinct.of_map

theorem filterAll {nodes : List RegistryNode} {p : RegistryNode → Bool} (all : ∀ node ∈ nodes, p node = true) :
    nodes.filter p = nodes := List.filter_eq_self.mpr all

theorem filterNone {nodes : List RegistryNode} {p : RegistryNode → Bool} (none_ : ∀ node ∈ nodes, p node = false) :
    nodes.filter p = [] := List.filter_eq_nil_iff.mpr fun node mem => by simp [none_ node mem]

theorem Keyed.listsOnce (keyed : Keyed server) (now : Nat) :
    ((registeredHere (server.snapshot now)).map RegistryNode.endpoint).Nodup ∧
      ((fromPeers (server.snapshot now)).map RegistryNode.endpoint).Nodup := by
  have ownSource : ∀ node ∈ appendApproved now (removeExpiredFrom server.entries now), node.sourceRegistry = [] := by
    intro node mem
    obtain ⟨key, e, held, _, _, form⟩ := listedFrom mem
    exact form.source.symm.trans (keyed.direct key e held).2
  have peerSource : ∀ node ∈ appendApproved now (removeExpiredFrom server.gossipEntries now), node.sourceRegistry ≠ [] := by
    intro node mem
    obtain ⟨key, e, held, _, _, form⟩ := listedFrom mem
    rw [← form.source]
    exact (keyed.gossip key e held).2
  have order := List.perm_insertionSort (before · · = true)
    (appendApproved now (removeExpiredFrom server.entries now) ++ appendApproved now (removeExpiredFrom server.gossipEntries now))
  have ownOnly : (registeredHere (server.snapshot now)).Perm (appendApproved now (removeExpiredFrom server.entries now)) := by
    refine (order.filter _).trans ?_
    rw [List.filter_append, filterAll (by simpa using ownSource), filterNone (by simpa using peerSource), List.append_nil]
  have peersOnly : (fromPeers (server.snapshot now)).Perm (appendApproved now (removeExpiredFrom server.gossipEntries now)) := by
    refine (order.filter _).trans ?_
    rw [List.filter_append, filterNone (by simpa using ownSource), filterAll (by simpa using peerSource), List.nil_append]
  constructor
  · rw [(ownOnly.map _).nodup_iff]
    exact listedKeys fun key e held => (keyed.direct key e (lookupUnexpired.mp held).1).1
  · rw [(peersOnly.map _).nodup_iff]
    exact listedKeys fun key e held => (keyed.gossip key e (lookupUnexpired.mp held).1).1

theorem keyedRun (config : RegistryConfig) (calls : List Call) : Keyed (watched config calls).server := by
  induction calls using List.reverseRecOn with
  | nil => exact keyedEmpty
  | append_singleton calls call ih =>
      rw [watched, List.foldl_append]
      exact ih.next call

end Listed

/- Every run lists an endpoint at most once as its own and at most once from a peer, and what peers list never
changes the direct entries, whose pins stay while they are live. -/
theorem listedOnce (config : RegistryConfig) (calls : List Call) :
    (∀ now, ((registeredHere ((watched config calls).server.snapshot now)).map RegistryNode.endpoint).Nodup ∧
      ((fromPeers ((watched config calls).server.snapshot now)).map RegistryNode.endpoint).Nodup) ∧
      AtEveryCall config (KeepsDirect config) calls :=
  ⟨(keyedRun config calls).listsOnce, fun _ call _ _ => keepsDirect call⟩

/- A mediator that registered here, and that a trusted peer lists under another pin. -/
section Twice

def trustingConfig : RegistryConfig where
  adminToken := ascii "token"
  gossipPeers := [⟨⟨ascii "peer-two.example", 7555⟩, true⟩]

def twiceNode (pin : UInt8) (ttl : UInt32) : RegistryNode where
  host := ascii "mediator.example"
  port := 7443
  certificatePin := Vector.replicate 32 pin
  remainingTtlSeconds := ttl

def twiceListed : List Call :=
  [.register 0 (twiceNode 1 0), .admin 0 (ascii "APPROVE token mediator.example 7443"),
   .pulled ⟨⟨ascii "peer-two.example", 7555⟩, true⟩ (seconds 1) [twiceNode 2 300]]

/- The endpoint is listed twice, with two pins. -/
theorem listedTwice :
    ¬(((watched trustingConfig twiceListed).server.snapshot (seconds 2)).map RegistryNode.endpoint).Nodup ∧
    ((watched trustingConfig twiceListed).server.snapshot (seconds 2)).map (·.certificatePin) =
      [Vector.replicate 32 1, Vector.replicate 32 2] := by
  decide +kernel

end Twice
end RegistryServer
end TradeP2P
