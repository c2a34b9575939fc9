import TradeP2P.Lib.Contracts
import TradeP2P.Lib.Maps
import TradeP2P.Lib.Separators
import TradeP2P.Registry.Server

/-! What a call does to the entries of a registry: where an entry that is held afterwards came from. -/
namespace TradeP2P
open Wire (Bytes ascii)
open Checks Machine Maps

/- The form in which a node is listed, its time to live apart. -/
structure SameForm (a b : RegistryNode) : Prop where
  host : a.host = b.host
  port : a.port = b.port
  pin : a.certificatePin = b.certificatePin
  source : a.sourceRegistry = b.sourceRegistry

theorem SameForm.refl (a : RegistryNode) : SameForm a a := ⟨rfl, rfl, rfl, rfl⟩

theorem SameForm.trans {a b c : RegistryNode} (first : SameForm a b) (second : SameForm b c) : SameForm a c :=
  ⟨first.host.trans second.host, first.port.trans second.port, first.pin.trans second.pin,
    first.source.trans second.source⟩

/-! The key of an endpoint names it: the last colon is before the port. -/

theorem decimalDigits (n : Nat) : (decimal n).map (fun digit => Char.ofNat digit.toNat) = Nat.toDigits 10 n := by
  have back : ∀ c ∈ Nat.toDigits 10 n, Char.ofNat (UInt8.ofNat c.toNat).toNat = c := by
    intro c mem
    have digit := Nat.isDigit_of_mem_toDigits (by decide) (by decide) mem
    have least : 48 ≤ c.toNat ∧ c.toNat ≤ 57 := by
      simp only [Char.isDigit, Bool.and_eq_true, decide_eq_true_eq] at digit
      exact ⟨digit.1, digit.2⟩
    have small : c.toNat % 256 = c.toNat := Nat.mod_eq_of_lt (by omega)
    rw [UInt8.toNat_ofNat', small, Char.ofNat_toNat]
  rw [decimal, List.map_map]
  exact (List.map_congr_left back).trans (List.map_id _)

theorem decimalInj {m n : Nat} (same : decimal m = decimal n) : m = n := by
  have digits : Nat.toDigits 10 m = Nat.toDigits 10 n := by rw [← decimalDigits, ← decimalDigits, same]
  rw [← Nat.ofDigitChars_ten_toDigits (n := m), digits, Nat.ofDigitChars_ten_toDigits]

theorem decimalByte {n : Nat} {byte : UInt8} (mem : byte ∈ decimal n) : 48 ≤ byte.toNat ∧ byte.toNat ≤ 57 := by
  obtain ⟨c, digit, rfl⟩ := List.mem_map.mp mem
  have isDigit := Nat.isDigit_of_mem_toDigits (by decide) (by decide) digit
  simp only [Char.isDigit, Bool.and_eq_true, decide_eq_true_eq] at isDigit
  have least : 48 ≤ c.toNat := isDigit.1
  have most : c.toNat ≤ 57 := isDigit.2
  rw [UInt8.toNat_ofNat', Nat.mod_eq_of_lt (by omega)]
  exact ⟨least, most⟩

theorem colonNotDigit (n : Nat) : (0x3a : UInt8) ∉ decimal n :=
  fun mem => absurd (decimalByte mem).2 (by decide)

theorem keyInj {a b : Endpoint} (same : a.key = b.key) : a = b := by
  obtain ⟨host, port⟩ := Separators.last same (colonNotDigit _) (colonNotDigit _)
  cases a
  cases b
  obtain rfl := host
  obtain rfl := UInt16.toNat_inj.mp (decimalInj port)
  rfl

theorem registryKeyInj {a b : RegistryNode} (same : registryKey a = registryKey b) : a.host = b.host ∧ a.port = b.port := by
  have endpoints := keyInj (a := a.endpoint) (b := b.endpoint) same
  exact ⟨congrArg Endpoint.host endpoints, congrArg Endpoint.port endpoints⟩

theorem keyNonempty (endpoint : Endpoint) : endpoint.key ≠ [] := by
  simp [Endpoint.key, endpointKey]

namespace RegistryServer

section Maps
variable {map : Entries} {key : Bytes} {entry : RegistryEntry} {now : Nat}

theorem lookupEntries : map.lookup key = some entry ↔ (⟨key, entry⟩ : Sigma fun _ : Bytes => RegistryEntry) ∈ map.entries :=
  AList.mem_lookup_iff

theorem lookupUnexpired : (removeExpiredFrom map now).lookup key = some entry ↔
    map.lookup key = some entry ∧ now < entry.expiresAt := by
  simp [lookupEntries, removeExpiredFrom]

theorem lookupEvicted (held : (evictSoonestExpiring map).lookup key = some entry) : map.lookup key = some entry := by
  unfold evictSoonestExpiring at held
  cases soonest : soonestExpiring map with
  | none => simpa [soonest] using held
  | some other => exact (lookupErased (by simpa [soonest] using held)).2

end Maps

/-! Direct registration. -/

/- A registration that was accepted: a new node waits for approval, one that is known keeps its pin and its status. -/
structure Registered (now : Nat) (node : RegistryNode) (server t : RegistryServer) : Prop where
  valid : validateRegistryNode node false = .ok ()
  samePin : ∀ e, (server.removeExpired now).entries.lookup (registryKey node) = some e →
    e.node.certificatePin = node.certificatePin
  fits : (server.removeExpired now).entries.lookup (registryKey node) = none →
    (server.removeExpired now).entries.keys.length < maxRegistryNodes
  entries : t.entries = (server.removeExpired now).entries.insert (registryKey node)
    { node := { node with remainingTtlSeconds := 0 }, expiresAt := now + seconds registryTtlSeconds.toNat
      status := (((server.removeExpired now).entries.lookup (registryKey node)).map (·.status)).getD .pending }
  gossip : t.gossipEntries = (server.removeExpired now).gossipEntries

theorem registers (now : Nat) (node : RegistryNode) (server : RegistryServer) :
    Ensures (registerNode now node) server (fun _ t => Registered now node server t)
      (fun _ t => t = server ∨ t = server.removeExpired now) := by
  unfold registerNode
  simp only [ensuresBind, ensuresModify, ensuresGet, ensuresLift, ensuresSet, throwIf_ok]
  refine ⟨fun _ valid => ⟨fun _ samePin => ⟨fun _ fits => ?_, fun _ _ => .inr trivial⟩, fun _ _ => .inr trivial⟩, fun _ _ => .inl trivial⟩
  refine ⟨valid, fun e held => ?_, fun none_ => ?_, rfl, rfl⟩
  · by_contra differs
    refine samePin ?_
    rw [show registryKey { node with remainingTtlSeconds := 0 } = registryKey node from rfl, held]
    simpa using differs
  · by_contra full
    exact fits ⟨none_, by omega⟩

/-! Where an entry that is held after a call comes from. -/

inductive Direct (config : RegistryConfig) (server : RegistryServer) : Call → Bytes → RegistryEntry → Prop where
  | kept {call : Call} {key : Bytes} {e : RegistryEntry} (held : server.entries.lookup key = some e) :
      Direct config server call key e
  | registered (now : Nat) (node : RegistryNode) (t : RegistryServer) (accepted : Registered now node server t) :
      Direct config server (.register now node) (registryKey node)
        { node := { node with remainingTtlSeconds := 0 }, expiresAt := now + seconds registryTtlSeconds.toNat
          status := (((server.removeExpired now).entries.lookup (registryKey node)).map (·.status)).getD .pending }
  | approved (now : Nat) (line key : Bytes) (e : RegistryEntry)
      (command : parseAdminLine config line = .ok (.moderate true key)) (held : server.entries.lookup key = some e) :
      Direct config server (.admin now line) key { e with status := .approved }

inductive Gossiped (config : RegistryConfig) (server : RegistryServer) : Call → Bytes → RegistryEntry → Prop where
  | kept {call : Call} {key : Bytes} {e : RegistryEntry} (held : server.gossipEntries.lookup key = some e) :
      Gossiped config server call key e
  | merged (peer : RegistryPeer) (now : Nat) (nodes : List RegistryNode) (key : Bytes) (e : RegistryEntry)
      (held : (server.merge peer now nodes).gossipEntries.lookup key = some e) :
      Gossiped config server (.pulled peer now nodes) key e
  | approved (now : Nat) (line key : Bytes) (e : RegistryEntry)
      (command : parseAdminLine config line = .ok (.moderate true key)) (direct : server.entries.lookup key = none)
      (held : server.gossipEntries.lookup key = some e) :
      Gossiped config server (.admin now line) key { e with status := .approved }

section Calls
variable {config : RegistryConfig} {server : RegistryServer} {key : Bytes} {e : RegistryEntry}

theorem nextRegister (config : RegistryConfig) (server : RegistryServer) (now : Nat) (node : RegistryNode) :
    next config server (.register now node) = server ∨ next config server (.register now node) = server.removeExpired now ∨
      Registered now node server (next config server (.register now node)) := by
  have spec := registers now node server
  simp only [next]
  unfold Ensures at spec
  split at spec <;> rename_i ran <;> simp only [ran]
  · exact .inr (.inr spec)
  · rcases spec with same | expired
    · exact .inl same
    · exact .inr (.inl expired)

/- What a line of the administrator can do. -/
inductive Administered (config : RegistryConfig) (server : RegistryServer) (now : Nat) (line : Bytes) : RegistryServer → Prop where
  | same : Administered config server now line server
  | expired : Administered config server now line (server.removeExpired now)
  | rejected (key : Bytes) : Administered config server now line { server with entries := server.entries.erase key }
  | rejectedGossip (key : Bytes) : Administered config server now line { server with gossipEntries := server.gossipEntries.erase key }
  | approved (key : Bytes) (e : RegistryEntry) (command : parseAdminLine config line = .ok (.moderate true key))
      (held : server.entries.lookup key = some e) :
      Administered config server now line { server with entries := approve key e server.entries }
  | approvedGossip (key : Bytes) (e : RegistryEntry) (command : parseAdminLine config line = .ok (.moderate true key))
      (direct : server.entries.lookup key = none) (held : server.gossipEntries.lookup key = some e) :
      Administered config server now line { server with gossipEntries := approve key e server.gossipEntries }

theorem administered (config : RegistryConfig) (server : RegistryServer) (now : Nat) (line : Bytes) :
    Administered config server now line (next config server (.admin now line)) := by
  simp only [next, handleAdminLine]
  cases command : parseAdminLine config line with
  | error reply => exact .same
  | ok command' =>
      cases command' with
      | listPending => exact .expired
      | moderate approves key =>
          simp only [moderate]
          cases direct : server.entries.lookup key with
          | some old =>
              cases approves with
              | false => exact .rejected key
              | true => exact .approved key old command direct
          | none =>
              cases gossip : server.gossipEntries.lookup key with
              | some old =>
                  cases approves with
                  | false => exact .rejectedGossip key
                  | true => exact .approvedGossip key old command direct gossip
              | none => exact .same

theorem directFrom (call : Call) (held : (next config server call).entries.lookup key = some e) :
    Direct config server call key e := by
  cases call with
  | register now node =>
      rcases nextRegister config server now node with same | expired | accepted
      · rw [same] at held
        exact .kept held
      · rw [expired] at held
        exact .kept (lookupUnexpired.mp held).1
      · have entries := accepted.entries
        rw [entries] at held
        rcases lookupInserted held with ⟨rfl, rfl⟩ | ⟨_, old⟩
        · exact .registered now node _ accepted
        · exact .kept (lookupUnexpired.mp old).1
  | list now => exact .kept (lookupUnexpired.mp held).1
  | pulled peer now nodes => exact .kept held
  | admin now line =>
      have goes := administered config server now line
      generalize next config server (.admin now line) = t at goes held
      cases goes with
      | same => exact .kept held
      | expired => exact .kept (lookupUnexpired.mp held).1
      | rejected other => exact .kept (lookupErased held).2
      | rejectedGossip other => exact .kept held
      | approved other old command direct =>
          rcases lookupInserted held with ⟨rfl, rfl⟩ | ⟨_, same⟩
          · exact .approved now line _ old command direct
          · exact .kept same
      | approvedGossip other old command direct gossip => exact .kept held

theorem gossipedFrom (call : Call) (held : (next config server call).gossipEntries.lookup key = some e) :
    Gossiped config server call key e := by
  cases call with
  | register now node =>
      rcases nextRegister config server now node with same | expired | accepted
      · rw [same] at held
        exact .kept held
      · rw [expired] at held
        exact .kept (lookupUnexpired.mp held).1
      · rw [accepted.gossip] at held
        exact .kept (lookupUnexpired.mp held).1
  | list now => exact .kept (lookupUnexpired.mp held).1
  | pulled peer now nodes => exact .merged peer now nodes key e held
  | admin now line =>
      have goes := administered config server now line
      generalize next config server (.admin now line) = t at goes held
      cases goes with
      | same => exact .kept held
      | expired => exact .kept (lookupUnexpired.mp held).1
      | rejected other => exact .kept held
      | rejectedGossip other => exact .kept (lookupErased held).2
      | approved other old command direct => exact .kept held
      | approvedGossip other old command direct gossip =>
          rcases lookupInserted held with ⟨rfl, rfl⟩ | ⟨_, same⟩
          · exact .approved now line _ old command direct gossip
          · exact .kept same

end Calls

/-! Gossip, one node after the other. -/

section Merging
variable {peer : RegistryPeer} {now : Nat} {gossip : Entries} {node : RegistryNode} {key : Bytes} {e : RegistryEntry}

/- What a merge puts there for a node. -/
structure Merged (peer : RegistryPeer) (gossip : Entries) (node : RegistryNode) (e : RegistryEntry) : Prop where
  form : SameForm { node with sourceRegistry := peer.key } e.node
  status : e.status =
    ((gossip.lookup (registryKey node)).map (·.status)).getD (if peer.autoTrust then .approved else .pending)

theorem mergedFrom (held : (mergeNode peer now gossip node).lookup key = some e) :
    key = registryKey node ∧ Merged peer gossip node e ∨ key ≠ registryKey node ∧ gossip.lookup key = some e := by
  rcases lookupInserted held with ⟨rfl, rfl⟩ | ⟨other, old⟩
  · exact .inl ⟨rfl, .refl _, rfl⟩
  · refine .inr ⟨other, ?_⟩
    split at old
    · exact lookupEvicted old
    · exact old

end Merging
/-! Entries stand under their own keys, and name a source if and only if they come from a peer. -/

structure Keyed (server : RegistryServer) : Prop where
  direct : ∀ key e, server.entries.lookup key = some e → key = registryKey e.node ∧ e.node.sourceRegistry = []
  gossip : ∀ key e, server.gossipEntries.lookup key = some e → key = registryKey e.node ∧ e.node.sourceRegistry ≠ []

section Keys
variable {config : RegistryConfig} {server : RegistryServer} {key : Bytes} {e : RegistryEntry} {node : RegistryNode}

theorem keyedEmpty : Keyed {} := by
  constructor <;> intro key e held <;> simp [AList.lookup_empty] at held

theorem validDirect (valid : validateRegistryNode node false = .ok ()) : node.sourceRegistry = [] := by
  unfold validateRegistryNode at valid
  simp only [bind_ok, throwIf_ok] at valid
  obtain ⟨_, _, _, _, _, _, _, _, _, direct, _⟩ := valid
  simpa using direct

theorem mergedKeyed {peer : RegistryPeer} {now : Nat} {gossip : Entries}
    (keyed : ∀ key e, gossip.lookup key = some e → key = registryKey e.node ∧ e.node.sourceRegistry ≠ [])
    (nodes : List RegistryNode) (held : (nodes.foldl (mergeNode peer now) gossip).lookup key = some e) :
    key = registryKey e.node ∧ e.node.sourceRegistry ≠ [] := by
  induction nodes generalizing gossip with
  | nil => exact keyed _ _ held
  | cons node nodes ih =>
      refine ih (fun key e held => ?_) held
      rcases mergedFrom held with ⟨rfl, merged⟩ | ⟨_, old⟩
      · rw [registryKey, registryKey, ← merged.form.host, ← merged.form.port, ← merged.form.source]
        exact ⟨rfl, keyNonempty _⟩
      · exact keyed _ _ old

theorem Keyed.next (keyed : Keyed server) (call : Call) : Keyed (next config server call) := by
  constructor
  · intro key e held
    cases directFrom call held with
    | kept was => exact keyed.direct key e was
    | registered now node t accepted => exact ⟨rfl, validDirect accepted.valid⟩
    | approved now line key old command was => exact keyed.direct key old was
  · intro key e held
    cases gossipedFrom call held with
    | kept was => exact keyed.gossip key e was
    | merged peer now nodes _ _ merged => exact mergedKeyed keyed.gossip nodes merged
    | approved now line key old command direct was => exact keyed.gossip key old was

/- A registration is of the endpoint and the pin that were there before it. -/
theorem registeredForm {now : Nat} {t : RegistryServer} (accepted : Registered now node server t) (keyed : Keyed server)
    (held : (server.removeExpired now).entries.lookup (registryKey node) = some e) :
    SameForm e.node { node with remainingTtlSeconds := 0 } := by
  obtain ⟨same, source⟩ := keyed.direct _ _ (lookupUnexpired.mp held).1
  obtain ⟨host, port⟩ := registryKeyInj same
  exact ⟨host.symm, port.symm, accepted.samePin e held, source.trans (validDirect accepted.valid).symm⟩

end Keys

/-! What a snapshot lists. -/

section Listing
variable {node : RegistryNode} {now : Nat}

theorem listedFrom {map : Entries} (mem : node ∈ appendApproved now (removeExpiredFrom map now)) :
    ∃ key e, map.lookup key = some e ∧ now < e.expiresAt ∧ e.status = .approved ∧ SameForm e.node node := by
  obtain ⟨⟨key, e⟩, held, shown⟩ := List.mem_filterMap.mp mem
  obtain ⟨was, live⟩ := lookupUnexpired.mp (lookupEntries.mpr held)
  unfold listed at shown
  split at shown
  · contradiction
  · next approved =>
      cases shown
      exact ⟨key, e, was, live, not_not.mp approved, rfl, rfl, rfl, rfl⟩

theorem snapshotFrom {server : RegistryServer} : node ∈ server.snapshot now ↔
    node ∈ appendApproved now (removeExpiredFrom server.entries now) ∨
      node ∈ appendApproved now (removeExpiredFrom server.gossipEntries now) := by
  rw [snapshot, List.mem_insertionSort, List.mem_append]
  rfl

end Listing
end RegistryServer
end TradeP2P
