import TradeP2P.Registry.Listing

/-! The peers a registry pulls from, and whether what it holds can be sent. A node comes in through three checks: a
registration's, a peer's listing's, and the operator's peer list; the last one alone decides on the source label. -/
namespace TradeP2P
open Wire (Bytes ascii writtenEach writeManyAll)
open Checks Machine Maps

/- A peer of the operator's list: how it is reached, next to what the registry keeps of it. -/
structure ConfiguredPeer extends RegistryPeer where
  registryTls : Bytes
  proxy : Option Endpoint := none
  deriving DecidableEq, Repr

/- The environment variables of the peer list; an empty value is as good as none. -/
structure GossipEnvironment where
  peers : Bytes := []
  proxy : Bytes := []

namespace RegistryServer

def isDigit (c : UInt8) : Bool := 0x30 ≤ c ∧ c ≤ 0x39

-- The value, negated modulo the word where there is a minus, and how many characters were used.
def stoul (value : Bytes) : Except Error (Nat × Nat) := do
  let text := value.dropWhile isSpace
  let signed := text.head? = some 0x2b ∨ text.head? = some 0x2d
  let digits := (if signed then text.tail else text).takeWhile isDigit
  let parsed := digits.foldl (fun n digit => 10 * n + (digit.toNat - 0x30)) 0
  throwIf (digits = []) (.invalidArgument "stoul")
  throwIf (parsed ≥ 2 ^ 64) (.logicError "stoul")
  return (if text.head? = some 0x2d then (2 ^ 64 - parsed) % 2 ^ 64 else parsed,
    (value.takeWhile isSpace).length + (if signed then 1 else 0) + digits.length)

def parseGossipPort (value : Bytes) : Except Error UInt16 := do
  let (parsed, used) ← stoul value
  throwIf (used ≠ value.length ∨ parsed = 0 ∨ parsed > 65535)
    (.invalidArgument "invalid TRADEP2P_REGISTRY_GOSSIP_PEERS port")
  return UInt16.ofNat parsed

def malformedPeer : Error := .invalidArgument "TRADEP2P_REGISTRY_GOSSIP_PEERS entry must be host:port|pin[|trust]"

-- The host may hold colons; the last one stands before the port.
def parseGossipEndpoint (text : Bytes) : Except Error Endpoint := do
  let port := (text.reverse.takeWhile (· ≠ 0x3a)).reverse
  let host := text.take (text.length - (port.length + 1))
  throwIf (0x3a ∉ text ∨ host = [] ∨ port = []) malformedPeer
  return ⟨host, ← parseGossipPort port⟩

def parseGossipPeer (sharedProxy : Option Endpoint) (entry : Bytes) : Except Error ConfiguredPeer := do
  throwIf (0x7c ∉ entry) malformedPeer
  let fields := (entry.dropWhile (· ≠ 0x7c)).tail
  let registry ← parseGossipEndpoint (entry.takeWhile (· ≠ 0x7c))
  let registryTls := fields.takeWhile (· ≠ 0x7c)
  let autoTrust := decide ((fields.dropWhile (· ≠ 0x7c)).tail = ascii "1")
  let onion := ascii ".onion" <:+ registry.host
  throwIf (onion ∧ sharedProxy = none) (.invalidArgument
    "TRADEP2P_REGISTRY_GOSSIP_PEERS names an .onion peer but TRADEP2P_REGISTRY_GOSSIP_PROXY is unset")
  return { registry, autoTrust, registryTls, proxy := if onion then sharedProxy else none }

def configuredRegistryGossipPeers (environment : GossipEnvironment) : Except Error (List ConfiguredPeer) := do
  if environment.peers = [] then return []
  let sharedProxy ← if environment.proxy = [] then pure none else some <$> parseGossipEndpoint environment.proxy
  (environment.peers.splitOn 0x2c).mapM (parseGossipPeer sharedProxy)

/-! What can come in, and what can go out. -/

/- A pull brings what a configured peer sent, once it is decoded. -/
def Served (environment : GossipEnvironment) : Call → Prop
  | .pulled peer _ nodes => (∃ peers bytes, configuredRegistryGossipPeers environment = .ok peers ∧
      peer ∈ peers.map ConfiguredPeer.toRegistryPeer ∧ decodeRegistryNodes bytes = .ok ⟨nodes⟩)
  | _ => True

/- The label that a peer's nodes are listed under, host and port, is one that a listing may carry. -/
def LabelFits (peer : RegistryPeer) : Prop := validatePrintable peer.key maxNodeHostLength false "source registry" = .ok ()

def Labelled : Call → Prop
  | .pulled peer _ nodes => nodes ≠ [] → LabelFits peer
  | _ => True

-- No call before a listing read the clock a second or more after it.
def InTime (calls : List Call) (now : Nat) : Prop := ∀ call ∈ calls, call.time < now + seconds 1

def Listable (server : RegistryServer) (now : Nat) : Prop := ∃ bytes, encodeRegistryNodes ⟨server.snapshot now⟩ = .ok bytes

/-! Capacity. -/

section Capacity
variable {map : Entries}

structure Bounded (server : RegistryServer) : Prop where
  direct : server.entries.keys.length ≤ maxRegistryNodes
  gossip : server.gossipEntries.keys.length ≤ maxGossipCachedNodes

theorem keysUnexpired (map : Entries) (now : Nat) : (removeExpiredFrom map now).keys.length ≤ map.keys.length := by
  simp only [AList.keys, List.keys, List.length_map, removeExpiredFrom]
  exact List.length_filter_le ..

/- The search for the entry that expires soonest ends at one of the entries. -/
theorem soonestHeld (entries : List (Sigma fun _ : Bytes => RegistryEntry)) (first : Sigma fun _ : Bytes => RegistryEntry) :
    ∃ entry ∈ first :: entries, entries.foldl (fun soonest entry => some (soonest.elim entry fun best =>
      if entry.2.expiresAt < best.2.expiresAt then entry else best)) (some first) = some entry := by
  induction entries generalizing first with
  | nil => exact ⟨first, List.mem_cons_self, rfl⟩
  | cons entry entries ih =>
    by_cases sooner : entry.2.expiresAt < first.2.expiresAt
    · obtain ⟨found, mem, ends⟩ := ih entry
      refine ⟨found, List.mem_cons_of_mem _ mem, ?_⟩
      simpa [List.foldl_cons, sooner] using ends
    · obtain ⟨found, mem, ends⟩ := ih first
      refine ⟨found, ?_, by simpa [List.foldl_cons, sooner] using ends⟩
      cases mem with
      | head => exact List.mem_cons_self
      | tail _ mem => exact List.mem_cons_of_mem _ (List.mem_cons_of_mem _ mem)

theorem keysEvicted (full : 0 < map.keys.length) : (evictSoonestExpiring map).keys.length + 1 = map.keys.length := by
  have soonest : ∃ key ∈ map.keys, soonestExpiring map = some key := by
    unfold soonestExpiring
    cases entries : map.entries with
    | nil => simp [AList.keys, List.keys, entries] at full
    | cons first rest =>
      obtain ⟨found, mem, ends⟩ := soonestHeld rest first
      refine ⟨found.1, ?_, by simp [List.foldl_cons, ends]⟩
      rw [AList.keys, List.keys, entries]
      exact List.mem_map_of_mem mem
  obtain ⟨key, mem, found⟩ := soonest
  rw [evictSoonestExpiring, found, Option.map_some, Option.getD_some, keysErasedOne mem]

theorem mergedBounded {peer : RegistryPeer} {now : Nat} {node : RegistryNode} (bounded : map.keys.length ≤ maxGossipCachedNodes) :
    (mergeNode peer now map node).keys.length ≤ maxGossipCachedNodes := by
  unfold mergeNode
  extract_lets node key existing status gossip ttl
  by_cases known : existing = none
  · have room : gossip.keys.length + 1 ≤ maxGossipCachedNodes := by
      unfold gossip
      split
      next full =>
        rw [keysEvicted (by unfold maxGossipCachedNodes at full; omega)]
        exact bounded
      next roomy =>
        have : ¬map.keys.length ≥ maxGossipCachedNodes := fun full => roomy ⟨known, full⟩
        omega
    exact (keysAdded ..).trans room
  · have same : gossip = map := if_neg fun full => known full.1
    rw [same, keysReplaced known]
    exact bounded

theorem Bounded.next {config : RegistryConfig} {server : RegistryServer} (bounded : Bounded server) (call : Call) :
    Bounded (next config server call) := by
  have expired (now : Nat) : Bounded (server.removeExpired now) :=
    ⟨(keysUnexpired ..).trans bounded.direct, (keysUnexpired ..).trans bounded.gossip⟩
  cases call with
  | list now => exact expired now
  | pulled peer now nodes =>
    refine ⟨bounded.direct, ?_⟩
    have gossip := bounded.gossip
    simp only [RegistryServer.next, merge]
    generalize server.gossipEntries = map at gossip
    induction nodes generalizing map with
    | nil => exact gossip
    | cons node nodes ih => exact ih _ (mergedBounded gossip)
  | register now node =>
    rcases nextRegister config server now node with same | gone | accepted
    · rwa [same]
    · rw [gone]
      exact expired now
    · refine ⟨?_, by rw [accepted.gossip]; exact (expired now).gossip⟩
      rw [accepted.entries]
      by_cases known : (server.removeExpired now).entries.lookup (registryKey node) = none
      · exact (keysAdded ..).trans (accepted.fits known)
      · rw [keysReplaced known]
        exact (expired now).direct
  | admin now line =>
    have goes := administered config server now line
    generalize RegistryServer.next config server (.admin now line) = t at goes ⊢
    cases goes with
    | same => exact bounded
    | expired => exact expired now
    | rejected key => exact ⟨(keysErased ..).trans bounded.direct, bounded.gossip⟩
    | rejectedGossip key => exact ⟨bounded.direct, (keysErased ..).trans bounded.gossip⟩
    | approved key old command direct =>
      refine ⟨?_, bounded.gossip⟩
      rw [approve, keysReplaced (by simp [direct])]
      exact bounded.direct
    | approvedGossip key old command direct gossip =>
      refine ⟨bounded.direct, ?_⟩
      rw [approve, keysReplaced (by simp [gossip])]
      exact bounded.gossip

end Capacity

/-! Nodes that a listing may carry. -/

section Listings
variable {config : RegistryConfig} {server : RegistryServer} {node : RegistryNode} {bound now : Nat}

/- The node is fit for a listing, whatever time it has left. -/
structure Listed (node : RegistryNode) : Prop where
  host : validatePrintable node.host maxNodeHostLength false "node host" = .ok ()
  port : node.port ≠ 0
  pin : validateCertificatePin node.certificatePin = .ok ()
  source : node.sourceRegistry ≠ [] → validatePrintable node.sourceRegistry maxNodeHostLength false "source registry" = .ok ()

theorem registeredListed (valid : validateRegistryNode node false = .ok ()) : Listed { node with remainingTtlSeconds := 0 } := by
  have direct := validDirect valid
  unfold validateRegistryNode at valid
  simp only [bind_ok, throwIf_ok] at valid
  obtain ⟨_, host, _, port, _, pin, _⟩ := valid
  exact ⟨host, port, pin, fun named => absurd direct named⟩

theorem servedListed (valid : validateRegistryNode node true = .ok ()) {peer : RegistryPeer} (fits : LabelFits peer) :
    Listed { node with sourceRegistry := peer.key } := by
  unfold validateRegistryNode at valid
  simp only [bind_ok, throwIf_ok] at valid
  obtain ⟨_, host, _, port, _, pin, _⟩ := valid
  exact ⟨host, port, pin, fun _ => fits⟩

theorem printableShort {value : Bytes} {maximum : Nat} {allowSpaces : Bool} {label : String}
    (printable : validatePrintable value maximum allowSpaces label = .ok ()) : value.length ≤ maximum := by
  simp only [validatePrintable, bind_ok, throwIf_ok] at printable
  obtain ⟨_, short, _⟩ := printable
  omega

theorem Listed.encodes (fit : Listed node) (left : node.remainingTtlSeconds ≠ 0)
    (short : node.remainingTtlSeconds ≤ registryTtlSeconds) : ∃ bytes, encodeRegistryNode node true = .ok bytes := by
  have labelled : node.sourceRegistry.length ≤ maxNodeHostLength := by
    by_cases named : node.sourceRegistry = []
    · simp [named]
    · exact printableShort (fit.source named)
  have valid : validateRegistryNode node true = .ok () := by
    simp only [validateRegistryNode, bind_ok, throwIf_ok, fit.host, fit.port, fit.pin, left]
    by_cases named : node.sourceRegistry = []
    · simpa [named, pure_ok] using short
    · simpa [named, fit.source named] using short
  have hostFits : Fits node.host maxNodeHostLength := ⟨printableShort fit.host, (printableShort fit.host).trans (by decide)⟩
  have sourceFits : Fits node.sourceRegistry maxNodeHostLength := ⟨labelled, labelled.trans (by decide)⟩
  unfold encodeRegistryNode
  exact ⟨_, bind_ok.mpr ⟨(), valid, bind_ok.mpr ⟨_, shortStringOk.mpr ⟨hostFits, rfl⟩,
    bind_ok.mpr ⟨_, shortStringOk.mpr ⟨sourceFits, rfl⟩, rfl⟩⟩⟩⟩

theorem decodedValid {bytes : Bytes} {nodes : List RegistryNode} (decoded : decodeRegistryNodes bytes = .ok ⟨nodes⟩) :
    ∀ node ∈ nodes, validateRegistryNode node true = .ok () := by
  have encoded : encodeRegistryNodes ⟨nodes⟩ = .ok bytes := invertsRegistryNodes.whole.mp decoded
  simp only [encodeRegistryNodes, bind_ok] at encoded
  obtain ⟨_, _, written, each, _⟩ := encoded
  intro node mem
  obtain ⟨item, one⟩ := writtenEach each node mem
  obtain ⟨_, valid, _⟩ := bind_ok.mp one
  exact valid

/- Every entry is fit for a listing, and ends within the time that a call before the bound gives it. -/
def Lasting (bound : Nat) (map : Entries) : Prop :=
  ∀ key e, map.lookup key = some e → Listed e.node ∧ e.expiresAt < bound + seconds registryTtlSeconds.toNat

theorem timeGiven (left : UInt32) : (max 1 (min left registryTtlSeconds)).toNat ≤ registryTtlSeconds.toNat := by
  change (if 1 ≤ (if left ≤ 300 then left else 300) then (if left ≤ 300 then left else 300) else 1 : UInt32).toNat ≤ 300
  by_cases short : left ≤ 300
  · simp only [if_pos short]
    split
    · exact short
    · decide
  · simp only [if_neg short]
    decide

theorem mergedLasting {peer : RegistryPeer} (fits : LabelFits peer) (early : now < bound) {map : Entries}
    (lasting : Lasting bound map) (valid : validateRegistryNode node true = .ok ()) :
    Lasting bound (mergeNode peer now map node) := by
  intro key e held
  rcases lookupInserted held with ⟨rfl, rfl⟩ | ⟨_, old⟩
  · refine ⟨servedListed valid fits, ?_⟩
    have most := timeGiven node.remainingTtlSeconds
    have := Nat.mul_le_mul_right 1000000000 most
    exact Nat.add_lt_add_of_lt_of_le early this
  · refine lasting key e ?_
    split at old
    · exact lookupEvicted old
    · exact old

theorem pulledLasting {peer : RegistryPeer} (fits : LabelFits peer) (early : now < bound) (nodes : List RegistryNode)
    (valid : ∀ node ∈ nodes, validateRegistryNode node true = .ok ()) {map : Entries} (lasting : Lasting bound map) :
    Lasting bound (nodes.foldl (mergeNode peer now) map) := by
  induction nodes generalizing map with
  | nil => exact lasting
  | cons node nodes ih =>
    have first := mergedLasting fits early lasting (valid node List.mem_cons_self)
    exact ih (fun later mem => valid later (List.mem_cons_of_mem _ mem)) first

theorem lastingNext {environment : GossipEnvironment} (call : Call) (served : Served environment call) (labelled : Labelled call)
    (early : call.time < bound) (direct : Lasting bound server.entries) (gossip : Lasting bound server.gossipEntries) :
    Lasting bound (next config server call).entries ∧ Lasting bound (next config server call).gossipEntries := by
  constructor
  · intro key e held
    cases directFrom call held with
    | kept was => exact direct key e was
    | registered now node t accepted => exact ⟨registeredListed accepted.valid, Nat.add_lt_add_right early _⟩
    | approved now line key old command was => exact direct key old was
  · intro key e held
    cases gossipedFrom call held with
    | kept was => exact gossip key e was
    | merged peer now nodes _ _ merged =>
      by_cases some_ : nodes = []
      · subst some_
        exact gossip key e merged
      · obtain ⟨_, _, _, _, decoded⟩ := served
        exact pulledLasting (labelled some_) early nodes (decodedValid decoded) gossip key e merged
    | approved now line key old command _ was => exact gossip key old was

theorem lastingRun (config : RegistryConfig) {environment : GossipEnvironment} {calls : List Call} (served : ∀ call ∈ calls, Served environment call)
    (labelled : ∀ call ∈ calls, Labelled call) (early : ∀ call ∈ calls, call.time < bound) :
    Lasting bound (watched config calls).server.entries ∧ Lasting bound (watched config calls).server.gossipEntries := by
  induction calls using List.reverseRecOn with
  | nil => constructor <;> intro key e held <;> simp [watched, AList.lookup_empty] at held
  | append_singleton calls call ih =>
    have last : call ∈ calls ++ [call] := by simp
    have before := ih (fun c mem => served c (by simp [mem])) (fun c mem => labelled c (by simp [mem]))
      fun c mem => early c (by simp [mem])
    rw [watched, List.foldl_append]
    exact lastingNext call (served call last) (labelled call last) (early call last) before.1 before.2

theorem boundedRun (config : RegistryConfig) (calls : List Call) : Bounded (watched config calls).server := by
  induction calls using List.reverseRecOn with
  | nil => exact ⟨Nat.zero_le _, Nat.zero_le _⟩
  | append_singleton calls call ih =>
    rw [watched, List.foldl_append]
    exact ih.next call

-- The time an entry has left is what it was given, less what has gone by.
theorem listedEncodes {map : Entries} (lasting : Lasting (now + seconds 1) map)
    (mem : node ∈ appendApproved now (removeExpiredFrom map now)) : ∃ bytes, encodeRegistryNode node true = .ok bytes := by
  obtain ⟨⟨key, e⟩, held, shown⟩ := List.mem_filterMap.mp mem
  obtain ⟨fit, ends⟩ := lasting key e (lookupUnexpired.mp (lookupEntries.mpr held)).1
  unfold listed at shown
  split at shown
  · cases shown
  · cases shown
    have most : max 1 ((e.expiresAt - now) / seconds 1) ≤ 300 := by
      simp only [seconds, show registryTtlSeconds.toNat = 300 from rfl] at ends ⊢
      omega
    have least : 1 ≤ max 1 ((e.expiresAt - now) / seconds 1) := Nat.le_max_left ..
    generalize max 1 ((e.expiresAt - now) / seconds 1) = left at most least
    have value : (UInt32.ofNat left).toNat = left := UInt32.toNat_ofNat_of_lt' (most.trans_lt (by decide))
    refine Listed.encodes ⟨fit.host, fit.port, fit.pin, fit.source⟩ (fun none_ => ?_) ?_
    · have none_ : UInt32.ofNat left = 0 := none_
      rw [none_] at value
      exact absurd value.symm (by simpa using Nat.ne_of_gt least)
    · exact UInt32.le_iff_toNat_le.mpr (value.trans_le most)

theorem snapshotShort (bounded : Bounded server) (now : Nat) : (server.snapshot now).length ≤ maxRegistryNodesInList := by
  have shorter (map : Entries) : (appendApproved now (removeExpiredFrom map now)).length ≤ map.keys.length :=
    (List.length_filterMap_le ..).trans ((List.length_map Sigma.fst).symm.trans_le (keysUnexpired map now))
  have both := Nat.add_le_add ((shorter server.entries).trans bounded.direct) ((shorter server.gossipEntries).trans bounded.gossip)
  rw [snapshot, List.length_insertionSort, List.length_append]
  exact both.trans (by decide)

end Listings

/- In every run, whatever its peers are called, the registry stays within its limits and a pull leaves the direct
entries as they are; and if the labels of the peers it pulls from fit, and no call read its clock a second or more
after the listing does, every listing can be sent. -/
theorem listingsSent (environment : GossipEnvironment) (config : RegistryConfig) (calls : List Call)
    (served : ∀ call ∈ calls, Served environment call) :
    Bounded (watched config calls).server ∧ AtEveryCall config (KeepsDirect config) calls ∧
      ((∀ call ∈ calls, Labelled call) → ∀ now, InTime calls now → Listable (watched config calls).server now) := by
  refine ⟨boundedRun config calls, fun _ call _ _ => keepsDirect call, fun labelled now inTime => ?_⟩
  have lasting := lastingRun config served labelled inTime
  have each : ∀ node ∈ (watched config calls).server.snapshot now, ∃ bytes, encodeRegistryNode node true = .ok bytes := by
    intro node mem
    rcases snapshotFrom.mp mem with direct | gossip
    · exact listedEncodes lasting.1 direct
    · exact listedEncodes lasting.2 gossip
  obtain ⟨bytes, written⟩ := writeManyAll each
  refine ⟨_, bind_ok.mpr ⟨(), throwIf_ok.mpr ?_, bind_ok.mpr ⟨bytes, written, rfl⟩⟩⟩
  exact Nat.not_lt.mpr (snapshotShort (boundedRun config calls) now)

/- A peer whose host and port together are longer than a label, and a listing that read the clock too early. -/
section Refused

def peerLine (host : Bytes) : GossipEnvironment where
  peers := host ++ ascii ":10000|00|1"

def pullsFrom (host : Bytes) : List Call := [.pulled ⟨⟨host, 10000⟩, true⟩ 0 [twiceNode 2 300]]

def longHost : Bytes := List.replicate 92 0x61

theorem longPeer : configuredRegistryGossipPeers (peerLine longHost) = .ok [⟨⟨⟨longHost, 10000⟩, true⟩, ascii "00", none⟩] := by rfl

theorem shortPeer : configuredRegistryGossipPeers (peerLine (ascii "peer-two.example")) =
    .ok [⟨⟨⟨ascii "peer-two.example", 10000⟩, true⟩, ascii "00", none⟩] := by rfl

def sentNodes : Bytes := (encodeRegistryNodes ⟨[twiceNode 2 300]⟩).toOption.getD []

theorem sentDecodes : decodeRegistryNodes sentNodes = .ok ⟨[twiceNode 2 300]⟩ := by rfl

theorem pullServed {host : Bytes} {peers : List ConfiguredPeer} (parsed : configuredRegistryGossipPeers (peerLine host) = .ok peers)
    (named : (⟨⟨host, 10000⟩, true⟩ : RegistryPeer) ∈ peers.map ConfiguredPeer.toRegistryPeer) :
    ∀ call ∈ pullsFrom host, Served (peerLine host) call := by
  intro call mem
  rw [List.mem_singleton.mp mem]
  exact ⟨peers, sentNodes, parsed, named, sentDecodes⟩

def lateApproved : List Call :=
  [.register (seconds 3) (twiceNode 1 0), .admin (seconds 3) (ascii "APPROVE token mediator.example 7443")]

def sends (calls : List Call) (now : Nat) : Bool := (encodeRegistryNodes ⟨(watched trustingConfig calls).server.snapshot now⟩).isOk

theorem sendsRun : sends (pullsFrom longHost) (seconds 1) = false ∧ sends lateApproved (seconds 1) = false := by decide +kernel

theorem sendsNot {calls : List Call} {now : Nat} (refused : sends calls now = false) :
    ¬Listable (watched trustingConfig calls).server now := by
  intro listable
  obtain ⟨bytes, encoded⟩ := listable
  rw [sends, encoded] at refused
  cases refused

theorem listingRefused :
    ((∀ call ∈ pullsFrom longHost, Served (peerLine longHost) call) ∧ InTime (pullsFrom longHost) (seconds 1) ∧
      ¬Listable (watched trustingConfig (pullsFrom longHost)).server (seconds 1)) ∧
    ((∀ call ∈ lateApproved, Served {} call) ∧ (∀ call ∈ lateApproved, Labelled call) ∧
      ¬Listable (watched trustingConfig lateApproved).server (seconds 1)) := by
  refine ⟨⟨pullServed longPeer (by simp), ?_, sendsNot sendsRun.1⟩, ?_, ?_, sendsNot sendsRun.2⟩
  · intro call mem
    rw [List.mem_singleton.mp mem]
    decide
  · simp [lateApproved, Served]
  · simp [lateApproved, Labelled]

theorem listingSent : (∀ call ∈ pullsFrom (ascii "peer-two.example"), Served (peerLine (ascii "peer-two.example")) call) ∧
    Listable (watched trustingConfig (pullsFrom (ascii "peer-two.example"))).server (seconds 1) := by
  have served := pullServed shortPeer (by simp)
  refine ⟨served, (listingsSent (peerLine (ascii "peer-two.example")) trustingConfig _ served).2.2 ?_ _ ?_⟩
  · intro call mem
    rw [List.mem_singleton.mp mem]
    exact fun _ => rfl
  · intro call mem
    rw [List.mem_singleton.mp mem]
    decide

end Refused
end RegistryServer
end TradeP2P
