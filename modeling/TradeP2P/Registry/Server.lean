import TradeP2P.Lib.Machine
import TradeP2P.Protocol.Inversion
import Mathlib.Data.List.AList
import Mathlib.Data.List.Sort

/-! The registry: a directory of mediators. Nodes register themselves and wait for the operator's approval;
other registries are asked for what they list, and that is kept apart. -/
namespace TradeP2P
open Wire (Bytes ascii)
open Checks Machine

def maxRegistryNodes : Nat := 16
def maxGossipCachedNodes : Nat := 128

def decimal (n : Nat) : Bytes := (Nat.toDigits 10 n).map fun digit => UInt8.ofNat digit.toNat

def endpointKey (host : Bytes) (port : UInt16) : Bytes := host ++ 0x3a :: decimal port.toNat

structure Endpoint where
  host : Bytes
  port : UInt16
  deriving DecidableEq, Repr

def Endpoint.key (endpoint : Endpoint) : Bytes := endpointKey endpoint.host endpoint.port

def RegistryNode.endpoint (node : RegistryNode) : Endpoint := ⟨node.host, node.port⟩

def registryKey (node : RegistryNode) : Bytes := endpointKey node.host node.port

inductive RegistryStatus where
  | pending
  | approved
  deriving DecidableEq, Repr

-- Times are nanoseconds of the steady clock.
structure RegistryEntry where
  node : RegistryNode
  expiresAt : Nat
  status : RegistryStatus
  deriving DecidableEq, Repr

def seconds (n : Nat) : Nat := n * 1000000000

abbrev Entries := AList fun _ : Bytes => RegistryEntry

/- A registry that is asked for its list. How it is reached, and the pin it is checked with, is left out. -/
structure RegistryPeer where
  registry : Endpoint
  autoTrust : Bool
  deriving DecidableEq, Repr

def RegistryPeer.key (peer : RegistryPeer) : Bytes := peer.registry.key

structure RegistryConfig where
  adminToken : Bytes
  gossipPeers : List RegistryPeer

structure RegistryServer where
  entries : Entries := ∅
  gossipEntries : Entries := ∅

namespace RegistryServer

abbrev ServerM := EStateM Error RegistryServer

def removeExpiredFrom (map : Entries) (now : Nat) : Entries where
  entries := map.entries.filter fun entry => !decide (entry.2.expiresAt ≤ now)
  nodupKeys := map.nodupKeys.sublist List.filter_sublist

def removeExpired (now : Nat) (server : RegistryServer) : RegistryServer where
  entries := removeExpiredFrom server.entries now
  gossipEntries := removeExpiredFrom server.gossipEntries now

/-! Direct registrations. -/

def registerNode (now : Nat) (node : RegistryNode) : ServerM Unit := do
  validateRegistryNode node false
  let node := { node with remainingTtlSeconds := 0 }
  modify (removeExpired now)
  let server ← get
  let key := registryKey node
  let existing := server.entries.lookup key
  throwIf (existing.any (·.node.certificatePin ≠ node.certificatePin) = true)
    (Error.runtimeError "endpoint is already registered with a different certificate pin")
  throwIf (existing = none ∧ server.entries.keys.length ≥ maxRegistryNodes) (Error.runtimeError "registry is full")
  let status := (existing.map (·.status)).getD .pending
  set { server with
    entries := server.entries.insert key { node, expiresAt := now + seconds registryTtlSeconds.toNat, status } }

/-! Listing. -/

def listed (now : Nat) (entry : RegistryEntry) : Option RegistryNode :=
  if entry.status ≠ .approved then none
  else some { entry.node with remainingTtlSeconds := UInt32.ofNat (max 1 ((entry.expiresAt - now) / seconds 1)) }

def appendApproved (now : Nat) (map : Entries) : List RegistryNode := map.entries.filterMap fun entry => listed now entry.2

def before (left right : RegistryNode) : Bool :=
  if left.host ≠ right.host then left.host < right.host else left.port ≤ right.port

def snapshot (now : Nat) (server : RegistryServer) : List RegistryNode :=
  let server := server.removeExpired now
  (appendApproved now server.entries ++ appendApproved now server.gossipEntries).insertionSort (before · · = true)

/-! Gossip. -/

-- The first of those that expire soonest, in the order of the container.
def soonestExpiring (map : Entries) : Option Bytes :=
  (map.entries.foldl (fun soonest entry => some (soonest.elim entry fun best =>
    if entry.2.expiresAt < best.2.expiresAt then entry else best)) none).map (·.1)

def evictSoonestExpiring (map : Entries) : Entries := ((soonestExpiring map).map (map.erase ·)).getD map

def mergeNode (peer : RegistryPeer) (now : Nat) (gossip : Entries) (node : RegistryNode) : Entries :=
  let node := { node with sourceRegistry := peer.key }
  let key := registryKey node
  let existing := gossip.lookup key
  let status := (existing.map (·.status)).getD (if peer.autoTrust then .approved else .pending)
  let gossip := if existing = none ∧ gossip.keys.length ≥ maxGossipCachedNodes then evictSoonestExpiring gossip else gossip
  let ttl := max 1 (min node.remainingTtlSeconds registryTtlSeconds)
  gossip.insert key { node, expiresAt := now + seconds ttl.toNat, status }

def merge (peer : RegistryPeer) (now : Nat) (nodes : List RegistryNode) (server : RegistryServer) : RegistryServer :=
  { server with gossipEntries := nodes.foldl (mergeNode peer now) server.gossipEntries }

/-! The operator's line protocol. -/

inductive AdminReply where
  | unauthorized
  | pending (listing : List (Bytes × CertificatePin × Bytes))
  | invalidEndpoint
  | noSuchRegistration
  | ok
  | unknownCommand
  deriving DecidableEq, Repr

def isSpace (c : UInt8) : Bool := c = 0x20 ∨ 0x09 ≤ c ∧ c ≤ 0x0d

def words (line : Bytes) : List Bytes := (line.splitOnP isSpace).filter (· ≠ [])

def parsePort (text : Bytes) : Option UInt16 :=
  let value := text.foldl (fun n digit => 10 * n + (digit.toNat - 0x30)) 0
  if text ≠ [] ∧ text.all (fun digit => 0x30 ≤ digit ∧ digit ≤ 0x39) = true ∧ value < 65536 then some (UInt16.ofNat value)
  else none

def appendPending (map : Entries) : List (Bytes × CertificatePin × Bytes) := map.entries.filterMap fun entry =>
  if entry.2.status ≠ .pending then none
  else some (entry.1, entry.2.node.certificatePin, entry.2.node.sourceRegistry)

def approve (key : Bytes) (entry : RegistryEntry) (map : Entries) : Entries :=
  map.insert key { entry with status := .approved }

-- A direct registration goes before what a peer lists for the same endpoint.
def moderate (approves : Bool) (key : Bytes) (server : RegistryServer) : AdminReply × RegistryServer :=
  match server.entries.lookup key, server.gossipEntries.lookup key with
  | some entry, _ => (.ok, { server with
      entries := if approves then approve key entry server.entries else server.entries.erase key })
  | none, some entry => (.ok, { server with
      gossipEntries := if approves then approve key entry server.gossipEntries else server.gossipEntries.erase key })
  | none, none => (.noSuchRegistration, server)

inductive AdminCommand where
  | listPending
  | moderate (approves : Bool) (key : Bytes)
  deriving DecidableEq, Repr

def parseAdminLine (config : RegistryConfig) (line : Bytes) : Except AdminReply AdminCommand :=
  let words := words line
  let command := words.getD 0 []
  if config.adminToken = [] ∨ words.getD 1 [] ≠ config.adminToken then .error .unauthorized
  else if command = ascii "LISTPENDING" then .ok .listPending
  else if command = ascii "APPROVE" ∨ command = ascii "REJECT" then
    match words[2]?, parsePort (words.getD 3 []) with
    | some host, some port => .ok (.moderate (command = ascii "APPROVE") (endpointKey host port))
    | _, _ => .error .invalidEndpoint
  else .error .unknownCommand

def handleAdminLine (config : RegistryConfig) (now : Nat) (line : Bytes) (server : RegistryServer) :
    AdminReply × RegistryServer :=
  match parseAdminLine config line with
  | .error reply => (reply, server)
  | .ok .listPending =>
      let server := server.removeExpired now
      (.pending (appendPending server.entries ++ appendPending server.gossipEntries), server)
  | .ok (.moderate approves key) => moderate approves key server

/-! Runs of one registry. -/

inductive Call where
  | register (now : Nat) (node : RegistryNode)
  | admin (now : Nat) (line : Bytes)
  | list (now : Nat)
  | pulled (peer : RegistryPeer) (now : Nat) (nodes : List RegistryNode)
  deriving DecidableEq, Repr

def next (config : RegistryConfig) (server : RegistryServer) : Call → RegistryServer
  | .register now node => match registerNode now node server with
    | .ok _ t => t
    | .error _ t => t
  | .admin now line => (handleAdminLine config now line server).2
  | .list now => server.removeExpired now
  | .pulled peer now nodes => server.merge peer now nodes

end RegistryServer
end TradeP2P
