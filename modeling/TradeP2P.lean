import TradeP2P.Lib.Machine
import TradeP2P.Lib.Wire
import TradeP2P.Protocol.Terms
import TradeP2P.Mediator.Session
import TradeP2P.Mediator.Step
import TradeP2P.Mediator.Agenda
import TradeP2P.Mediator.Progress
import TradeP2P.Mediator.Turns
import TradeP2P.Mediator.Settlement
import TradeP2P.Mediator.Liveness
import TradeP2P.Mediator.Signals
import TradeP2P.Mediator.Gate
import TradeP2P.Mediator.Restore
import TradeP2P.Mediator.Reconfigure
import TradeP2P.Journal.Records
import TradeP2P.Journal.Journal
import TradeP2P.Journal.Chain
import TradeP2P.Journal.Replay
import TradeP2P.Journal.TornTail
import TradeP2P.Lib.Contracts
import TradeP2P.Protocol.Receipt
import TradeP2P.Hub.Room
import TradeP2P.Hub.Outcome
import TradeP2P.Hub.Completion
import TradeP2P.Hub.ReceiptChain
import TradeP2P.Protocol.Evidence
import TradeP2P.Protocol.Inversion
import TradeP2P.Protocol.Codec
import TradeP2P.Protocol.SecureChannel
import TradeP2P.Protocol.ReceiptChain
import TradeP2P.Protocol.SignedPayloads
import TradeP2P.Protocol.Disclosure
import TradeP2P.Journal.Transitions
import TradeP2P.Journal.Accepts
import TradeP2P.Journal.Tamper
import TradeP2P.Lib.HashChain
import TradeP2P.Lib.Locking
import TradeP2P.Hub.Locks
import TradeP2P.Hub.Deadlock
import TradeP2P.Hub.Delivery
import TradeP2P.Client.RoomView
import TradeP2P.Client.Shown
import TradeP2P.Hub.Order
import TradeP2P.Lib.Queueing
import TradeP2P.Hub.Overtaking
import TradeP2P.Identity.Recognition
import TradeP2P.Identity.SingleUse
import TradeP2P.Registry.Server
import TradeP2P.Registry.Refresh
import TradeP2P.Registry.Approval
import TradeP2P.Registry.Gossip
import TradeP2P.Registry.Listing
import TradeP2P.Lib.Aead
import TradeP2P.Identity.History
import TradeP2P.Lib.Keyed
import TradeP2P.Identity.Entries
import TradeP2P.Identity.Accounting
import TradeP2P.Identity.Restart
import TradeP2P.Identity.Keystore
import TradeP2P.Identity.LifeCycle
import TradeP2P.Identity.Generations
import TradeP2P.Hub.Tables
import TradeP2P.Hub.Occupancy
import TradeP2P.Hub.Persistence
import TradeP2P.Lib.Separators
import TradeP2P.Lib.Directory
import TradeP2P.Client.Recovery
import TradeP2P.Credential.Authorization
import TradeP2P.Credential.IssuanceStore
import TradeP2P.Credential.TicketStore
import TradeP2P.Credential.Signer
import TradeP2P.Lib.Coefficients
import TradeP2P.Lib.Halving
import TradeP2P.Lib.Elimination
import TradeP2P.Blind.Ring
import TradeP2P.Blind.Inverse
import TradeP2P.Blind.InverseChecked
import TradeP2P.Blind.Sampling
import TradeP2P.Blind.Sign
import TradeP2P.Blind.IntegerRing
import TradeP2P.Blind.Reduce
import TradeP2P.Blind.NtruSolve
import TradeP2P.Blind.PolyMul
import TradeP2P.Blind.Karatsuba
import TradeP2P.Lib.Butterflies
import TradeP2P.Blind.NttTables
import TradeP2P.Blind.Ntt
import TradeP2P.Lib.Sha256
import TradeP2P.Lib.Shake256
import TradeP2P.Blind.ProverCore
import TradeP2P.Blind.Nizk2
import TradeP2P.Blind.Nizk1
import TradeP2P.Blind.Presentation
import TradeP2P.Blind.Completeness
import TradeP2P.Credential.Polling
import TradeP2P.Credential.Nullifiers
import TradeP2P.Protocol.Escape
import TradeP2P.Lib.Outstanding
import TradeP2P.Identity.Login
import TradeP2P.Identity.Capacity
import TradeP2P.Journal.PartialWrite
import TradeP2P.Lib.Paging
import TradeP2P.Hub.OfferPages
import TradeP2P.Identity.KeyLogin
import TradeP2P.Identity.ChallengeRace
import TradeP2P.Identity.Enumeration
import TradeP2P.Hub.Atomicity
import TradeP2P.Registry.Peers
import TradeP2P.Identity.SessionManager
import TradeP2P.Identity.Teardown
import TradeP2P.Credential.ClientSession
import TradeP2P.Credential.Sequencing
import TradeP2P.Blind.Acceptance
import TradeP2P.Credential.IssuancePath
import TradeP2P.Credential.Uniqueness
import TradeP2P.Hub.Onlooker
import TradeP2P.Hub.Prices
import TradeP2P.Identity.Rollback
import TradeP2P.Mediator.FeeConfig
import TradeP2P.Client.ReceiptFrames
import TradeP2P.Hub.RoomFile
import TradeP2P.Lib.Rejection
import TradeP2P.Blind.HashToPoint
import TradeP2P.Lib.Refusals
import TradeP2P.Blind.SignerKeystore
import TradeP2P.Identity.RateLimit
import TradeP2P.Client.Outcomes
import TradeP2P.Lib.Methods
import TradeP2P.Credential.Chunking
import TradeP2P.Credential.Assembling
import TradeP2P.Credential.Recovery
import TradeP2P.Lib.Updates
import TradeP2P.Credential.TicketMap
import TradeP2P.Lib.TornLog
import TradeP2P.Identity.AccountFile
import TradeP2P.Identity.Durability
import TradeP2P.Lib.Forms
import TradeP2P.Lib.Adjoint
import TradeP2P.Lib.Pivoting
import TradeP2P.Blind.RealRing
import TradeP2P.Blind.SigningTree
import TradeP2P.Blind.NearestPlane
import TradeP2P.Blind.GlobalReduce
import TradeP2P.Blind.Generate
import TradeP2P.Hub.ClientLoop
import TradeP2P.Hub.FeeGate
import TradeP2P.Hub.AdminChannel
import TradeP2P.Hub.AdminAnswers
