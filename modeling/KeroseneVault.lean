import KeroseneVault.Lib.Runs
import KeroseneVault.Lib.Steps
import KeroseneVault.Lib.LineLog
import KeroseneVault.Lib.TornLog
import KeroseneVault.Lib.Table
import KeroseneVault.Lib.SortedMap
import KeroseneVault.Lib.PolyCommit
import KeroseneVault.Lib.Results
import KeroseneVault.Lib.Tally
import KeroseneVault.Lib.Ballot
import KeroseneVault.Lib.Rounds
import KeroseneVault.Domain.Basic
import KeroseneVault.Domain.Hex
import KeroseneVault.Domain.Bucket
import KeroseneVault.Domain.IntentBind
import KeroseneVault.Domain.PsbtPolicy
import KeroseneVault.Domain.Outflow
import KeroseneVault.Ledger.InMemory
import KeroseneVault.Ledger.Persisted
import KeroseneVault.Ledger.DurableLedger
import KeroseneVault.Ledger.Quorum
import KeroseneVault.Ledger.Transport
import KeroseneVault.Ledger.Refinement
import KeroseneVault.Ledger.Accounts
import KeroseneVault.Ledger.Entries
import KeroseneVault.Ledger.Accounting
import KeroseneVault.Ledger.Backing
import KeroseneVault.Ledger.Rollback
import KeroseneVault.Ledger.ConsumedLog
import KeroseneVault.Ledger.Solo
import KeroseneVault.Ledger.Governance
import KeroseneVault.Application.GateIntent
import KeroseneVault.Application.DailyCap
import KeroseneVault.Rotation.Daily
import KeroseneVault.Rotation.Lifetime
import KeroseneVault.Rotation.VoteMesh
import KeroseneVault.Rotation.DailyCaps
import KeroseneVault.Rotation.Reshare
import KeroseneVault.Rotation.ReshareAbort
import KeroseneVault.Mesh.Membership
import KeroseneVault.Mesh.Model
import KeroseneVault.Mesh.Effects
import KeroseneVault.Mesh.Commit
import KeroseneVault.Mesh.Safety
import KeroseneVault.Session.AntiNonce
import KeroseneVault.Session.DurableStore
import KeroseneVault.Session.Mesh
import KeroseneVault.Session.ClaimLog
import KeroseneVault.Session.Retry
import KeroseneVault.Http.Handlers
import KeroseneVault.Http.SpendCover
import KeroseneVault.Http.HybridGate
import KeroseneVault.Cosign.Peer
import KeroseneVault.Cosign.NonceHygiene
import KeroseneVault.Cosign.PolicyCheck
import KeroseneVault.Cosign.Coordinator
import KeroseneVault.Cosign.Rounds
import KeroseneVault.Cosign.Honest
import KeroseneVault.Cosign.PlainFrost
import KeroseneVault.Cosign.Availability
import KeroseneVault.Cosign.Keysets
import KeroseneVault.Cosign.Attribution
import KeroseneVault.Cosign.Overlap
import KeroseneVault.Dkg.Frost
import KeroseneVault.Dkg.ShareStore
import KeroseneVault.Dkg.Hub
import KeroseneVault.Dkg.Session
import KeroseneVault.Dkg.Mesh
import KeroseneVault.Dkg.Honest
import KeroseneVault.Dkg.WellFormed
import KeroseneVault.Dkg.PolyFrost
import KeroseneVault.Dkg.SmallFrost
import KeroseneVault.Dkg.Refresh
import KeroseneVault.Dkg.PolyRefresh
import KeroseneVault.Dkg.Persist
import KeroseneVault.Dkg.SealedShares
import KeroseneVault.Dkg.Completion
import KeroseneVault.Dkg.Agreement
import KeroseneVault.Dkg.Inbox
import KeroseneVault.Dkg.Fanout
import KeroseneVault.Dkg.Freeze
import KeroseneVault.Dkg.Overwrite
import KeroseneVault.Dkg.Refinement
import KeroseneVault.Dkg.ReshareHub
import KeroseneVault.Dkg.ReshareSession
import KeroseneVault.Dkg.ReshareFreeze
import KeroseneVault.Dkg.ReshareMesh
import KeroseneVault.Dkg.ReshareRestart
import KeroseneVault.Dkg.BadInput
import KeroseneVault.Application.EconomyOps
import KeroseneVault.Http.ReleaseRoutes
import KeroseneVault.Ledger.AccrualThreads
import KeroseneVault.Lib.Json
import KeroseneVault.Release.Allowlist
import KeroseneVault.Release.Blobs
import KeroseneVault.Release.Interleaving
import KeroseneVault.Release.Persist
import KeroseneVault.Release.Rewards
import KeroseneVault.Application.Printing
import KeroseneVault.Dkg.Transcripts
import KeroseneVault.Economy.Payouts
import KeroseneVault.Economy.Persisted
import KeroseneVault.Http.RateLimiter
import KeroseneVault.Http.Middleware
import KeroseneVault.Http.RateLimits
import KeroseneVault.Identity.Sign
import KeroseneVault.Lib.Disk
import KeroseneVault.Storage.AtomicWrite
import KeroseneVault.Domain.Prevouts
import KeroseneVault.Dkg.TwoKeysets
import KeroseneVault.Economy.Cadence
import KeroseneVault.Economy.Conservation
import KeroseneVault.Economy.Proposals
import KeroseneVault.Http.SignatureIntake
import KeroseneVault.Identity.BoundMessage
import KeroseneVault.Identity.Rotate
import KeroseneVault.Domain.NodeTier
import KeroseneVault.Attestation.Quote
import KeroseneVault.Identity.KeyBytes
import KeroseneVault.Identity.Seeds
import KeroseneVault.Rotation.DayText
import KeroseneVault.Application.Migration
import KeroseneVault.Signer.Session
import KeroseneVault.Signer.Handlers
import KeroseneVault.Signer.Completeness
import KeroseneVault.Lib.Interpolation
import KeroseneVault.Lab.Field
import KeroseneVault.Lab.Dkg
import KeroseneVault.Lab.Threshold
import KeroseneVault.Http.Spiffe
import KeroseneVault.Identity.Archives
import KeroseneVault.Cosign.IntentSign
import KeroseneVault.Cosign.SignPsbt
import KeroseneVault.Cosign.SignNode
import KeroseneVault.Http.FinancialQuorum
import KeroseneVault.Storage.TpmPassphrase
import KeroseneVault.Http.VaultNode
import KeroseneVault.Dkg.InProcess
import KeroseneVault.Cosign.PolySigning
import KeroseneVault.Cosign.LabNode
import KeroseneVault.Cosign.TrSuite
import KeroseneVault.Cosign.WireKeys
import KeroseneVault.Bootstrap.Config
import KeroseneVault.Bootstrap.Hygiene
import KeroseneVault.Bootstrap.Doors
import KeroseneVault.Bootstrap.Genesis
