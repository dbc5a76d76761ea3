import AvmSdk.Wire.LittleEndian
import AvmSdk.Wire.Cursor
import AvmSdk.Wire.Iteration
import AvmSdk.Alloc.Stack
import AvmSdk.Sdk.Input.Deploy
import AvmSdk.Sdk.Output.Gate
import AvmSdk.Sdk.Runtime.Allocator
import AvmSdk.Sdk.Runtime.Writer
import AvmSdk.Sdk.Runtime.Reservation
import AvmSdk.Sdk.Runtime.Dispatch
import AvmSdk.Sdk.Runtime.Soundness
import AvmSdk.Trace.Ascending
import AvmSdk.Trace.Pairing
import AvmSdk.Wire.Layout
import AvmSdk.Wire.Tally
import AvmSdk.Sdk.Output.EventFields
import AvmSdk.Contracts.Hub.Core
import AvmSdk.Shares.Proportion
import AvmSdk.Contracts.Hub.Config
import AvmSdk.Contracts.Hub.State
import AvmSdk.Contracts.Hub.Validity
import AvmSdk.Contracts.Hub.Ledger
import AvmSdk.Contracts.Hub.Vault
import AvmSdk.Contracts.Hub.Step
import AvmSdk.Contracts.Hub.Process
import AvmSdk.Contracts.Hub.Refusal
import AvmSdk.Contracts.Hub.Machine
import AvmSdk.Contracts.Handler
import AvmSdk.Contracts.Hub.Conservation
import AvmSdk.Contracts.Hub.Availability
import AvmSdk.Contracts.Hub.Members
import AvmSdk.Contracts.Hub.Claims
import AvmSdk.Contracts.Hub.Governance
import AvmSdk.Contracts.Hub.Receiver
import AvmSdk.Contracts.Network
import AvmSdk.Contracts.Hub.Agreement
import AvmSdk.Sdk.Input.Signed
import AvmSdk.Contracts.Hub.Deployment
import AvmSdk.Contracts.Payments
import AvmSdk.Shares.Schedule
import AvmSdk.Contracts.Vesting.Core
import AvmSdk.Contracts.Vesting.Config
import AvmSdk.Contracts.Vesting.State
import AvmSdk.Contracts.Vesting.Validity
import AvmSdk.Books.Entries
import AvmSdk.Contracts.Token.Ledger
import AvmSdk.Contracts.Token.Token
import AvmSdk.Contracts.Vesting.Ledger
import AvmSdk.Contracts.Vesting.Vesting
import AvmSdk.Contracts.Vesting.Step
import AvmSdk.Contracts.Vesting.Process
import AvmSdk.Contracts.Vesting.Refusal
import AvmSdk.Contracts.Vesting.Machine
import AvmSdk.Contracts.Vesting.Deployment
import AvmSdk.Contracts.Vesting.Availability
import AvmSdk.Contracts.Vesting.Conservation
import AvmSdk.Contracts.Vesting.Rights
import AvmSdk.Contracts.Vesting.Payments
import AvmSdk.Contracts.Vesting.Receiver
import AvmSdk.Contracts.Vesting.Agreement
import AvmSdk.Contracts.Escrow.Config
import AvmSdk.Contracts.Escrow.State
import AvmSdk.Contracts.Escrow.Validity
import AvmSdk.Contracts.Escrow.Ledger
import AvmSdk.Contracts.Escrow.Escrow
import AvmSdk.Contracts.Escrow.Step
import AvmSdk.Contracts.Escrow.Process
import AvmSdk.Contracts.Escrow.Refusal
import AvmSdk.Contracts.Escrow.Machine
import AvmSdk.Contracts.Escrow.Deployment
import AvmSdk.Contracts.Escrow.Conservation
import AvmSdk.Contracts.Escrow.Availability
import AvmSdk.Contracts.Escrow.History
import AvmSdk.Contracts.Escrow.Transfers
import AvmSdk.Contracts.Escrow.Phases
import AvmSdk.Contracts.Escrow.Receiver
import AvmSdk.Contracts.Escrow.Agreement
import AvmSdk.Sdk.Output.Update
import AvmSdk.Contracts.Audit.Layout
import AvmSdk.Contracts.Audit.Ledger
import AvmSdk.Contracts.Audit.Refinement
import AvmSdk.Contracts.Audit.Format
import AvmSdk.Contracts.Audit.Legacy
import AvmSdk.Contracts.Audit.Compact
import AvmSdk.Contracts.Hub.Deposits
import AvmSdk.Wire.Writes
import AvmSdk.Contracts.Hub.Codec
import AvmSdk.Contracts.Vesting.Codec
import AvmSdk.Contracts.Escrow.Codec
import AvmSdk.Contracts.Gate
import AvmSdk.Contracts.Hub.Gate
import AvmSdk.Contracts.Vesting.Gate
import AvmSdk.Contracts.Escrow.Gate
import AvmSdk.Contracts.Audit.Gate
import AvmSdk.Contracts.Audit.Simulation
import AvmSdk.Contracts.Audit.Batch
import AvmSdk.Contracts.Audit.Reports
import AvmSdk.Contracts.Factory.Blake3
import AvmSdk.Contracts.Factory.Factory
import AvmSdk.Contracts.Factory.Envelope
import AvmSdk.Contracts.Factory.Accounts
import AvmSdk.Contracts.Factory.Provenance
import AvmSdk.Loop.While
import AvmSdk.Loop.Search
import AvmSdk.Wire.Leb128
import AvmSdk.Tools.ContractMemory
import AvmSdk.Tools.SectionWalk
import AvmSdk.Sdk.Output.Order
import AvmSdk.Sdk.Runtime.Loads
import AvmSdk.Tools.StackSearch
import AvmSdk.Contracts.Audit.System
import AvmSdk.Sdk.Runtime.Hosting
import AvmSdk.Tools.Vectors
import AvmSdk.Contracts.Forward.Record
import AvmSdk.Contracts.Forward.ContractA
import AvmSdk.Contracts.Forward.Versions
import AvmSdk.Contracts.Forward.ContractB
import AvmSdk.Contracts.Forward.Deliveries
import AvmSdk.Contracts.Forward.Causal
import AvmSdk.Contracts.Hosting
import AvmSdk.Contracts.Forward.Gate
import AvmSdk.Contracts.BatchPatch
import AvmSdk.Commit.HashTree
import AvmSdk.Tools.MapRoot
import AvmSdk.Tools.MapTree
import AvmSdk.Tools.MapCommit
