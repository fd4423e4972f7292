import ContractAbi.Address
import ContractAbi.Assembler
import ContractAbi.Bytes
import ContractAbi.Cache
import ContractAbi.Calldata.Decode
import ContractAbi.Calldata.Encode
import ContractAbi.Calldata.Type
import ContractAbi.Chain.Proxy
import ContractAbi.Chain.Reader
import ContractAbi.CommandLine
import ContractAbi.CommandLine.Arguments
import ContractAbi.Contract
import ContractAbi.Digest.Keccak
import ContractAbi.Evm.Code
import ContractAbi.Evm.Dispatcher
import ContractAbi.Evm.EventTopics
import ContractAbi.Evm.Instruction
import ContractAbi.Evm.Opcode
import ContractAbi.Fault
import ContractAbi.Interface.Entry
import ContractAbi.Interface.Fragment
import ContractAbi.Interface.Param
import ContractAbi.Interface.Result
import ContractAbi.Interface.Skeleton
import ContractAbi.Interface.TypeText
import ContractAbi.Loader
import ContractAbi.Main
import ContractAbi.Number.Binary64
import ContractAbi.Number.Integer
import ContractAbi.Proofs.Assembly.Absence
import ContractAbi.Proofs.Assembly.Containment
import ContractAbi.Proofs.Assembly.Escape
import ContractAbi.Proofs.Assembly.HashIntegrity
import ContractAbi.Proofs.Assembly.MergeLaw
import ContractAbi.Proofs.Assembly.Run
import ContractAbi.Proofs.Assembly.Step
import ContractAbi.Proofs.Assembly.Tables
import ContractAbi.Proofs.Cache
import ContractAbi.Proofs.Calldata.Addresses
import ContractAbi.Proofs.Chain.Containment
import ContractAbi.Proofs.Chain.Softening
import ContractAbi.Proofs.Chain.Veiling
import ContractAbi.Proofs.Evm.Dispatcher
import ContractAbi.Proofs.Evm.EventTopics
import ContractAbi.Proofs.Fault
import ContractAbi.Proofs.Interface.Backfill
import ContractAbi.Proofs.Interface.Entry
import ContractAbi.Proofs.Interface.Merge
import ContractAbi.Proofs.Interface.Param
import ContractAbi.Proofs.Interface.TypeText
import ContractAbi.Proofs.Loader
import ContractAbi.Proofs.Number.Digits
import ContractAbi.Proofs.Number.Rounding
import ContractAbi.Proofs.Number.Nearest
import ContractAbi.Proofs.Number.Shortest
import ContractAbi.Proofs.Number.Decimal
import ContractAbi.Proofs.Resolver.Digestible
import ContractAbi.Proofs.Resolver.Escape
import ContractAbi.Proofs.Resolver.Memory
import ContractAbi.Proofs.Resolver.Reach
import ContractAbi.Proofs.Resolver.Schedule
import ContractAbi.Proofs.Resolver.View
import ContractAbi.Proofs.Selector
import ContractAbi.Proofs.Session.Except
import ContractAbi.Proofs.Session.Invariant
import ContractAbi.Proofs.Session.Run
import ContractAbi.Proofs.Session.Simulation
import ContractAbi.Proofs.Signature
import ContractAbi.Proofs.Text.Hex
import ContractAbi.Render
import ContractAbi.Resolver
import ContractAbi.Selector
import ContractAbi.Session
import ContractAbi.Signature
import ContractAbi.Source.Basic
import ContractAbi.Source.Directory
import ContractAbi.Source.Http
import ContractAbi.Text.Blank
import ContractAbi.Text.Composition
import ContractAbi.Text.Encoding
import ContractAbi.Text.Hex
import ContractAbi.Text.LowerCase
import ContractAbi.Text.Mark
import ContractAbi.Text.Percent
import ContractAbi.Text.Pieces
import ContractAbi.Text.Printable
import ContractAbi.Text.Quoted
import ContractAbi.Text.Utf8
import ContractAbi.Text.Word
import ContractAbi.Url
import ContractAbi.Url.Host
import ContractAbi.Url.Label
import ContractAbi.Url.LabelTable
import ContractAbi.Url.Punycode
import ContractAbi.Value
import ContractAbi.Value.Access
import ContractAbi.Value.Layout
import ContractAbi.Value.Literal
import ContractAbi.Value.Path
import ContractAbi.Value.Printer
import ContractAbi.Value.Reader
import ContractAbi.Proofs.Assembly.Records
import ContractAbi.Proofs.Assembly.Idempotence
import ContractAbi.Proofs.Address
import ContractAbi.Proofs.Chain.Delegates
import ContractAbi.Proofs.Chain.Requests
import ContractAbi.Proofs.Resolver.Requests
import ContractAbi.Proofs.Assembly.Published
import ContractAbi.Proofs.Assembly.Requests
import ContractAbi.Proofs.Assembly.Traversal
import ContractAbi.Proofs.Assembly.Recursion
import ContractAbi.Proofs.Assembly.Provenance
import ContractAbi.Proofs.Assembly.Phases
import ContractAbi.Proofs.Assembly.Exploration
import ContractAbi.Proofs.Chain.Relisting
import ContractAbi.Proofs.Assembly.Coverage
import ContractAbi.Proofs.Interface.ParamItem
import ContractAbi.Proofs.Interface.TypeList
import ContractAbi.Proofs.Signature.Canonical
import ContractAbi.Proofs.Assembly.Restore
import ContractAbi.Proofs.Cache.File
import ContractAbi.Proofs.Cache.Mirror
import ContractAbi.Proofs.Cache.Refine
import ContractAbi.Proofs.Interface.EntryItem
import ContractAbi.Proofs.Interface.ResultItem
import ContractAbi.Proofs.Resolver.Calls
import ContractAbi.Proofs.Resolver.History
import ContractAbi.Proofs.Resolver.Law
import ContractAbi.Proofs.Resolver.Query
import ContractAbi.Proofs.Resolver.Serial
import ContractAbi.Proofs.Text.Utf8
import ContractAbi.Proofs.Value.JsonDocument
import ContractAbi.Proofs.Value.JsonDouble
import ContractAbi.Proofs.Value.JsonNumber
import ContractAbi.Proofs.Value.JsonText
import ContractAbi.Proofs.Value.JsonValue
import ContractAbi.Proofs.Value.PlainPart
import ContractAbi.Proofs.Interface.PlainItem
import ContractAbi.Proofs.Interface.Nesting
import ContractAbi.Proofs.Text.Trim
import ContractAbi.Proofs.Distinct
import ContractAbi.Proofs.Evm.Comparisons
import ContractAbi.Proofs.Signature.Grammar
import ContractAbi.Proofs.Signature.StatedOutputs
import ContractAbi.Proofs.Evm.Scan
import ContractAbi.Proofs.Interface.Filled
import ContractAbi.Proofs.Signature.Buildable
import ContractAbi.Proofs.Text.HexPairs
import ContractAbi.Proofs.Address.Refusal
import ContractAbi.Proofs.Interface.Selectors
import ContractAbi.Proofs.Evm.Sequence
import ContractAbi.Proofs.Evm.Branches
import ContractAbi.Proofs.Assembly.Durable
import ContractAbi.Proofs.Assembly.Identity
import ContractAbi.Proofs.Assembly.Refusal
import ContractAbi.Proofs.Evm.Code
import ContractAbi.Proofs.Evm.Growth
import ContractAbi.Proofs.Evm.Mutability
import ContractAbi.Proofs.Evm.WidePlaces
import ContractAbi.Proofs.Evm.Window
import ContractAbi.Proofs.Evm.Logs
import ContractAbi.Proofs.Chain.Priority
import ContractAbi.Proofs.Chain.Others
import ContractAbi.Proofs.Assembly.Presence
import ContractAbi.Proofs.Source.Ranking
import ContractAbi.Proofs.Cache.Faults
import ContractAbi.Proofs.Cache.Opening
import ContractAbi.Proofs.Evm.Listing
import ContractAbi.Proofs.Evm.HexReading
import ContractAbi.Proofs.Contract
import ContractAbi.Proofs.Value.JsonFault
import ContractAbi.Proofs.Value.Keys
import ContractAbi.Proofs.Value.Path
import ContractAbi.Proofs.Source.Http
import ContractAbi.Proofs.Source.Outcomes
