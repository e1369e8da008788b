import AbiRecovery.Abi.Entry
import AbiRecovery.Abi.Recovery
import AbiRecovery.Address
import AbiRecovery.Chain
import AbiRecovery.CodeInput
import AbiRecovery.CommandLine.MissingValue
import AbiRecovery.CommandLine.Options
import AbiRecovery.CommandLine.Request
import AbiRecovery.CommandLine.Run
import AbiRecovery.Cursor
import AbiRecovery.Database.Balance
import AbiRecovery.Database.Bytes
import AbiRecovery.Database.Edit
import AbiRecovery.Database.KeyedTable
import AbiRecovery.Database.Layout
import AbiRecovery.Database.Move
import AbiRecovery.Database.Packing
import AbiRecovery.Database.Page
import AbiRecovery.Database.Reader
import AbiRecovery.Database.Record
import AbiRecovery.Database.Tree
import AbiRecovery.Decimal.Binary64
import AbiRecovery.Decimal.Shortest
import AbiRecovery.Environment
import AbiRecovery.Failure
import AbiRecovery.FileTree.Basic
import AbiRecovery.FileTree.Change
import AbiRecovery.FileTree.Companion
import AbiRecovery.FileTree.Fault
import AbiRecovery.FileTree.Store
import AbiRecovery.Hex
import AbiRecovery.Instruction
import AbiRecovery.Json.Basic
import AbiRecovery.Json.Plain
import AbiRecovery.Json.Printer
import AbiRecovery.Json.Reader
import AbiRecovery.Keccak
import AbiRecovery.Listing
import AbiRecovery.Location
import AbiRecovery.Log.Book
import AbiRecovery.Log.Level
import AbiRecovery.Log.Record
import AbiRecovery.Log.Timestamp
import AbiRecovery.Main
import AbiRecovery.Network
import AbiRecovery.NumberSet
import AbiRecovery.Opcode.Basic
import AbiRecovery.Opcode.Mnemonic
import AbiRecovery.OrderedMap
import AbiRecovery.Program
import AbiRecovery.Program.Index
import AbiRecovery.Proofs.Assembly
import AbiRecovery.Proofs.ControlFlow
import AbiRecovery.Proofs.CursorPast
import AbiRecovery.Proofs.Decoding
import AbiRecovery.Proofs.DispatchTable
import AbiRecovery.Proofs.Immediate
import AbiRecovery.Proofs.Landmark
import AbiRecovery.Proofs.Reachability
import AbiRecovery.Proofs.RegionContent
import AbiRecovery.Proofs.RegionMap
import AbiRecovery.Proofs.ScanState
import AbiRecovery.Reachable
import AbiRecovery.Recipe.Draft
import AbiRecovery.Recipe.Machine
import AbiRecovery.Recipe.Step
import AbiRecovery.Scan
import AbiRecovery.Session.AddressList
import AbiRecovery.Session.Basic
import AbiRecovery.Session.Contract
import AbiRecovery.Session.Store
import AbiRecovery.Settings
import AbiRecovery.SizeLimit
import AbiRecovery.Store.File
import AbiRecovery.Store.Name
import AbiRecovery.Store.Table
import AbiRecovery.Text.Basic
import AbiRecovery.Text.Blank
import AbiRecovery.Text.Digit
import AbiRecovery.Text.FileName
import AbiRecovery.Text.Hexadecimal
import AbiRecovery.Text.Integer
import AbiRecovery.Text.Line
import AbiRecovery.Text.Printable
import AbiRecovery.Text.Quoted
import AbiRecovery.Text.Split
import AbiRecovery.Text.UpperCase
import AbiRecovery.Text.Utf8
import AbiRecovery.Proofs.Appending
import AbiRecovery.Proofs.FullHistory
import AbiRecovery.Proofs.HexText
import AbiRecovery.Proofs.MnemonicTable
import AbiRecovery.Proofs.ListingReading
import AbiRecovery.Proofs.Action
import AbiRecovery.Proofs.FileAgreement
import AbiRecovery.Proofs.StoreOpening
import AbiRecovery.Proofs.StoreItem
import AbiRecovery.Proofs.SessionOutput
import AbiRecovery.Proofs.SessionStore
import AbiRecovery.Proofs.Fetching
import AbiRecovery.Proofs.Arguments
import AbiRecovery.Proofs.SavePaths
import AbiRecovery.Proofs.StoreTable
import AbiRecovery.Proofs.StoreIntegrity
import AbiRecovery.Proofs.StoreLife
import AbiRecovery.Proofs.Directories
import AbiRecovery.Proofs.Settling
import AbiRecovery.Proofs.StoreRest
import AbiRecovery.Proofs.StoreKeys
import AbiRecovery.Proofs.StoreReset
import AbiRecovery.Proofs.StoreCalls
import AbiRecovery.Proofs.StoreSteady
import AbiRecovery.Proofs.ScanSteps
import AbiRecovery.Proofs.BatchScan
import AbiRecovery.Proofs.KeccakRounds
import AbiRecovery.Proofs.BatchOrder
import AbiRecovery.Proofs.RegionExtent
import AbiRecovery.Proofs.ReachedTags
import AbiRecovery.Proofs.SelectorWidth
import AbiRecovery.Proofs.RecoveredEntries
import AbiRecovery.Proofs.ResumePoints
import AbiRecovery.Proofs.LoggedTopics
import AbiRecovery.Proofs.ValueGuards
import AbiRecovery.Proofs.AddressText
import AbiRecovery.Proofs.ScanOutcome
import AbiRecovery.Proofs.CodeText
import AbiRecovery.Proofs.CodeFile
import AbiRecovery.Proofs.SilentActions
import AbiRecovery.Proofs.BatchAccount
import AbiRecovery.Proofs.SourceReading
import AbiRecovery.Proofs.RequestResult
import AbiRecovery.Proofs.RequestOutcome
import AbiRecovery.Proofs.RecordGrowth
import AbiRecovery.Proofs.CursorHistory
import AbiRecovery.Proofs.NodeTraffic
import AbiRecovery.Proofs.ChainLookup
import AbiRecovery.Proofs.ClientHistory
import AbiRecovery.Proofs.ContractKeys
import AbiRecovery.Proofs.EncodedText
import AbiRecovery.Proofs.JsonGrammar
import AbiRecovery.Proofs.JsonWord
import AbiRecovery.Proofs.JsonReading
import AbiRecovery.Proofs.JsonPrinting
import AbiRecovery.Proofs.Calendar
import AbiRecovery.Proofs.LogLine
import AbiRecovery.Proofs.AddressRows
import AbiRecovery.Proofs.AddressFile
