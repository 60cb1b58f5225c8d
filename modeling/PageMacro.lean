import PageMacro.Bundle.Archive
import PageMacro.Bundle.Error
import PageMacro.Bundle.Load
import PageMacro.Cache.Database
import PageMacro.Cache.File
import PageMacro.Cache.Manager
import PageMacro.Command.Complete
import PageMacro.Command.Execute
import PageMacro.Command.Flag
import PageMacro.Command.Help
import PageMacro.Command.Spec
import PageMacro.Concern
import PageMacro.Config.Basic
import PageMacro.Config.Load
import PageMacro.Decimal.Double
import PageMacro.Decimal.Layout
import PageMacro.Decimal.Literal
import PageMacro.Decimal.Rounded
import PageMacro.Decimal.Shortest
import PageMacro.Digest
import PageMacro.Disk.Basic
import PageMacro.Disk.Encoding
import PageMacro.Disk.Fault
import PageMacro.Document
import PageMacro.Dotenv.Line
import PageMacro.Dotenv.Load
import PageMacro.Dotenv.Mask
import PageMacro.Duration
import PageMacro.Element
import PageMacro.Failure
import PageMacro.Fetch.Auth
import PageMacro.Fetch.Backoff
import PageMacro.Fetch.Client
import PageMacro.Fetch.Error
import PageMacro.Format
import PageMacro.Html.Builder
import PageMacro.Html.Entity
import PageMacro.Html.Markup
import PageMacro.Html.Token
import PageMacro.Index
import PageMacro.Json.Read
import PageMacro.Json.Write
import PageMacro.Lint.Check
import PageMacro.Lint.Problem
import PageMacro.Log
import PageMacro.Log.Line
import PageMacro.Machine.Key
import PageMacro.Machine.Run
import PageMacro.Machine.Step
import PageMacro.Machine.Table
import PageMacro.Machine.World
import PageMacro.Main
import PageMacro.Path
import PageMacro.Proofs.Isolation
import PageMacro.Proofs.LastWrite
import PageMacro.Proofs.OwnClose
import PageMacro.Proofs.Reachable
import PageMacro.Proofs.Runs
import PageMacro.Proofs.Scene
import PageMacro.Proofs.Sound
import PageMacro.Proofs.Step
import PageMacro.Proofs.Store
import PageMacro.Proofs.Termination
import PageMacro.Proofs.Verb
import PageMacro.Proofs.World
import PageMacro.Script.Builtin
import PageMacro.Script.Data
import PageMacro.Script.Eval
import PageMacro.Script.Grammar
import PageMacro.Script.Heap
import PageMacro.Script.Module
import PageMacro.Script.Operator
import PageMacro.Script.Scope
import PageMacro.Script.Term
import PageMacro.Script.TextMethod
import PageMacro.Script.Token
import PageMacro.Secret.Account
import PageMacro.Secret.Backend
import PageMacro.Secret.Error
import PageMacro.Secret.Manager
import PageMacro.Segment.Basic
import PageMacro.Segment.Escape
import PageMacro.Segment.Interpolate
import PageMacro.Selector
import PageMacro.Session.Basic
import PageMacro.Session.Credential
import PageMacro.Session.Error
import PageMacro.Session.Open
import PageMacro.Session.Site
import PageMacro.Session.Watch
import PageMacro.Store
import PageMacro.Style
import PageMacro.Text.Base64
import PageMacro.Text.Blank
import PageMacro.Text.Bytes
import PageMacro.Text.Case
import PageMacro.Text.Distance
import PageMacro.Text.Pieces
import PageMacro.Text.Printable
import PageMacro.Text.Quoted
import PageMacro.Url.Basic
import PageMacro.Url.Encoding
import PageMacro.Url.Query
import PageMacro.Url.Resolve
import PageMacro.Value.Basic
import PageMacro.Value.Tree
import PageMacro.Verb.Basic
import PageMacro.Verb.Future
import PageMacro.Verb.Standard
import PageMacro.Word
import PageMacro.Yaml.Node
import PageMacro.Yaml.Quoted
import PageMacro.Yaml.Read
import PageMacro.Proofs.History
import PageMacro.Proofs.ScriptOrder
import PageMacro.Proofs.Lifecycle
import PageMacro.Proofs.OwnScript
import PageMacro.Proofs.Interpolation
import PageMacro.Proofs.Grammar
import PageMacro.Proofs.Registration
import PageMacro.Proofs.Noninterference
import PageMacro.Proofs.Printable
import PageMacro.Proofs.ResponseCache
import PageMacro.Proofs.FileReplacement
import PageMacro.Proofs.JsonRoundTrip
import PageMacro.Proofs.SecretMap
import PageMacro.Proofs.LintAgreement
import PageMacro.Proofs.SavedState
import PageMacro.Proofs.IndexPositions
import PageMacro.Proofs.WriteHistory
import PageMacro.Proofs.IndirectCall
import PageMacro.Proofs.Settings
import PageMacro.Proofs.PresetLayers
import PageMacro.Proofs.RequestParts
import PageMacro.Proofs.ElementWrites
import PageMacro.Proofs.InlineStyles
import PageMacro.Proofs.AtomicVerbs
import PageMacro.Proofs.ArchiveMembers
import PageMacro.Proofs.FailedWrites
import PageMacro.Proofs.Doubles
import PageMacro.Proofs.ScriptData
import PageMacro.Proofs.NumberTexts
import PageMacro.Proofs.CopiedValues
import PageMacro.Proofs.GrowingWaits
import PageMacro.Proofs.Attempts
import PageMacro.Proofs.NumberFronts
import PageMacro.Proofs.EventBindings
import PageMacro.Proofs.EntryTable
