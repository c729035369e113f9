import Interop.Bridge
import Interop.CallSite
import Interop.Catalog
import Interop.Config.Basic
import Interop.Config.Document
import Interop.Decimal.Binary
import Interop.Decimal.Shortest
import Interop.Eval.Engine
import Interop.Eval.Literal
import Interop.Eval.Native
import Interop.Eval.Script
import Interop.Event
import Interop.Handle.Recency
import Interop.Handle.Table
import Interop.Heap
import Interop.Invoke
import Interop.Json.Basic
import Interop.Json.Reader
import Interop.Json.Writer
import Interop.Marshal.Inward
import Interop.Marshal.Outward
import Interop.Modifiers
import Interop.Native.Code
import Interop.Native.Error
import Interop.Native.Type
import Interop.Native.Value
import Interop.Overload.Choice
import Interop.Overload.Distance
import Interop.Primitive
import Interop.Proofs.CallSite.Positions
import Interop.Proofs.Catalog.Documents
import Interop.Proofs.Catalog.ListingOrder
import Interop.Proofs.Config.RoundTrip
import Interop.Proofs.Dispatch.Attachment
import Interop.Proofs.Dispatch.BoundRuns
import Interop.Proofs.Dispatch.Equality
import Interop.Proofs.Dispatch.FinalMethods
import Interop.Proofs.Dispatch.Forwarding
import Interop.Proofs.Dispatch.SuperCalls
import Interop.Proofs.Dispatch.SuperViews
import Interop.Proofs.Dispatch.Targets
import Interop.Proofs.Handle.Identity
import Interop.Proofs.Handle.RecencyOrder
import Interop.Proofs.Handle.Uses
import Interop.Proofs.Json.RoundTrip
import Interop.Proofs.Marshal.Conversion
import Interop.Proofs.Marshal.Frame
import Interop.Proofs.Marshal.Legality
import Interop.Proofs.Marshal.Outcomes
import Interop.Proofs.Marshal.Termination
import Interop.Proofs.Overload.Justified
import Interop.Proofs.Overload.Memo
import Interop.Proofs.Overload.Resolution
import Interop.Proofs.Overload.Selection
import Interop.Proofs.Overload.Transparency
import Interop.Proofs.Registry.ArrayTypes
import Interop.Proofs.Registry.CheckedDrafts
import Interop.Proofs.Registry.Coherence
import Interop.Proofs.Registry.Completion
import Interop.Proofs.Registry.Consistency
import Interop.Proofs.Registry.Declarations
import Interop.Proofs.Registry.Defaults
import Interop.Proofs.Registry.First
import Interop.Proofs.Registry.GeneratedTypes
import Interop.Proofs.Registry.Hierarchy
import Interop.Proofs.Registry.HopMetric
import Interop.Proofs.Registry.Inheritance
import Interop.Proofs.Registry.LostSlots
import Interop.Proofs.Registry.MostDerived
import Interop.Proofs.Registry.Naming
import Interop.Proofs.Registry.Permanence
import Interop.Proofs.Registry.Ranks
import Interop.Proofs.Registry.Registrations
import Interop.Proofs.Registry.Rollback
import Interop.Proofs.Registry.SearchOrder
import Interop.Proofs.Registry.ShortestPaths
import Interop.Proofs.Registry.Slots
import Interop.Proofs.Registry.Subtypes
import Interop.Proofs.Registry.Titles
import Interop.Proofs.Registry.TwoPhase
import Interop.Proofs.Text.Encoding
import Interop.Proofs.Text.Surrogates
import Interop.Proofs.Toml.Continuation
import Interop.Proofs.Toml.Embedding
import Interop.Proofs.Toml.Insertion
import Interop.Proofs.Toml.PrefixStability
import Interop.Proofs.Toml.WordStability
import Interop.Proofs.Toml.Written
import Interop.Proofs.World.Arrays
import Interop.Proofs.World.Characters
import Interop.Proofs.World.ClassCache
import Interop.Proofs.World.Conversions
import Interop.Proofs.World.EarlyFailures
import Interop.Proofs.World.Engine
import Interop.Proofs.World.Evaluation
import Interop.Proofs.World.FieldKeeping
import Interop.Proofs.World.FieldSlots
import Interop.Proofs.World.FieldTyping
import Interop.Proofs.World.Frames
import Interop.Proofs.World.Guards
import Interop.Proofs.World.Invocation
import Interop.Proofs.World.Moments
import Interop.Proofs.World.PassedReferences
import Interop.Proofs.World.Pieces
import Interop.Proofs.World.Preparation
import Interop.Proofs.World.Primitives
import Interop.Proofs.World.Proxies
import Interop.Proofs.World.Reachable
import Interop.Proofs.World.SealedCode
import Interop.Proofs.World.Soundness
import Interop.Proofs.World.Steady
import Interop.Proofs.World.Tasks
import Interop.Proofs.World.Texts
import Interop.Proofs.World.Updates
import Interop.Proofs.World.Views
import Interop.Proxy
import Interop.Registry.Arrays
import Interop.Registry.Basic
import Interop.Registry.Definition
import Interop.Registry.Generated
import Interop.Registry.Members
import Interop.Registry.Subtyping
import Interop.Request
import Interop.Script.Code
import Interop.Script.Error
import Interop.Script.Value
import Interop.Session.Define
import Interop.Session.Report
import Interop.Session.Steps
import Interop.Session.Written
import Interop.Text.Describe
import Interop.Text.Hex
import Interop.Text.Printable
import Interop.Text.Quoted
import Interop.Text.Units
import Interop.Toml.Datetime
import Interop.Toml.Document
import Interop.Toml.Scan
import Interop.Toml.Value
import Interop.Toml.Writer
import Interop.World
