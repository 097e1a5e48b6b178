import Drydock.Build
import Drydock.Build.Files
import Drydock.Build.Library
import Drydock.Build.Modules
import Drydock.Build.Probe
import Drydock.Build.Resolve
import Drydock.Build.Session
import Drydock.Build.Tools
import Drydock.Build.Verify
import Drydock.CommandLine
import Drydock.CommandLine.Arguments
import Drydock.CommandLine.LogFilter
import Drydock.CommandLine.Options
import Drydock.CompilerFlags
import Drydock.ConfigHeader
import Drydock.ConfigValues
import Drydock.Diagnostic
import Drydock.Error
import Drydock.FileTree
import Drydock.FileTree.Access
import Drydock.FileTree.Locate
import Drydock.Flags
import Drydock.Glob
import Drydock.Glob.Pattern
import Drydock.Glob.Search
import Drydock.Graph
import Drydock.Graph.Digraph
import Drydock.Graph.Order
import Drydock.Json
import Drydock.LibraryMake
import Drydock.LinkMode
import Drydock.Machine
import Drydock.Main
import Drydock.MakeVariables
import Drydock.Manifest
import Drydock.Manifest.Modules
import Drydock.Manifest.Reader
import Drydock.Module
import Drydock.Path
import Drydock.Plan
import Drydock.Plan.Report
import Drydock.Platform
import Drydock.Proofs.Build.Agreement
import Drydock.Proofs.Build.Clean
import Drydock.Proofs.Build.Files
import Drydock.Proofs.Build.History
import Drydock.Proofs.Build.Resolve
import Drydock.Proofs.Build.Run
import Drydock.Proofs.FileTree.Join
import Drydock.Proofs.FileTree.Remove
import Drydock.Proofs.FileTree.Walk
import Drydock.Proofs.FileTree.WellFormed
import Drydock.Proofs.FileTree.Write
import Drydock.Proofs.Glob.Base
import Drydock.Proofs.Glob.Children
import Drydock.Proofs.Glob.Files
import Drydock.Proofs.Glob.Marks
import Drydock.Proofs.Glob.Matches
import Drydock.Proofs.Glob.Parse
import Drydock.Proofs.Graph.Acceptance
import Drydock.Proofs.Graph.BreadthFirst
import Drydock.Proofs.Graph.BuildOrder
import Drydock.Proofs.Graph.DepthFirst
import Drydock.Proofs.Graph.Places
import Drydock.Proofs.Graph.StableOrder
import Drydock.Proofs.Graph.Walks
import Drydock.Proofs.Graph.Ways
import Drydock.Proofs.MakeVariables
import Drydock.Proofs.Path.Join
import Drydock.Proofs.Path.Order
import Drydock.Proofs.Table
import Drydock.Proofs.Text.Cuts
import Drydock.Proofs.Text.Words
import Drydock.Resolution
import Drydock.Settings
import Drydock.Shell.Arithmetic
import Drydock.Shell.Interpreter
import Drydock.Shell.Launcher
import Drydock.Shell.Reader
import Drydock.Shell.Script
import Drydock.Shell.State
import Drydock.Shell.Tools
import Drydock.Shell.Words
import Drydock.Symbols
import Drydock.Table
import Drydock.Text.Blank
import Drydock.Text.UpperCase
import Drydock.Text.Utf8
import Drydock.Toml.Document
import Drydock.Toml.Quoted
import Drydock.Toml.Reader
import Drydock.Toml.Record
import Drydock.Toml.Scalar
import Drydock.Toml.Value
import Drydock.Toolchain
import Drydock.Proofs.Flags
import Drydock.Proofs.Build.Silence
import Drydock.Proofs.Symbols
import Drydock.Proofs.SymbolListing
import Drydock.Proofs.Build.Course
import Drydock.Proofs.Build.FailFast
import Drydock.Proofs.Path.Names
import Drydock.Proofs.Objects
import Drydock.Proofs.Graph.Dependencies
import Drydock.Proofs.Topology
import Drydock.Proofs.Build.LibraryFirst
import Drydock.Proofs.Build.Configure
import Drydock.Proofs.Build.Causes
import Drydock.Proofs.Build.Refusals
import Drydock.Proofs.Graph.Placement
import Drydock.Proofs.Graph.LinkOrder
import Drydock.Proofs.Graph.Faults
import Drydock.Proofs.FileTree.Above
import Drydock.Proofs.Build.Deeds
import Drydock.Proofs.Build.DefaultHeaders
import Drydock.Proofs.Build.Footprint
import Drydock.Proofs.Flags.Grammar
import Drydock.Proofs.ConfigHeader
import Drydock.Proofs.ConfigValues
import Drydock.Proofs.LibraryMake
import Drydock.Proofs.ConfigureVariables
import Drydock.Proofs.ReportedLibraries
import Drydock.Proofs.Settings
import Drydock.Proofs.Glob.Sources
import Drydock.Proofs.Glob.Spellings
import Drydock.Proofs.FileTree.Spelling
import Drydock.Proofs.Glob.Survivors
import Drydock.Proofs.Glob.Once
import Drydock.Proofs.Build.CleanOnce
import Drydock.Proofs.Locality
import Drydock.Proofs.LinkNames
import Drydock.Proofs.ObjectPlaces
import Drydock.Proofs.Defaults
