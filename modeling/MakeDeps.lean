import MakeDeps.CommandLine
import MakeDeps.Config
import MakeDeps.Directive
import MakeDeps.Failure
import MakeDeps.FileSystem.Basic
import MakeDeps.FileSystem.Canonical
import MakeDeps.FileSystem.Edit
import MakeDeps.FileSystem.Error
import MakeDeps.FileSystem.Follow
import MakeDeps.FileSystem.Lemmas
import MakeDeps.FileSystem.Settled
import MakeDeps.FileSystem.Walk
import MakeDeps.Graph.Basic
import MakeDeps.Graph.Search
import MakeDeps.Host
import MakeDeps.Library
import MakeDeps.Log
import MakeDeps.Main
import MakeDeps.Makefile.Line
import MakeDeps.Makefile.Names
import MakeDeps.Makefile.Rules
import MakeDeps.Options.Basic
import MakeDeps.Options.Parse
import MakeDeps.Options.Token
import MakeDeps.Path.Basic
import MakeDeps.Path.Extension
import MakeDeps.Path.Lemmas
import MakeDeps.Project
import MakeDeps.Resolver.Resolve
import MakeDeps.Resolver.Scan
import MakeDeps.Text.Blank
import MakeDeps.Text.Cut
import MakeDeps.Text.Digit
import MakeDeps.Text.Encoding
import MakeDeps.Text.Lines
import MakeDeps.Text.Order
import MakeDeps.Text.Printable
import MakeDeps.Text.Quoted
import MakeDeps.Text.Utf8
import MakeDeps.Proofs.CommandLine.Effect
import MakeDeps.Proofs.CommandLine.Endings
import MakeDeps.Proofs.CommandLine.Reporting
import MakeDeps.Proofs.FileSystem.Canonical
import MakeDeps.Proofs.FileSystem.Clean
import MakeDeps.Proofs.FileSystem.Direct
import MakeDeps.Proofs.FileSystem.Follow
import MakeDeps.Proofs.FileSystem.Walk
import MakeDeps.Proofs.FileSystem.Writing
import MakeDeps.Proofs.Graph.Closure
import MakeDeps.Proofs.Makefile.Commands
import MakeDeps.Proofs.Makefile.Expansion
import MakeDeps.Proofs.Makefile.Names
import MakeDeps.Proofs.Makefile.Partition
import MakeDeps.Proofs.Makefile.Products
import MakeDeps.Proofs.Makefile.Reading
import MakeDeps.Proofs.Makefile.Rebuild
import MakeDeps.Proofs.Makefile.Values
import MakeDeps.Proofs.Resolver.FileOrder
import MakeDeps.Proofs.Resolver.FirstFailure
import MakeDeps.Proofs.Resolver.Graph
import MakeDeps.Proofs.Resolver.Includes
import MakeDeps.Proofs.Resolver.Location
import MakeDeps.Proofs.Resolver.Recursion
import MakeDeps.Proofs.Resolver.ScanOrder
import MakeDeps.Proofs.Search.Finish
import MakeDeps.Proofs.Text.Encoding
import MakeDeps.Proofs.Text.Words
import MakeDeps.Proofs.FileSystem.Shape
import MakeDeps.Proofs.CommandLine.Again
import MakeDeps.Proofs.Makefile.Libraries
import MakeDeps.Proofs.Project.History
import MakeDeps.Proofs.Directive.Grammar
import MakeDeps.Proofs.Directive.Parts
import MakeDeps.Proofs.Resolver.LineEnds
import MakeDeps.Proofs.FileSystem.WalkOrder
import MakeDeps.Proofs.FileSystem.Spelling
import MakeDeps.Proofs.Resolver.Sources
import MakeDeps.Proofs.Project.Spelling
import MakeDeps.Proofs.Makefile.Refusal
import MakeDeps.Proofs.Directive.Plain
import MakeDeps.Proofs.Makefile.Agreement
import MakeDeps.Proofs.Makefile.EntryPoint
import MakeDeps.Proofs.Resolver.BlankTarget
import MakeDeps.Proofs.Path.Extension
import MakeDeps.Proofs.Library.Pairs
import MakeDeps.Proofs.Config
import MakeDeps.Proofs.Options.Groups
import MakeDeps.Proofs.Makefile.Variables
