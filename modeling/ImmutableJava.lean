import ImmutableJava.Batch
import ImmutableJava.BinaryName
import ImmutableJava.BinaryName.Order
import ImmutableJava.BinaryName.Parse
import ImmutableJava.Blank
import ImmutableJava.CommandLine.Arguments
import ImmutableJava.CommandLine.Session
import ImmutableJava.CommandLine.Terminal
import ImmutableJava.CommandLine.Token
import ImmutableJava.CommandLine.Usage
import ImmutableJava.Declaration
import ImmutableJava.Declaration.Implementation
import ImmutableJava.Declaration.Json
import ImmutableJava.Diagnostic
import ImmutableJava.Diagnostic.Json
import ImmutableJava.Diagnostic.Report
import ImmutableJava.FileSystem
import ImmutableJava.FileSystem.Tree
import ImmutableJava.Generator
import ImmutableJava.Implementation
import ImmutableJava.Implementation.Json
import ImmutableJava.Import.Conflict
import ImmutableJava.Import.Qualifier
import ImmutableJava.Import.Renderer
import ImmutableJava.Import.Trie
import ImmutableJava.JavaLang
import ImmutableJava.Json
import ImmutableJava.Json.Lexer
import ImmutableJava.Json.Numeral
import ImmutableJava.Json.Parser
import ImmutableJava.Json.Printer
import ImmutableJava.Json.Record
import ImmutableJava.LogSettings
import ImmutableJava.Main
import ImmutableJava.Path
import ImmutableJava.Pieces
import ImmutableJava.Proofs.ImportTrie
import ImmutableJava.Proofs.QualifiedName
import ImmutableJava.Proofs.SimpleName
import ImmutableJava.Reporting
import ImmutableJava.RoundToBits
import ImmutableJava.Run
import ImmutableJava.Settings
import ImmutableJava.SortedSet
import ImmutableJava.SourceText
import ImmutableJava.Template
import ImmutableJava.Template.Json
import ImmutableJava.TopLevelName
import ImmutableJava.TypeDescriptor
import ImmutableJava.TypeDescriptor.Json
import ImmutableJava.TypeDescriptor.Template
import ImmutableJava.TypeError
import ImmutableJava.Proofs.NameRenderer
import ImmutableJava.Proofs.Qualification
import ImmutableJava.Proofs.Scope
import ImmutableJava.Proofs.Pattern
import ImmutableJava.Proofs.Template
import ImmutableJava.Proofs.DescriptorTemplate
import ImmutableJava.Proofs.EnclosingType
import ImmutableJava.Proofs.Spelling
import ImmutableJava.Proofs.PlainName
import ImmutableJava.Proofs.Generation
import ImmutableJava.Proofs.Model
import ImmutableJava.Proofs.References
import ImmutableJava.Proofs.ImportDeclarations
import ImmutableJava.Proofs.ShortestName
import ImmutableJava.Proofs.Diagnosis
import ImmutableJava.Proofs.Composition
import ImmutableJava.Proofs.Obscuring
import ImmutableJava.Proofs.Path
import ImmutableJava.Proofs.SourcePath
import ImmutableJava.Proofs.Batch
import ImmutableJava.Proofs.DerivedNames
import ImmutableJava.Proofs.BatchEntry
import ImmutableJava.Proofs.JsonText
import ImmutableJava.Proofs.JsonRecord
import ImmutableJava.Proofs.ImplementationJson
import ImmutableJava.Proofs.DescriptorJson
import ImmutableJava.Proofs.DeclarationJson
import ImmutableJava.Proofs.LongestStart
import ImmutableJava.Proofs.Partition
import ImmutableJava.Proofs.Construction
import ImmutableJava.Proofs.OuterArguments
import ImmutableJava.Proofs.DescriptorError
import ImmutableJava.Proofs.DeclarationHeader
import ImmutableJava.Proofs.EnclosureText
import ImmutableJava.Proofs.AvailableTypes
import ImmutableJava.Proofs.SameImports
import ImmutableJava.Proofs.Growth
import ImmutableJava.Proofs.Insertion
import ImmutableJava.Proofs.SourceShape
