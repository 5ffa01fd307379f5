import DeclaredOptions.CommandLine
import DeclaredOptions.Document
import DeclaredOptions.Environment
import DeclaredOptions.Environment.Guard
import DeclaredOptions.Failure
import DeclaredOptions.Field
import DeclaredOptions.Help
import DeclaredOptions.Invocation
import DeclaredOptions.Json
import DeclaredOptions.Json.Literal
import DeclaredOptions.Json.Reader
import DeclaredOptions.Json.Token
import DeclaredOptions.Key
import DeclaredOptions.KeySet
import DeclaredOptions.Main
import DeclaredOptions.Name
import DeclaredOptions.Name.Index
import DeclaredOptions.OptionSpec
import DeclaredOptions.Program.Path
import DeclaredOptions.Program.Report
import DeclaredOptions.Program.Request
import DeclaredOptions.Program.Run
import DeclaredOptions.Proofs.ArrayRoundTrip
import DeclaredOptions.Proofs.ByteOrder
import DeclaredOptions.Proofs.Call
import DeclaredOptions.Proofs.Collection
import DeclaredOptions.Proofs.Compilation
import DeclaredOptions.Proofs.Declarations
import DeclaredOptions.Proofs.Documents
import DeclaredOptions.Proofs.DropOrder
import DeclaredOptions.Proofs.Effects
import DeclaredOptions.Proofs.Entries
import DeclaredOptions.Proofs.EnvironmentTexts
import DeclaredOptions.Proofs.Erasure
import DeclaredOptions.Proofs.FieldReading
import DeclaredOptions.Proofs.Filing
import DeclaredOptions.Proofs.FiniteMap
import DeclaredOptions.Proofs.FirstFault
import DeclaredOptions.Proofs.FreshEntries
import DeclaredOptions.Proofs.FurtherEntries
import DeclaredOptions.Proofs.Grammar
import DeclaredOptions.Proofs.HelpForms
import DeclaredOptions.Proofs.HelpHistory
import DeclaredOptions.Proofs.IndexNames
import DeclaredOptions.Proofs.Interleaving
import DeclaredOptions.Proofs.Irrelevance
import DeclaredOptions.Proofs.JsonLayout
import DeclaredOptions.Proofs.JsonText
import DeclaredOptions.Proofs.KeyScans
import DeclaredOptions.Proofs.Legality
import DeclaredOptions.Proofs.ListSources
import DeclaredOptions.Proofs.Literals
import DeclaredOptions.Proofs.LogInvariants
import DeclaredOptions.Proofs.LongNames
import DeclaredOptions.Proofs.MetadataScans
import DeclaredOptions.Proofs.NameOrder
import DeclaredOptions.Proofs.NameText
import DeclaredOptions.Proofs.NestedGuards
import DeclaredOptions.Proofs.Occurrences
import DeclaredOptions.Proofs.Offers
import DeclaredOptions.Proofs.Overlap
import DeclaredOptions.Proofs.Phrases
import DeclaredOptions.Proofs.Places
import DeclaredOptions.Proofs.PosixMode
import DeclaredOptions.Proofs.Precedence
import DeclaredOptions.Proofs.Presentation
import DeclaredOptions.Proofs.ProgramAgreement
import DeclaredOptions.Proofs.ProgramArguments
import DeclaredOptions.Proofs.Protection
import DeclaredOptions.Proofs.ReadBack
import DeclaredOptions.Proofs.Registration
import DeclaredOptions.Proofs.Repetition
import DeclaredOptions.Proofs.ResolvedShape
import DeclaredOptions.Proofs.Spellings
import DeclaredOptions.Proofs.StagedKeys
import DeclaredOptions.Proofs.StagingOrder
import DeclaredOptions.Proofs.Steps
import DeclaredOptions.Proofs.Subtree
import DeclaredOptions.Proofs.TableAgreement
import DeclaredOptions.Proofs.Tables
import DeclaredOptions.Proofs.TakenNames
import DeclaredOptions.Proofs.Usability
import DeclaredOptions.Proofs.Utf8Text
import DeclaredOptions.Proofs.ValueShape
import DeclaredOptions.Proofs.Variables
import DeclaredOptions.Proofs.VisibleOptions
import DeclaredOptions.Registry
import DeclaredOptions.Resolution
import DeclaredOptions.Session
import DeclaredOptions.Sorted
import DeclaredOptions.Specification
import DeclaredOptions.Staging
import DeclaredOptions.Text.Blank
import DeclaredOptions.Text.DefaultIgnorable
import DeclaredOptions.Text.GraphemeExtend
import DeclaredOptions.Text.Quoted
import DeclaredOptions.Text.Ranges
import DeclaredOptions.Text.ShellWords
import DeclaredOptions.Text.Shown
import DeclaredOptions.Text.Split
import DeclaredOptions.Text.Unprinted
import DeclaredOptions.Text.Utf8
