import YangBinding.Artifacts
import YangBinding.CommandLine.Run
import YangBinding.Files.Volume
import YangBinding.Main
import YangBinding.Statement.Arena
import YangBinding.Proofs.Schema.Survey
import YangBinding.Proofs.Reports
import YangBinding.Proofs.Schema.Accounting
import YangBinding.Proofs.Class.Lineage
import YangBinding.Proofs.Class.Mirror
import YangBinding.Proofs.Class.Keys
import YangBinding.Proofs.Events
import YangBinding.Proofs.LockStep
import YangBinding.Proofs.Failure.Faults
import YangBinding.Proofs.Failure.Theorems
import YangBinding.Proofs.Told
import YangBinding.Proofs.SchemaOption
import YangBinding.Proofs.Bare
import YangBinding.Proofs.Composition
import YangBinding.Proofs.Class.Naming
import YangBinding.Proofs.Class.Repeats
import YangBinding.Proofs.Java.Signature
import YangBinding.Proofs.Class.KeyAgreement
import YangBinding.Proofs.Opacity
import YangBinding.Proofs.Complaints
import YangBinding.Proofs.Class.Origin
import YangBinding.Proofs.Class.Coverage
import YangBinding.Proofs.Class.KeyNames
import YangBinding.Proofs.Statement.Arena
import YangBinding.Proofs.Statement.Encoding
import YangBinding.Proofs.Schema.Xml
import YangBinding.Proofs.Java.Index
import YangBinding.Proofs.Java.Links
import YangBinding.Proofs.Class.Members
import YangBinding.Proofs.Files.Filing
import YangBinding.Proofs.Files.Written
import YangBinding.Proofs.Json.RoundTrip
import YangBinding.Proofs.CommandLine.SchemaOutput
import YangBinding.Proofs.Files.Growth
import YangBinding.Proofs.Java.Names
import YangBinding.Proofs.Files.Inside
import YangBinding.Proofs.Files.Fallback
import YangBinding.Proofs.Java.Variables
import YangBinding.Proofs.Java.Methods
import YangBinding.Proofs.Java.Overloads
import YangBinding.Proofs.Class.KeyOrder
import YangBinding.Proofs.Schema.Siblings
import YangBinding.Proofs.Java.Braces
import YangBinding.Proofs.Java.Blocks
import YangBinding.Proofs.Java.Literal
import YangBinding.Proofs.Java.Quotations
import YangBinding.Proofs.Files.Packages
import YangBinding.Proofs.Statement.FaultPlace
import YangBinding.Proofs.Schema.Redrawing
import YangBinding.Proofs.Schema.Tightening
import YangBinding.Proofs.Json.Scalars
import YangBinding.Proofs.Json.Grammar
import YangBinding.Proofs.CommandLine.FirstValue
import YangBinding.Proofs.FirstReports
import YangBinding.Proofs.Java.HtmlList
import YangBinding.Proofs.Java.NameRule
