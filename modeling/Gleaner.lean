import Gleaner.Artifact
import Gleaner.CommandLine
import Gleaner.Element.Record
import Gleaner.Extraction
import Gleaner.FileSystem.Change
import Gleaner.Java.Method
import Gleaner.Java.Parse
import Gleaner.Json.Read
import Gleaner.Json.Write
import Gleaner.Main
import Gleaner.Path
import Gleaner.Run
import Gleaner.Schema.Scan
import Gleaner.Settings
import Gleaner.Settings.Load
import Gleaner.Syntax.Problem
import Gleaner.Text.Base64
import Gleaner.World
import Gleaner.Yaml.Read
import Gleaner.Yaml.Reader
import Gleaner.Yaml.Scalar
import Gleaner.Yaml.Scan
import Gleaner.Proofs.Schema.Decomposition
import Gleaner.Proofs.Schema.Opener
import Gleaner.Proofs.Schema.Tracking
import Gleaner.Proofs.Schema.Extent
import Gleaner.Proofs.Extraction.Accounting
import Gleaner.Proofs.Schema.Restart
import Gleaner.Proofs.Path.Below
import Gleaner.Proofs.FileSystem.Tree
import Gleaner.Proofs.FileSystem.Route
import Gleaner.Proofs.Discovery.Walk
import Gleaner.Proofs.Discovery.Pruning
import Gleaner.Proofs.Extraction.Isolation
import Gleaner.Proofs.Extraction.Exclusion
import Gleaner.Proofs.Schema.Account
import Gleaner.Proofs.Java.Cleaning
import Gleaner.Proofs.Java.Preorder
import Gleaner.Proofs.Schema.Matching
import Gleaner.Proofs.Syntax.Range
import Gleaner.Proofs.Syntax.Outermost
import Gleaner.Proofs.Text.Lines
import Gleaner.Proofs.Text.Trim
import Gleaner.Proofs.Text.Words
import Gleaner.Proofs.Java.Extent
import Gleaner.Proofs.Path.Normal
import Gleaner.Proofs.Extraction.Provenance
import Gleaner.Proofs.Settings.Leniency
import Gleaner.Proofs.Json.Quote
import Gleaner.Proofs.Json.Number
import Gleaner.Proofs.Json.RoundTrip
import Gleaner.Proofs.Json.Writable
import Gleaner.Proofs.Element.Record
import Gleaner.Proofs.FileSystem.Resolve
import Gleaner.Proofs.FileSystem.Growth
import Gleaner.Proofs.Artifact.Attempt
import Gleaner.Proofs.Artifact.Elements
import Gleaner.Proofs.Data.Order
import Gleaner.Proofs.FileSystem.Making
import Gleaner.Proofs.Artifact.Report
import Gleaner.Proofs.Run.Frame
import Gleaner.Proofs.Run.Artifacts
import Gleaner.Proofs.Schema.Transition
import Gleaner.Proofs.Schema.Reading
import Gleaner.Proofs.Schema.Padding
import Gleaner.Proofs.Schema.OpenerForm
import Gleaner.Proofs.Syntax.Excerpt
import Gleaner.Proofs.Extraction.Wording
import Gleaner.Proofs.Run.LogLines
import Gleaner.Proofs.Log.Configuring
import Gleaner.Proofs.Java.CleanText
import Gleaner.Proofs.Java.Origin
import Gleaner.Proofs.Java.Enclosing
import Gleaner.Proofs.Java.Attachment
import Gleaner.Proofs.Java.Laminar
import Gleaner.Proofs.Java.Signature
import Gleaner.Proofs.Path.Segments
import Gleaner.Proofs.Extraction.ListingOrder
import Gleaner.Proofs.Settings.Resolution
