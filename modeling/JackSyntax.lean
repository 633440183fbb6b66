import JackSyntax.Main
import JackSyntax.Proofs.Lexing.Splitting
import JackSyntax.Proofs.Parsing.FirstError
import JackSyntax.Proofs.Parsing.TwoRuns
import JackSyntax.Proofs.Documents.Lines
import JackSyntax.Proofs.Documents.Listing
import JackSyntax.Proofs.Lexing.Failure
import JackSyntax.Proofs.Batch.AllOrNothing
import JackSyntax.Proofs.Batch.Sources
import JackSyntax.Proofs.Batch.Reported
import JackSyntax.Proofs.Documents.Recovery
import JackSyntax.Proofs.Json.Reading
import JackSyntax.Proofs.Documents.JsonCopy
import JackSyntax.Proofs.Documents.Agreement
import JackSyntax.Proofs.Batch.Independence
import JackSyntax.Proofs.Lexing.Joining
import JackSyntax.Proofs.Lexing.LineEnds
import JackSyntax.Proofs.Batch.Repeating
import JackSyntax.Proofs.Program.Ending
import JackSyntax.Proofs.Parsing.TooDeep
import JackSyntax.Proofs.Documents.Calls
import JackSyntax.Proofs.Batch.Encodable
import JackSyntax.Proofs.Documents.Replaying
import JackSyntax.Proofs.Lexing.Locations
import JackSyntax.Proofs.Parsing.Moves
import JackSyntax.Proofs.Documents.BothFormats
