import LayeredLexer.Files.Tree
import LayeredLexer.Json.Reader
import LayeredLexer.Log.Service
import LayeredLexer.Main
import LayeredLexer.Proofs.Lexer.Tiling
import LayeredLexer.Proofs.Rule.Entries
import LayeredLexer.Proofs.Rule.Dropping
import LayeredLexer.Proofs.Rule.Pruning
import LayeredLexer.Proofs.Rule.Table
import LayeredLexer.Proofs.Nesting.WellNested
import LayeredLexer.Proofs.Stream.Yields
import LayeredLexer.Proofs.Nesting.Scan
import LayeredLexer.Proofs.Source.Outlook
import LayeredLexer.Proofs.Source.Arrival
import LayeredLexer.Proofs.Rule.DeadBranches
import LayeredLexer.Proofs.Lexer.CutShort
import LayeredLexer.Proofs.Stream.Conservation
import LayeredLexer.Proofs.Stream.Pushback
import LayeredLexer.Proofs.Scan.Ending
import LayeredLexer.Proofs.Scan.Preferences
import LayeredLexer.Proofs.Rule.Rows
import LayeredLexer.Proofs.Rule.Contested
import LayeredLexer.Proofs.Rule.Loading
import LayeredLexer.Proofs.Stream.LastError
import LayeredLexer.Proofs.Stream.Finality
import LayeredLexer.Proofs.Stream.Draining
import LayeredLexer.Proofs.Scan.Logged
import LayeredLexer.Proofs.Rule.Frame
import LayeredLexer.Proofs.Rule.Independent
import LayeredLexer.Proofs.Rule.Rebuilding
import LayeredLexer.Proofs.Rule.Spelling
import LayeredLexer.Proofs.Stream.Taking
import LayeredLexer.Proofs.Lexer.LineEnds
import LayeredLexer.Proofs.Scan.Course
import LayeredLexer.Proofs.Scan.Lines
import LayeredLexer.Proofs.Scan.Delimiters
import LayeredLexer.Proofs.Lexer.Locality
import LayeredLexer.Proofs.Scan.Items
import LayeredLexer.Proofs.Stream.Transparent
import LayeredLexer.Proofs.Rule.Names
import LayeredLexer.Proofs.Log.Window
import LayeredLexer.Proofs.Scan.LastLine
import LayeredLexer.Proofs.Json.Records
import LayeredLexer.Proofs.CommandLine.Groups
import LayeredLexer.Proofs.CommandLine.ExitCode
import LayeredLexer.Proofs.CommandLine.Document
import LayeredLexer.Proofs.Lexer.Offset
import LayeredLexer.Proofs.Scan.Fits
import LayeredLexer.Proofs.Log.Clipping
