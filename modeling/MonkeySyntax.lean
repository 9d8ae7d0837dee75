import MonkeySyntax.Cli.Transcript
import MonkeySyntax.Main
import MonkeySyntax.Node.Printer
import MonkeySyntax.Node.Visit
import MonkeySyntax.Proofs.Lexing.Sharing
import MonkeySyntax.Proofs.Parsing.Accounts
import MonkeySyntax.Proofs.RoundTrip
import MonkeySyntax.Proofs.Grammar.Parts
import MonkeySyntax.Proofs.Parsing.Course
import MonkeySyntax.Proofs.Parsing.Kept
import MonkeySyntax.Proofs.Parsing.Recovery
import MonkeySyntax.Proofs.Parsing.Diagnoses
import MonkeySyntax.Proofs.Parsing.Reports
import MonkeySyntax.Proofs.Lexing.Offsets
import MonkeySyntax.Proofs.Lexing.Pieces
import MonkeySyntax.Proofs.Trees.Moved
import MonkeySyntax.Proofs.Parsing.Elsewhere
import MonkeySyntax.Proofs.Lexing.Words
import MonkeySyntax.Proofs.Parsing.Relaid
import MonkeySyntax.Proofs.Lexing.Joined
import MonkeySyntax.Proofs.Grammar.Tokens
import MonkeySyntax.Proofs.Parsing.Sequence
import MonkeySyntax.Proofs.Parsing.Factors
import MonkeySyntax.Proofs.Parsing.Faithful
import MonkeySyntax.Proofs.Settings.Saved
import MonkeySyntax.Proofs.Settings.Refused
import MonkeySyntax.Proofs.Lexing.Unseen
import MonkeySyntax.Proofs.Lexing.Longest
import MonkeySyntax.Proofs.Parsing.Termination
import MonkeySyntax.Proofs.Sessions
import MonkeySyntax.Proofs.Views
import MonkeySyntax.Proofs.Grammar.Elsewhere
import MonkeySyntax.Proofs.Parsing.Chains
import MonkeySyntax.Proofs.Lexing.Rows
import MonkeySyntax.Proofs.Trees.Visits
import MonkeySyntax.Proofs.Trees.Printing
import MonkeySyntax.Proofs.Trees.Outlines
import MonkeySyntax.Proofs.ErrorLines
import MonkeySyntax.Proofs.Settings.Loaded
