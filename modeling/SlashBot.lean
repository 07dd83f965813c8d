import SlashBot.Main
import SlashBot.Proofs.Client
import SlashBot.Proofs.Plan
import SlashBot.Proofs.Following
import SlashBot.Proofs.Tracking
import SlashBot.Proofs.Conversation
import SlashBot.Proofs.Locking
import SlashBot.Proofs.Convergence
import SlashBot.Proofs.Fault
import SlashBot.Proofs.Reading
import SlashBot.Proofs.Handling
import SlashBot.Proofs.Freshness
import SlashBot.Proofs.Signature
import SlashBot.Proofs.Admitted
import SlashBot.Proofs.Batch
import SlashBot.Proofs.Roster
import SlashBot.Proofs.Sorting
import SlashBot.Proofs.Spelling
import SlashBot.Proofs.Normalizing
import SlashBot.Proofs.Labelling
import SlashBot.Proofs.Assigning
import SlashBot.Proofs.Refusal
import SlashBot.Proofs.Path
import SlashBot.Proofs.Reach
import SlashBot.Proofs.Octets
import SlashBot.Proofs.Naming
import SlashBot.Proofs.Contents
import SlashBot.Proofs.Agreement
import SlashBot.Proofs.Token
import SlashBot.Proofs.Prose
import SlashBot.Proofs.Canonical
import SlashBot.Proofs.Written
import SlashBot.Proofs.Cover
import SlashBot.Proofs.Extent
import SlashBot.Proofs.Report
import SlashBot.Proofs.Isolation
import SlashBot.Proofs.Turns
import SlashBot.Proofs.Rejection
import SlashBot.Proofs.OneLine
import SlashBot.Proofs.Leaf
import SlashBot.Proofs.Telling
import SlashBot.Proofs.Log
import SlashBot.Proofs.Scanning
import SlashBot.Proofs.Composing
import SlashBot.Proofs.Constructing
import SlashBot.Proofs.Lines
import SlashBot.Proofs.Listing
import SlashBot.Proofs.Lookup
import SlashBot.Proofs.Reacting
import SlashBot.Proofs.Reactions
