import SparseCache.Content.Lemmas
import SparseCache.PathMap.Lemmas
import SparseCache.Scratch.Lemmas
import SparseCache.Scratch.Shared
import SparseCache.Session.Report
import SparseCache.SpanSet.Lemmas
import SparseCache.Proofs.Cache.Run
import SparseCache.Proofs.Cache.Tasks
import SparseCache.Proofs.Cache.Frames
import SparseCache.Proofs.Cache.Uploads
import SparseCache.Proofs.Entry.Changes
import SparseCache.Proofs.Cache.Entries
import SparseCache.Proofs.Cache.Turns
import SparseCache.Proofs.Cache.Courses
import SparseCache.Proofs.Cache.Tables
import SparseCache.Proofs.Entry.FlatFile
import SparseCache.Proofs.Cache.Holes
import SparseCache.Proofs.Cache.Refinement
import SparseCache.Proofs.Cache.Uploading
import SparseCache.Proofs.Cache.Owners
import SparseCache.Proofs.Cache.Registrations
import SparseCache.Proofs.Cache.Record
import SparseCache.Proofs.Cache.Acts
import SparseCache.Proofs.Cache.Stranding
import SparseCache.Proofs.Cache.Currency
import SparseCache.Proofs.Cache.Placement
import SparseCache.Proofs.Cache.Openness
import SparseCache.Proofs.Cache.Commits
import SparseCache.Proofs.Cache.Eviction
import SparseCache.Proofs.Cache.Calls
import SparseCache.Proofs.Cache.Notes
import SparseCache.Proofs.Cache.Accounts
import SparseCache.Proofs.Cache.Marks
import SparseCache.Proofs.Cache.Persistence
import SparseCache.Proofs.Cache.Remapping
import SparseCache.Proofs.Cache.Coherence
import SparseCache.Proofs.SpanSet.Edits
import SparseCache.Proofs.SpanSet.Gaps
import SparseCache.Proofs.SpanSet.Queries
import SparseCache.Proofs.SpanSet.Walks
import SparseCache.Proofs.SpanSet.Size
import SparseCache.Proofs.Cache.Callbacks
import SparseCache.Proofs.Entry.Outline
import SparseCache.Proofs.Cache.Arrival
import SparseCache.Proofs.Cache.Permits
import SparseCache.Proofs.Entry.Answers
import SparseCache.Proofs.Cache.Transfers
import SparseCache.Proofs.Cache.Loads
import SparseCache.Proofs.Cache.Fetched
import SparseCache.Proofs.FileTree.Sound
import SparseCache.Proofs.FileTree.Making
import SparseCache.Proofs.Scratch.Sweep
import SparseCache.Proofs.Scratch.Leftovers
import SparseCache.Proofs.Scratch.Steps
import SparseCache.Proofs.Scratch.Overruns
import SparseCache.Proofs.Cache.Confinement
import SparseCache.Proofs.Cache.Relocation
import SparseCache.Proofs.Cache.Discarding
import SparseCache.Proofs.Cache.Opening
import SparseCache.Proofs.Cache.Loading
import SparseCache.Path.Spelling
import SparseCache.Proofs.FileTree.Creation
import SparseCache.Proofs.Entry.Exporting
import SparseCache.Proofs.Entry.Words
import SparseCache.Proofs.Cache.Words
import SparseCache.Proofs.Cache.Streams
import SparseCache.Proofs.Cache.Closing
import SparseCache.Proofs.Cache.Spelling
import SparseCache.Proofs.Cache.Respelling
import SparseCache.Proofs.Cache.Twins
