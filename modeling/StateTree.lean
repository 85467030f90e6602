import StateTree.Path.Text
import StateTree.Node.Shape
import StateTree.Schema.Build
import StateTree.Schema.Polyfill
import StateTree.Accessor.Write
import StateTree.Accessor.Enumerate
import StateTree.Accessor.Cache
import StateTree.Difference
import StateTree.View.Record
import StateTree.Update
import StateTree.Format.Json.Read
import StateTree.Format.Binary
import StateTree.Format.Crc32
import StateTree.Format.Json.Float
import StateTree.Codec.Schema
import StateTree.Codec.Update
import StateTree.Codec.Difference
import StateTree.Format.Toml.Parse
import StateTree.Log.Upgrade
import StateTree.Log.Memory
import StateTree.Log.File
import StateTree.Log.Settings
import StateTree.Log.Status
import StateTree.Pipeline.Jitter
import StateTree.Log.Replay
import StateTree.Log.Tap
import StateTree.Log.Shelf
import StateTree.Site.Basic
import StateTree.Site.Submission
import StateTree.Pipeline.Error
import StateTree.Pipeline.Buffer
import StateTree.Pipeline.Worker
import StateTree.Pipeline.ReplicaSet
import StateTree.Log.Replica
import StateTree.Deployment.Working
import StateTree.Deployment.Perform
import StateTree.Deployment.Build
import StateTree.Deployment.Settle
import StateTree.Deployment.Reading
import StateTree.Proofs.Containers
import StateTree.Proofs.Typing
import StateTree.Proofs.Resolution
import StateTree.Proofs.Reading
import StateTree.Proofs.Changes
import StateTree.Proofs.Validity
import StateTree.Proofs.Published
import StateTree.Proofs.Ledger
import StateTree.Proofs.Programs
import StateTree.Proofs.Documents
import StateTree.Proofs.Writers
import StateTree.Proofs.Interleaving
import StateTree.Proofs.Lineage
import StateTree.Proofs.Completion
import StateTree.Proofs.JsonText
import StateTree.Proofs.Layout
import StateTree.Proofs.Regularity
import StateTree.Proofs.NodeText
import StateTree.Proofs.Readers
import StateTree.Proofs.Workplace
import StateTree.Proofs.Fleet
import StateTree.Proofs.Followers
import StateTree.Proofs.Replication
import StateTree.Proofs.RecordText
import StateTree.Proofs.Segment
import StateTree.Proofs.Directories
import StateTree.Proofs.FileStore
import StateTree.Proofs.Recovery
import StateTree.Proofs.Attempts
import StateTree.Proofs.Buffering
import StateTree.Proofs.Ensemble
import StateTree.Proofs.Lockstep
import StateTree.Proofs.Members
import StateTree.Proofs.Membership
import StateTree.Proofs.Locations
import StateTree.Proofs.Writing
import StateTree.Proofs.Registrations
import StateTree.Proofs.Workshop
import StateTree.Proofs.Serialization
import StateTree.Proofs.Scopes
import StateTree.Proofs.Mirroring
import StateTree.Proofs.Chores
import StateTree.Proofs.Backlog
import StateTree.Proofs.Courses
import StateTree.Proofs.Traffic
import StateTree.Proofs.Flushing
import StateTree.Proofs.LocalSite
import StateTree.Proofs.Barriers
import StateTree.Proofs.Polyfilling
import StateTree.Proofs.StoredTrees
import StateTree.Proofs.Conveyor
import StateTree.Proofs.Lines
import StateTree.Proofs.Carrying
import StateTree.Proofs.Stacks
import StateTree.Proofs.Acceptance
import StateTree.Proofs.Startups
import StateTree.Proofs.FirstRoots
import StateTree.Proofs.FailedBuilds
import StateTree.Proofs.TakeOvers
import StateTree.Proofs.Reloads
import StateTree.Proofs.Untouched
import StateTree.Proofs.Ancestors
import StateTree.Proofs.Removal
import StateTree.Proofs.Submissions
import StateTree.Proofs.Comparison
import StateTree.Proofs.Scanning
import StateTree.Proofs.Outcomes
import StateTree.Proofs.Compaction
import StateTree.Proofs.Negotiation
import StateTree.Proofs.Binding
import StateTree.Proofs.Resolvability
import StateTree.Proofs.Enclosing
import StateTree.Proofs.PathGrammar
import StateTree.Proofs.Histories
import StateTree.Proofs.Enumeration
import StateTree.Proofs.Views
import StateTree.Proofs.Isolation
import StateTree.Proofs.Crew
import StateTree.Proofs.Sending
import StateTree.Proofs.Attribution
import StateTree.Proofs.Restoring
