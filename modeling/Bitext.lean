import Bitext.Build.Pool
import Bitext.Session
import Bitext.Proofs.Bucket.Index
import Bitext.Proofs.Packing.Greedy
import Bitext.Proofs.Sampler
import Bitext.Proofs.Record.Bytes
import Bitext.Proofs.Record.PairRecord
import Bitext.Proofs.Packing.Buckets
import Bitext.Proofs.Packing.Rounds
import Bitext.Proofs.Packing.Fewest
import Bitext.Proofs.Verdict
import Bitext.Proofs.Truncated
import Bitext.Proofs.Source.Delivered
import Bitext.Proofs.Tally
import Bitext.Proofs.Admission
import Bitext.Proofs.Build.Harvest
import Bitext.Proofs.Build.Store
import Bitext.Proofs.Build.Interleaving
import Bitext.Proofs.Build.Merge
import Bitext.Proofs.Workspace
import Bitext.Proofs.Build.Gather
import Bitext.Proofs.Packing.Stored
import Bitext.Proofs.Packing.Draws
import Bitext.Proofs.Disk
import Bitext.Proofs.Build.Index
import Bitext.Proofs.BatchStream
import Bitext.Proofs.Epoch
import Bitext.Proofs.Corpus
import Bitext.Proofs.EpochFile
import Bitext.Proofs.Bucket.Fifo
import Bitext.Proofs.Build.Layout
import Bitext.Proofs.Build.Pool
import Bitext.Proofs.Build.Schedule
import Bitext.Proofs.Build.FirstFault
import Bitext.Proofs.Source.FirstFault
import Bitext.Proofs.Disk.Temporary
import Bitext.Proofs.Cleanup
import Bitext.Proofs.Session
import Bitext.Proofs.Packing.Bytes
import Bitext.Proofs.Build.Contents
import Bitext.Proofs.Log
import Bitext.Proofs.Replay
import Bitext.Proofs.Blob
import Bitext.Proofs.Source.Cutting
import Bitext.Proofs.Source.OneSided
import Bitext.Proofs.Text.Words
import Bitext.Proofs.Text.Clip
import Bitext.Proofs.Readmission
import Bitext.Proofs.Counters
import Bitext.Proofs.Accounts
import Bitext.Proofs.Proportion
import Bitext.Proofs.StreamCalls
import Bitext.Proofs.Source.Discovery
import Bitext.Proofs.Source.Distinct
import Bitext.Proofs.Vocabulary
import Bitext.Proofs.Progress
import Bitext.Proofs.Record.Cursor
import Bitext.Proofs.Build.Boundaries
import Bitext.Proofs.Sharding
