import InterferenceObservatory.Lib.Run
import InterferenceObservatory.Lib.Calls
import InterferenceObservatory.Lib.KeyedMap
import InterferenceObservatory.Lib.ByteCursor
import InterferenceObservatory.Lib.Parser
import InterferenceObservatory.Lib.Trace
import InterferenceObservatory.Lib.Delimited
import InterferenceObservatory.Lib.Scan
import InterferenceObservatory.Lib.Crc
import InterferenceObservatory.Lib.Monitor
import InterferenceObservatory.Lib.Exchange
import InterferenceObservatory.Enums
import InterferenceObservatory.Ids
import InterferenceObservatory.Double
import InterferenceObservatory.Records
import InterferenceObservatory.Digest
import InterferenceObservatory.Observatory
import InterferenceObservatory.Compare
import InterferenceObservatory.Verdict
import InterferenceObservatory.Operations
import InterferenceObservatory.Soundness
import InterferenceObservatory.Steps
import InterferenceObservatory.History
import InterferenceObservatory.Footprint
import InterferenceObservatory.Restraint
import InterferenceObservatory.StateCodec
import InterferenceObservatory.Sensitivity
import InterferenceObservatory.StateRoundTrip
import InterferenceObservatory.Truncation
import InterferenceObservatory.Persist
import InterferenceObservatory.SaveLoad
import InterferenceObservatory.Saving
import InterferenceObservatory.Overwrite
import InterferenceObservatory.RoundTrip
import InterferenceObservatory.MatrixReplay
import InterferenceObservatory.Messages
import InterferenceObservatory.Hostile
import InterferenceObservatory.Revalidation
import InterferenceObservatory.Episodes
import InterferenceObservatory.Grounds
import InterferenceObservatory.Selectivity
import InterferenceObservatory.Reporting
import InterferenceObservatory.Monotonicity
import InterferenceObservatory.Displacement
import InterferenceObservatory.Reordering
import InterferenceObservatory.Listing
import InterferenceObservatory.References
import InterferenceObservatory.Locking
import InterferenceObservatory.Frames
import InterferenceObservatory.Checksum
import InterferenceObservatory.Commands
import InterferenceObservatory.CommandLoop
import InterferenceObservatory.Ingest
import InterferenceObservatory.Layout
import InterferenceObservatory.Canonical
import InterferenceObservatory.Representation
import InterferenceObservatory.Acceptance
import InterferenceObservatory.Intervals
import InterferenceObservatory.Threads
import InterferenceObservatory.ConcurrentIngest
import InterferenceObservatory.Cluster
import InterferenceObservatory.Durability
import InterferenceObservatory.Queries
import InterferenceObservatory.Registry
import InterferenceObservatory.Streams
import InterferenceObservatory.Launch
import InterferenceObservatory.Guidance
import InterferenceObservatory.Tool
import InterferenceObservatory.Snapshots
import InterferenceObservatory.Incarnations
import InterferenceObservatory.Distributed
