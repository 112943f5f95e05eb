import StagedPipeline.CommandLine.Program
import StagedPipeline.Engine.Inspect
import StagedPipeline.Main
import StagedPipeline.Proofs.Artifact.Closing
import StagedPipeline.Proofs.Artifact.Schema
import StagedPipeline.Proofs.Driving.Attempts
import StagedPipeline.Proofs.Driving.Backoff
import StagedPipeline.Proofs.Driving.Isolation
import StagedPipeline.Proofs.Driving.Leftover
import StagedPipeline.Proofs.Driving.Lifecycle
import StagedPipeline.Proofs.Driving.Noninterference
import StagedPipeline.Proofs.Driving.Polling
import StagedPipeline.Proofs.Driving.Reference
import StagedPipeline.Proofs.Driving.Refusal
import StagedPipeline.Proofs.Driving.Rejoining
import StagedPipeline.Proofs.Driving.Reopening
import StagedPipeline.Proofs.Driving.Repetition
import StagedPipeline.Proofs.Driving.Returning
import StagedPipeline.Proofs.Pipeline.Persistence
import StagedPipeline.Proofs.Pipeline.Report
import StagedPipeline.Simulation.Run
import StagedPipeline.Proofs.Config.Printing
import StagedPipeline.Proofs.CommandLine.Conclusion
import StagedPipeline.Proofs.Driving.Listing
import StagedPipeline.Proofs.Completion.Exchange
import StagedPipeline.Proofs.Artifact.Writes
import StagedPipeline.Proofs.Driving.Counting
import StagedPipeline.Proofs.Simulation.Serving
import StagedPipeline.Proofs.Simulation.Following
