import Rollout.Handover
import Rollout.Helm.Client
import Rollout.Main
import Rollout.Overrides.Session
import Rollout.Program
import Rollout.Rehearsal.Pool
import Rollout.Rehearsal.Schedule
import Rollout.Settings.File
import Rollout.Signal
import Rollout.Timed
import Rollout.Proofs.Components.Charts
import Rollout.Proofs.Components.Names
import Rollout.Proofs.Delivery.Handover
import Rollout.Proofs.Delivery.Order
import Rollout.Proofs.Dictionary
import Rollout.Proofs.Directory
import Rollout.Proofs.Helm.Retry
import Rollout.Proofs.Overrides.FileValues
import Rollout.Proofs.Overrides.History
import Rollout.Proofs.Overrides.LastWord
import Rollout.Proofs.Overrides.Layers
import Rollout.Proofs.Overrides.MergeLaw
import Rollout.Proofs.Overrides.Path
import Rollout.Proofs.Overrides.Plain
import Rollout.Proofs.Pool.Conservation
import Rollout.Proofs.Pool.Ending
import Rollout.Proofs.Pool.Sequence
import Rollout.Proofs.Pool.Serial
import Rollout.Proofs.Pool.Signals
import Rollout.Proofs.Rehearsal.Agreement
import Rollout.Proofs.Rehearsal.Clocks
import Rollout.Proofs.Rehearsal.Shadow
import Rollout.Proofs.Rehearsal.Steps
import Rollout.Proofs.Rehearsal.Turns
import Rollout.Proofs.Rehearsal.Weight
import Rollout.Proofs.Run.Alike
import Rollout.Proofs.Run.Completion
import Rollout.Proofs.Run.Endings
import Rollout.Proofs.Run.Failures
import Rollout.Proofs.Run.Grammar
import Rollout.Proofs.Run.Moves
import Rollout.Proofs.Run.Order
import Rollout.Proofs.Run.Progress
import Rollout.Proofs.Run.Releases
import Rollout.Proofs.Run.Snapshot
import Rollout.Proofs.Run.Stages
import Rollout.Proofs.Run.Success
import Rollout.Proofs.Run.Unobserved
import Rollout.Proofs.Run.Updates
import Rollout.Proofs.Run.Weight
import Rollout.Proofs.Schedule.Greedy
import Rollout.Proofs.Signal
import Rollout.Proofs.Timed.Agreement
import Rollout.Proofs.Timed.Deadlines
import Rollout.Proofs.Timed.Forecast
import Rollout.Proofs.Timed.Keeping
import Rollout.Proofs.Timed.Moves
import Rollout.Proofs.Timed.Quiet
import Rollout.Proofs.Timed.Return
import Rollout.Proofs.Watch.Outcome
import Rollout.Proofs.Overrides.Grouping
import Rollout.Proofs.Overrides.KeyPath
import Rollout.Proofs.Overrides.Normal
import Rollout.Proofs.Overrides.Leaves
import Rollout.Proofs.Overrides.Flatten
import Rollout.Proofs.Overrides.Precedence
import Rollout.Proofs.Settings.Precedence
import Rollout.Proofs.Duration.Units
import Rollout.Proofs.Settings.Saving
import Rollout.Proofs.Timed.Removal
