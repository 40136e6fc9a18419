import BuildItems.Comparison.Match
import BuildItems.Data
import BuildItems.Log.Journal
import BuildItems.Options.Document
import BuildItems.Project.Declare
import BuildItems.Project.Materialize
import BuildItems.StringPool
import BuildItems.Proofs.Project.Reachable
import BuildItems.Proofs.Run
import BuildItems.Proofs.Project.Prefix
import BuildItems.Proofs.Operation.Policy
import BuildItems.Proofs.Operation.Apply
import BuildItems.Proofs.Operation.Likeness
import BuildItems.Proofs.Operation.Removing
import BuildItems.Proofs.Operation.Attempt
import BuildItems.Proofs.Project.Items
import BuildItems.Proofs.Project.Eager
import BuildItems.Proofs.Project.Sharing
import BuildItems.Proofs.Project.Recursion
import BuildItems.Proofs.Project.Skipping
import BuildItems.Proofs.Project.Isolation
import BuildItems.Proofs.Mirror
import BuildItems.Proofs.Operation.Mirror
import BuildItems.Proofs.Project.LastCall
import BuildItems.Proofs.Operation.WellFormed
import BuildItems.Proofs.Project.WellFormed
import BuildItems.Proofs.Spec.Recounted
import BuildItems.Proofs.Operation.Recounted
import BuildItems.Proofs.Operation.Retold
import BuildItems.Proofs.Project.Recounted
import BuildItems.Proofs.Project.Active
import BuildItems.Proofs.Project.Success
import BuildItems.Proofs.Project.Replacement
import BuildItems.Proofs.Project.Exchange
import BuildItems.Proofs.Operation.Filtering
import BuildItems.Proofs.Operation.Commute
import BuildItems.Proofs.Project.Steady
import BuildItems.Proofs.Project.Commute
import BuildItems.Proofs.Spec.Joined
import BuildItems.Proofs.Operation.Split
import BuildItems.Proofs.Project.Split
import BuildItems.Proofs.StringPool.Effect
import BuildItems.Proofs.StringPool.Holding
import BuildItems.Proofs.StringPool.Instances
import BuildItems.Proofs.Buffer.SinglePass
import BuildItems.Proofs.Buffer.Change
import BuildItems.Proofs.Buffer.Workspace
import BuildItems.Proofs.Buffer.Counting
import BuildItems.Proofs.Buffer.Snapshots
import BuildItems.Proofs.Project.Covering
import BuildItems.Proofs.Operation.Slots
import BuildItems.Proofs.Operation.Agreement
import BuildItems.Proofs.Operation.Candidates
import BuildItems.Proofs.Operation.Mutation
import BuildItems.Proofs.Operation.Atomic
import BuildItems.Proofs.Operation.Updating
import BuildItems.Proofs.Glob.Matching
import BuildItems.Proofs.Glob.Base
import BuildItems.Proofs.Operation.Letters
import BuildItems.Proofs.Comparison.PathLike
import BuildItems.Proofs.Comparison.CaseInsensitive
import BuildItems.Proofs.Operation.Unspelled
import BuildItems.Proofs.Project.Excluding
import BuildItems.Proofs.Spec.Rendering
import BuildItems.Proofs.Project.Validity
import BuildItems.Proofs.Spec.Matching
import BuildItems.Proofs.Account
import BuildItems.Proofs.Operation.Accounted
import BuildItems.Proofs.Project.Finishing
import BuildItems.Proofs.Project.Accounted
import BuildItems.Proofs.Project.Visiting
import BuildItems.Proofs.Project.Telling
