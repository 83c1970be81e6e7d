import TestEngine.Main
import TestEngine.Proofs.Job.Growth
import TestEngine.Proofs.Job.Interrupt
import TestEngine.Proofs.Job.Suspension
import TestEngine.Proofs.Job.Verdict
import TestEngine.Proofs.Lock.Fair
import TestEngine.Proofs.Pause.Transparent
import TestEngine.Proofs.Service.Serial
import TestEngine.Proofs.Walk.Completeness
import TestEngine.Proofs.Walk.Edits
import TestEngine.Proofs.Walk.Interruption
import TestEngine.Proofs.Walk.Rerun
import TestEngine.Proofs.Walk.Skipping
import TestEngine.Result.Path
import TestEngine.Proofs.Script.Rearrangement
import TestEngine.Proofs.Result.Conclusion
import TestEngine.Proofs.Script.Conclusion
import TestEngine.Proofs.Walk.Conclusion
import TestEngine.Proofs.Job.Conclusion
import TestEngine.Proofs.Lock.Leak
import TestEngine.Proofs.Lock.Handles
import TestEngine.Proofs.Service.Refusal
import TestEngine.Proofs.Script.Footprint
import TestEngine.Proofs.Session.Sharing
import TestEngine.Proofs.Job.Progress
import TestEngine.Proofs.Configuration.RoundTrip
import TestEngine.Proofs.Job.Rejection
import TestEngine.Proofs.Job.Testimony
import TestEngine.Proofs.Walk.Validation
import TestEngine.Proofs.Script.Indirection
import TestEngine.Proofs.Script.Transparency
import TestEngine.Proofs.Script.Reference
import TestEngine.Proofs.Script.FailFast
import TestEngine.Proofs.Script.Break
import TestEngine.Proofs.Script.Bounds
import TestEngine.Proofs.Observation.Play
import TestEngine.Proofs.Script.Index
import TestEngine.Proofs.Script.Items
import TestEngine.Proofs.Script.Target
import TestEngine.Proofs.Script.Holding
import TestEngine.Proofs.Condition.Order
import TestEngine.Proofs.Machine.Dialogue
import TestEngine.Proofs.Machine.Answer
import TestEngine.Proofs.Script.Effects
import TestEngine.Proofs.Walk.Handshake
import TestEngine.Proofs.Script.Grouping
import TestEngine.Proofs.Machine.Performance
import TestEngine.Proofs.Script.Denial
import TestEngine.Proofs.Lock.Aside
import TestEngine.Proofs.Script.Uncontended
import TestEngine.Proofs.Calendar.Day
import TestEngine.Proofs.Calendar.Literal
import TestEngine.Proofs.Double.Text
import TestEngine.Proofs.Condition.Dates
import TestEngine.Proofs.Condition.Reflexive
import TestEngine.Proofs.Script.Literal
import TestEngine.Proofs.Condition.Absent
import TestEngine.Proofs.Result.Address
import TestEngine.Proofs.Session.Contents
import TestEngine.Proofs.ContextLaw
import TestEngine.Proofs.Naming
import TestEngine.Proofs.Job.Cursor
