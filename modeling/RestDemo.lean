import RestDemo.Main
import RestDemo.Server.Session
import RestDemo.Proofs.Engine.Faultless
import RestDemo.Proofs.Poll.Attempt
import RestDemo.Proofs.Poll.Course
import RestDemo.Proofs.Limits
import RestDemo.Proofs.Engine.Closed
import RestDemo.Proofs.Poll.Closed
import RestDemo.Proofs.Engine.Orderly
import RestDemo.Proofs.Poll.Outcome
import RestDemo.Proofs.Step.Effect
import RestDemo.Proofs.Run.Closed
import RestDemo.Proofs.Run.Later
import RestDemo.Proofs.Run.Composition
import RestDemo.Proofs.Engine.Before
import RestDemo.Proofs.Poll.Cancellation
import RestDemo.Proofs.Run.Cancellation
import RestDemo.Proofs.Json.Writable
import RestDemo.Proofs.Log.Store
import RestDemo.Proofs.Log.Logger
import RestDemo.Proofs.Json.Read
import RestDemo.Proofs.Run.Sound
import RestDemo.Proofs.Server.Log
import RestDemo.Proofs.Demo.Loading
import RestDemo.Proofs.Server.Session
import RestDemo.Proofs.Poll.Trace
import RestDemo.Proofs.Step.Typed
import RestDemo.Proofs.Run.Trace
import RestDemo.Proofs.Run.Attribution
import RestDemo.Proofs.Server.Trace
import RestDemo.Proofs.Engine.Coupled
import RestDemo.Proofs.Poll.Coupled
import RestDemo.Proofs.Step.Coupled
import RestDemo.Proofs.Run.Alone
import RestDemo.Proofs.Server.Stepping
import RestDemo.Proofs.Masking.Filling
import RestDemo.Proofs.Step.Shown
import RestDemo.Proofs.Run.Secrecy
import RestDemo.Proofs.Json.Integer
import RestDemo.Proofs.Json.Quoted
import RestDemo.Proofs.Json.RoundTrip
import RestDemo.Proofs.Template.Filled
import RestDemo.Proofs.Step.Body
import RestDemo.Proofs.Step.Payload
import RestDemo.Proofs.Log.Cells
import RestDemo.Proofs.Condition.Overlong
import RestDemo.Proofs.RestLine
import RestDemo.Proofs.Run.History
import RestDemo.Proofs.Server.Proxy
import RestDemo.Proofs.CommandLine.Exit
import RestDemo.Proofs.Step.Attempts
import RestDemo.Proofs.Demo.Misshapen
import RestDemo.Proofs.Condition.Cut
import RestDemo.Proofs.Condition.Grammar
import RestDemo.Proofs.Condition.Scalar
import RestDemo.Proofs.Path.Composition
import RestDemo.Proofs.Template.Pass
import RestDemo.Proofs.Template.Reported
import RestDemo.Proofs.Path.Filled
import RestDemo.Proofs.Saving
import RestDemo.Proofs.Template.Embedded
import RestDemo.Proofs.Step.Unresolved
import RestDemo.Proofs.Value.Equivalence
import RestDemo.Proofs.Condition.Literal
import RestDemo.Proofs.Demo.Accepted
import RestDemo.Proofs.Masking.Hidden
import RestDemo.Proofs.Log.Acts
import RestDemo.Proofs.Step.Headers
import RestDemo.Proofs.Template.Occurrence
