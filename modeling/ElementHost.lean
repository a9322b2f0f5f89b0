import ElementHost.Bench.AlarmRig
import ElementHost.Bench.CompletionRig
import ElementHost.Bench.HostRig
import ElementHost.Clock.Stopwatch
import ElementHost.Record.Settings
import ElementHost.Store.Basic
import ElementHost.Proofs.Link.Session
import ElementHost.Proofs.Countdown.Orders
import ElementHost.Proofs.Clockwork.Ideal
import ElementHost.Proofs.Clockwork.Dispatch
import ElementHost.Proofs.Clockwork.Silence
import ElementHost.Proofs.Completion.Assignment
import ElementHost.Proofs.Clockwork.Conduct
import ElementHost.Proofs.Link.Requests
import ElementHost.Proofs.Clockwork.Armed
import ElementHost.Proofs.Completion.Waiters
import ElementHost.Proofs.Alarm.Course
import ElementHost.Proofs.Alarm.Phases
import ElementHost.Proofs.Alarm.SingleTimer
import ElementHost.Proofs.Alarm.Facility
import ElementHost.Proofs.Alarm.Recovery
import ElementHost.Proofs.Alarm.Running
import ElementHost.Proofs.Alarm.Failures
import ElementHost.Proofs.Alarm.Starts
import ElementHost.Proofs.Alarm.Reentrancy
import ElementHost.Proofs.Link.Adapter
import ElementHost.Proofs.Link.Attempts
import ElementHost.Proofs.Store.Runs
import ElementHost.Proofs.Countdown.Expiries
import ElementHost.Proofs.Clockwork.Workshop
import ElementHost.Proofs.Completion.Deadline
import ElementHost.Proofs.Completion.Agreement
import ElementHost.Proofs.Completion.Timeouts
import ElementHost.Proofs.Clock.Delays
import ElementHost.Proofs.Pins.Resets
import ElementHost.Proofs.Clock.Laps
import ElementHost.Proofs.Store.Reading
import ElementHost.Proofs.Alarm.Periods
