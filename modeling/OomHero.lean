import OomHero.Foundations.Gate
import OomHero.Foundations.Slots
import OomHero.System
import OomHero.Processes.Model
import OomHero.Processes.Psi
import OomHero.Processes.Reader
import OomHero.Processes.RoundTrip
import OomHero.Foundations.Expression
import OomHero.Processes.Variables
import OomHero.Arguments
import OomHero.EventLogger
import OomHero.Daemons.Model
import OomHero.Daemons.SendSignal
import OomHero.Daemons.History
import OomHero.Daemons.Cooldown
import OomHero.Daemons.Pass
import OomHero.Daemons.Identity
import OomHero.Daemons.NonInterference
import OomHero.Daemons.Validation
import OomHero.EventLogger.Replay
import OomHero.EventLogger.Identity
import OomHero.Processes.Grammar
import OomHero.Foundations.Rounding
import OomHero.Metrics
import OomHero.Foundations.Window
import OomHero.Daemons.Gauges
import OomHero.Daemons.Retry
import OomHero.Daemons.Audit
import OomHero.Foundations.Channel
import OomHero.Foundations.Schedule
import OomHero.Threads
import OomHero.Processes.Footprint
import OomHero.Processes.Listing
import OomHero.Program
import OomHero.Daemons.Cadence
import OomHero.Metrics.Scrape
import OomHero.Processes.Collect
import OomHero.Daemons.Windows
import OomHero.Program.Unmeasured
import OomHero.Program.Log
import OomHero.Processes.Failures
import OomHero.Program.Sends
