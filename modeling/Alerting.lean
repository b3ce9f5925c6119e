import Alerting.Main
import Alerting.Installation.Script
import Alerting.Daemon.Folder
import Alerting.Proofs.RulesFile
import Alerting.Proofs.Tracker.Window
import Alerting.Proofs.Tracker.Veto
import Alerting.Proofs.Engine.Verdicts
import Alerting.Proofs.Course
import Alerting.Proofs.Engine.Handling
import Alerting.Proofs.Bus.Accounts
import Alerting.Proofs.Engine.Service
import Alerting.Proofs.Engine.Evidence
import Alerting.Proofs.Engine.Ledger
import Alerting.Proofs.Engine.TestFire
import Alerting.Proofs.Store.Calls
import Alerting.Proofs.Tracker.Age
import Alerting.Proofs.Tracker.Calls
import Alerting.Proofs.Store.Import
import Alerting.Proofs.SettingsFile
import Alerting.Proofs.Engine.Retention
import Alerting.Proofs.Engine.Windows
import Alerting.Proofs.Template.Division
import Alerting.Proofs.Template.Rendering
import Alerting.Proofs.Dispatch
import Alerting.Proofs.Engine.Remaining
import Alerting.Proofs.Engine.Refresh
import Alerting.Proofs.LetterCase
import Alerting.Proofs.Operators
import Alerting.Proofs.Store.History
import Alerting.Proofs.Engine.Snapshots
import Alerting.Proofs.Admission
import Alerting.Proofs.Store.Resumption
import Alerting.Proofs.StartUp
import Alerting.Proofs.RuleFields
import Alerting.Proofs.Engine.Limits
import Alerting.Proofs.Poller.Schedule
