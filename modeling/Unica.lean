import Unica.Receipt.Entitlement
import Unica.Projection.Restart
import Unica.Runtime.Pipeline
import Unica.Runtime.Barrier
import Unica.WorkControl.SingleFlight
import Unica.Daemon.ListenerRuns
import Unica.Link.Lifecycle
import Unica.Workspace.AllOrNothing
import Unica.Link.Stages
import Unica.Runtime.InlineRuns
import Unica.Receipt.FailStop
import Unica.View.StoreRuns
import Unica.Collection.Runs
import Unica.Receipt.Snapshot
import Unica.WorkControl.ProviderDeadline
import Unica.Runtime.ReplyCapture
import Unica.Receipt.BatchAdmission
import Unica.Receipt.Refinement.Expiry
import Unica.Address.Input
import Unica.Budget.Refusal
import Unica.Redaction.Matcher
import Unica.Bsl.Anchor
import Unica.Xml.LineEnding
import Unica.Workspace.PlannedPaths
import Unica.Workspace.Partition
import Unica.Xml.Escape
import Unica.Xdto.ValidationDiff
import Unica.Receipt.Preimage
import Unica.Templates.ColumnWidths
