import CgProxy.ToMathlib.LabeledRun
import CgProxy.Soundness.Interception
import CgProxy.Soundness.Encoding
import CgProxy.Soundness.Priority
import CgProxy.Soundness.Generation
import CgProxy.Soundness.AttachTruth
import CgProxy.Soundness.Answers
import CgProxy.Soundness.Survival
import CgProxy.Soundness.Framing
import CgProxy.Soundness.Loading
import CgProxy.Soundness.CatchUp
import CgProxy.Model.Execsnoop
import CgProxy.Soundness.ExecEvents
import CgProxy.Model.Lock
import CgProxy.Soundness.SingleInstance
import CgProxy.Soundness.Teardown
import CgProxy.Soundness.Interrupted
import CgProxy.Model.Signal
import CgProxy.Soundness.Shutdown
import CgProxy.Model.HandlePid
import CgProxy.Soundness.Override
import CgProxy.Soundness.Membership
import CgProxy.Soundness.Lengths
import CgProxy.Soundness.Validation
import CgProxy.Soundness.Restart
import CgProxy.Soundness.DisabledFamily
import CgProxy.Posix.Shell
import CgProxy.Posix.Paths
import CgProxy.Model.Commands
import CgProxy.Model.Wrapper
import CgProxy.Soundness.Injection
import CgProxy.Soundness.Wrapped
import CgProxy.Soundness.Canonical
import CgProxy.Soundness.NamedProcess
import CgProxy.Soundness.Installable
import CgProxy.Soundness.DnsFlag
import CgProxy.Posix.Lexical
import CgProxy.Soundness.Containment
import CgProxy.Soundness.OptionScan
import CgProxy.Model.Reader
import CgProxy.Soundness.CgroupFile
import CgProxy.Soundness.Pipes
import CgProxy.Model.Datapath
import CgProxy.Netfilter.Frames
import CgProxy.Soundness.Datapath
import CgProxy.Soundness.Reload
import CgProxy.Model.Notifier
import CgProxy.Soundness.Coverage
import CgProxy.Soundness.Descendants
import CgProxy.Soundness.ExecVariants
import CgProxy.Model.Request
import CgProxy.Soundness.Command
import CgProxy.Soundness.Reachable
