import BpfRbacd.Policy.Bitmaps
import BpfRbacd.Policy.Default
import BpfRbacd.Daemon.Lookups
import BpfRbacd.Lsm.Refinement
import BpfRbacd.Lsm.Tightening
import BpfRbacd.Daemon.Descriptors
import BpfRbacd.Daemon.Requests
import BpfRbacd.Daemon.Responses
import BpfRbacd.Daemon.Session
import BpfRbacd.Namespace.Identity
import BpfRbacd.Namespace.Confinement
import BpfRbacd.Namespace.Mounts
import BpfRbacd.Namespace.MountData
import BpfRbacd.Namespace.Detection
import BpfRbacd.Cli
import BpfRbacd.Daemon.Groups
import BpfRbacd.Daemon.Serving
import BpfRbacd.Daemon.Accounting
import BpfRbacd.Daemon.Exhaustion
import BpfRbacd.Daemon.Connections
import BpfRbacd.Lsm.Access
import BpfRbacd.Lsm.Modes
import BpfRbacd.Namespace.Lifecycle
import BpfRbacd.Daemon.Faults
import BpfRbacd.Namespace.Reports
import BpfRbacd.Namespace.Concurrent
import BpfRbacd.Cli.Commands
import BpfRbacd.Lib.Delimited
import BpfRbacd.Protocol.Debug
