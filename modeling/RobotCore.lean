import RobotCore.Authority.Equiv.Rejected
import RobotCore.Bridge.Equiv.Ack
import RobotCore.Bridge.Equiv.Freshness
import RobotCore.Bridge.Equiv.Imu
import RobotCore.Fusion.Equiv.AlignmentConsistency
import RobotCore.Fusion.Equiv.Batch
import RobotCore.Fusion.Equiv.Cluster
import RobotCore.Fusion.Equiv.Consistency
import RobotCore.Fusion.Equiv.Establish
import RobotCore.Fusion.Equiv.Filter
import RobotCore.HostManager.Equiv.FailedEdit
import RobotCore.HostManager.Equiv.Files
import RobotCore.Localizer.Equiv.TagQuality
import RobotCore.Localizer.Equiv.TagSupport
import RobotCore.Pid.Equiv.ImuFilter
import RobotCore.Pid.Equiv.RatePrediction
import RobotCore.Policy.Equiv.Damping
import RobotCore.Policy.Equiv.Inputs
import RobotCore.Policy.Equiv.IoWriter
import RobotCore.Protocol.Equiv.Crc
import RobotCore.Runtime.Equiv.CatalogKeys
import RobotCore.Runtime.Equiv.RunLogger
import RobotCore.Station.Equiv.Horizontal
import RobotCore.Station.Equiv.Vertical
import RobotCore.System.Equiv.BoardChain
import RobotCore.System.Equiv.MapEdits
import RobotCore.System.Equiv.MapIsolation
import RobotCore.System.Equiv.PidOffset
import RobotCore.System.Equiv.Readiness
import RobotCore.System.Equiv.Startability
import RobotCore.Telemetry.Equiv.Agreement
import RobotCore.Trajectory.Equiv.Bounds
import RobotCore.Trajectory.Equiv.Usable
