import RayOnGolem.Lib.GuardedRun
import RayOnGolem.Lib.Dict
import RayOnGolem.Lib.Objects
import RayOnGolem.Lib.LockTable
import RayOnGolem.Lib.LockPositions
import RayOnGolem.Lib.LockOwners
import RayOnGolem.Lib.ProcessTable
import RayOnGolem.Lib.Streaks
import RayOnGolem.Lib.Polling
import RayOnGolem.Lib.Conveyor
import RayOnGolem.Lib.Masking
import RayOnGolem.Lib.WordScanner
import RayOnGolem.Lib.ShellQuote
import RayOnGolem.Lib.RemoteShell
import RayOnGolem.Lib.Upserts
import RayOnGolem.Lib.PathView
import RayOnGolem.Lib.PyHeap
import RayOnGolem.Lib.PyMerge
import RayOnGolem.Models
import RayOnGolem.DemandConfig
import RayOnGolem.ManagerStack
import RayOnGolem.ManagerStackCalls
import RayOnGolem.ManagerStackCreate
import RayOnGolem.ClusterNode
import RayOnGolem.NodeActivity
import RayOnGolem.SidecarMonitor
import RayOnGolem.SidecarMonitorEnd
import RayOnGolem.SidecarMonitorFailures
import RayOnGolem.PortTunnel
import RayOnGolem.PortTunnelLife
import RayOnGolem.Cluster
import RayOnGolem.ClusterStep
import RayOnGolem.ClusterCoverage
import RayOnGolem.ClusterTerminated
import RayOnGolem.ClusterStacks
import RayOnGolem.ClusterIdle
import RayOnGolem.ClusterSharing
import RayOnGolem.ClusterIds
import RayOnGolem.ClusterLife
import RayOnGolem.ClusterFinish
import RayOnGolem.ClusterUnstuck
import RayOnGolem.ClusterRetry
import RayOnGolem.ClusterNodeView
import RayOnGolem.ClusterNodeLifecycle
import RayOnGolem.RayService
import RayOnGolem.RayServiceStep
import RayOnGolem.RayServiceLocks
import RayOnGolem.RayServiceRegistry
import RayOnGolem.RayServiceLive
import RayOnGolem.RayServiceStop
import RayOnGolem.RayServiceStopEnd
import RayOnGolem.RayServiceTags
import RayOnGolem.RayServiceSshKey
import RayOnGolem.RayServiceOrder
import RayOnGolem.RayServiceProgress
import RayOnGolem.RayServiceIsolation
import RayOnGolem.Server
import RayOnGolem.ServerShutdown
import RayOnGolem.Yagna
import RayOnGolem.YagnaLife
import RayOnGolem.YagnaFunds
import RayOnGolem.LogRotation
import RayOnGolem.Ctl
import RayOnGolem.CtlProcess
import RayOnGolem.CtlCommands
import RayOnGolem.Reputation
import RayOnGolem.ReputationUpdate
import RayOnGolem.ReputationBlacklist
import RayOnGolem.NodeProvider
import RayOnGolem.NodeProviderCreate
import RayOnGolem.NodeProviderLog
import RayOnGolem.NodeProviderRunner
import RayOnGolem.SshCommand
import RayOnGolem.ConfigDefaults
import RayOnGolem.ConfigDefaultsNodeType
import RayOnGolem.ConfigDefaultsLoop
import RayOnGolem.ConfigDefaultsParameters
import RayOnGolem.ConfigDefaultsSsh
import RayOnGolem.ConfigDefaultsLayers
import RayOnGolem.ConfigDefaultsAgain
import RayOnGolem.NetworkStats
