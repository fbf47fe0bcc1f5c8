import TopologyPinning.Python.Unicode
import TopologyPinning.Python.Builtins
import TopologyPinning.Python.Time
import TopologyPinning.Topology.Snapshot
import TopologyPinning.Topology.Nodes
import TopologyPinning.Topology.Exceptions
import TopologyPinning.Topology.ListFormat
import TopologyPinning.Clusters.CacheOptimizer
import TopologyPinning.Clusters.Builder
import TopologyPinning.Clusters.ClosedForm
import TopologyPinning.Clusters.Laws
import TopologyPinning.Pinning.Generators
import TopologyPinning.Pinning.Laws
import TopologyPinning.Monitor.MonitorProcess
import TopologyPinning.Monitor.Statm
import TopologyPinning.Monitor.ConvertUnits
import TopologyPinning.Monitor.Main
import TopologyPinning.Pipeline.EndToEnd
import TopologyPinning.Pipeline.Main
import TopologyPinning.Pipeline.ClusterFile
