import ControlPlane.Lib.Loop
import ControlPlane.Lib.Record
import ControlPlane.Lib.Simulation
import ControlPlane.Core.Common
import ControlPlane.Budget.Phase
import ControlPlane.Budget.Engine
import ControlPlane.Budget.Termination
import ControlPlane.Budget.Safety
import ControlPlane.Job.Item
import ControlPlane.Job.Provider
import ControlPlane.Job.Lifecycle
import ControlPlane.PrivateKey.Utils
import ControlPlane.PrivateKey.Provider
import ControlPlane.PrivateKey.Completion
import ControlPlane.Proxy.Socks5
import ControlPlane.Proxy.Handshake
import ControlPlane.Proxy.Buffer
import ControlPlane.Proxy.BufferLayout
import ControlPlane.Proxy.BufferStepper
import ControlPlane.Proxy.BufferDrain
import ControlPlane.Proxy.BufferQueue
import ControlPlane.Curl.Wrapper
import ControlPlane.Lib.Chunk
import ControlPlane.Blob.Stream
import ControlPlane.Lib.Lru
import ControlPlane.Core.LruCache
import ControlPlane.Roma.Dispatch
import ControlPlane.Lib.Retry
import ControlPlane.Core.OperationDispatcher
import ControlPlane.Core.AutoExpiryMap
import ControlPlane.ProcessLauncher.Daemonizer
import ControlPlane.Lib.Memory
import ControlPlane.Core.Serialization
import ControlPlane.Roma.WasmDeserializer
import ControlPlane.Roma.WasmSerializer
import ControlPlane.Roma.WasmArguments
import ControlPlane.Lib.XorShare
import ControlPlane.PrivateKey.KeySplit
import ControlPlane.PrivateKey.Fetcher
import ControlPlane.AuthToken.Gcp
import ControlPlane.Lib.Gather
import ControlPlane.Roma.Batch
import ControlPlane.Core.Uuid
import ControlPlane.Cpio.AggregateMetric
import ControlPlane.Blob.S3RangedStream
import ControlPlane.Lib.KeyedOrder
import ControlPlane.Http.AwsV4Signer
import ControlPlane.Roma.WorkerSandboxApi
import ControlPlane.Lib.Ledger
import ControlPlane.Http.HttpConnection
import ControlPlane.Lib.RoundRobin
import ControlPlane.Http.HttpConnectionPool
import ControlPlane.Job.Queue
