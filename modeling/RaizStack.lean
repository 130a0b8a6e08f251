import RaizStack.Lts
import RaizStack.Fallible
import RaizStack.Keyed
import RaizStack.Keyset
import RaizStack.Scan
import RaizStack.Rent
import RaizStack.Register
import RaizStack.Commit
import RaizStack.Text
import RaizStack.Decimal
import RaizStack.MemRpc
import RaizStack.MemToken
import RaizStack.MemBackfill
import RaizStack.MemDb
import RaizStack.MemIngest
import RaizStack.MemScan
import RaizStack.MemCoverage
import RaizStack.MemReclamp
import RaizStack.MemFirstRun
import RaizStack.MemPosition
import RaizStack.MemApart
import RaizStack.MemEvents
import RaizStack.BigEndian
import RaizStack.Base64
import RaizStack.Base32
import RaizStack.Crc
import RaizStack.Reading
import RaizStack.StrKey
import RaizStack.ScVal
import RaizStack.ScValFuel
import RaizStack.ScValCodec
import RaizStack.GoalMeta
import RaizStack.GoalMetaInv
import RaizStack.CtWrapper
import RaizStack.ShimTotal
import RaizStack.ShimReplay
import RaizStack.ShimTold
import RaizStack.ShimSound
import RaizStack.ShimComplete
import RaizStack.VerifyGoalTotal
import RaizStack.Tasks
import RaizStack.EventSource
import RaizStack.EventsClient
import RaizStack.EventsWire
import RaizStack.EventsWalk
import RaizStack.GoalTimeline
import RaizStack.TimelineBlind
import RaizStack.TimelineLoad
import RaizStack.ShimEvents
import RaizStack.MetaVm
import RaizStack.MetaVmSource
import RaizStack.MetaVmJobs
import RaizStack.ProverBridge
import RaizStack.ProverBridgeInv
import RaizStack.GoalMetaRent
import RaizStack.TimelineExact
import RaizStack.EventsWhole
import RaizStack.ScValRaw
import RaizStack.ScValTotal
import RaizStack.ScValExact
import RaizStack.SignEnvelope
import RaizStack.MemEnds
import RaizStack.MemRecover
import RaizStack.VerifyReceipt
import RaizStack.WalletOp
import RaizStack.WalletOutcome
import RaizStack.WalletExits
import RaizStack.CrcPoly
import RaizStack.StrKeyInt
import RaizStack.Audit
import RaizStack.BaseUrl
import RaizStack.MemStart
import RaizStack.MemPage
import RaizStack.MemNoGap
import RaizStack.ShimFetch
import RaizStack.IndexVerifies
import RaizStack.FormUrl
import RaizStack.EventsUrl
import RaizStack.GoalMetaEvents
import RaizStack.GoalMetaTimeline
import RaizStack.ProverBridgeEnds
import RaizStack.MemRemembers
import RaizStack.SobreVmScreen
import RaizStack.EnvDeploy
import RaizStack.RpcWire
import RaizStack.MakeReceipt
import RaizStack.ProverGenerate
import RaizStack.ProverPage
import RaizStack.SobreVmAmount
