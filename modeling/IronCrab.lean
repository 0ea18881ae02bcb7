import IronCrab.Lib.Machine
import IronCrab.Storage.Locks
import IronCrab.Storage.Buckets
import IronCrab.Storage.Conservation
import IronCrab.Storage.Refresh
import IronCrab.Storage.TokenRace
import IronCrab.Engine.TxConfirm
import IronCrab.Engine.Intent
import IronCrab.Engine.Context
import IronCrab.Engine.FillAccounting
import IronCrab.Engine.ProcessIntent
import IronCrab.Engine.Protocol
import IronCrab.Engine.Conformance
import IronCrab.Engine.System
import IronCrab.Engine.DailyLoss
import IronCrab.Engine.OpenPositions
import IronCrab.Storage.LockFrame
import IronCrab.Engine.NoLeak
import IronCrab.Engine.SendOnce
import IronCrab.Engine.SendUnderLocks
import IronCrab.Storage.StaleSnapshot
import IronCrab.Lib.Cover
import IronCrab.Lib.SortedMap
import IronCrab.Track.Ownership
import IronCrab.Track.PlanningSnapshot
import IronCrab.Lib.Recency
import IronCrab.Track.EvictionExact
import IronCrab.Track.Admission
import IronCrab.Track.AdmissionInvariant
import IronCrab.Track.AdmissionOps
import IronCrab.Track.AdmissionEviction
import IronCrab.Track.AdmissionShrink
import IronCrab.Track.AdmissionRefinement
import IronCrab.Track.AdmissionWiring
import IronCrab.Track.Converge
import IronCrab.Lib.Numeral
import IronCrab.Track.Snapshot
import IronCrab.Track.WorkerCommands
import IronCrab.Track.Pending
import IronCrab.Track.Worker
import IronCrab.Track.WorkerCounters
import IronCrab.Lib.Cargo
import IronCrab.Track.PendingStreams
import IronCrab.Track.WorkerDelivery
import IronCrab.Track.MdState
import IronCrab.Track.Replay
import IronCrab.PositionReplay
import IronCrab.PositionMirror
import IronCrab.Cache.PoolState
import IronCrab.Cache.LivePoolCache
import IronCrab.Lib.Latest
import IronCrab.Cache.Reorder
import IronCrab.Cache.VaultIndex
import IronCrab.Lib.Linearize
import IronCrab.Cache.Race
import IronCrab.Cache.Linearizable
import IronCrab.Cache.PoolCacheUpdate
import IronCrab.Cache.SideMaps
import IronCrab.Cache.PoolCacheSync
import IronCrab.Cache.StaleUpdate
import IronCrab.Cache.MintReserves
import IronCrab.Cache.RowSides
import IronCrab.Cache.Knowledge
import IronCrab.Storage.ResourceHandover
import IronCrab.Lib.Throttle
import IronCrab.Storage.Fairness
import IronCrab.PositionCompaction
import IronCrab.Arbitrage.PoolGraph
import IronCrab.Storage.QueuedJsonlWriter
import IronCrab.Lib.Lines
import IronCrab.Storage.JsonlWriter
import IronCrab.Arbitrage.MultiHopQueue
import IronCrab.Lib.Overwrite
import IronCrab.Track.CoalesceMerge
import IronCrab.PumpAmm.SellLayout
import IronCrab.Lib.Champion
import IronCrab.Lib.Fill
import IronCrab.Lib.Keyed
import IronCrab.Lib.Sift
import IronCrab.PumpAmm.SellObservation
import IronCrab.PumpAmm.SellBuilder
import IronCrab.PumpAmm.SellRoundTrip
import IronCrab.Solana.AddressLookupTable
import IronCrab.Solana.DexParser
import IronCrab.Solana.DexDispatch
import IronCrab.Execution.WsolManager
import IronCrab.Solana.TradeDirection
import IronCrab.Solana.OrcaQuote
import IronCrab.Solana.OrcaTickSearch
import IronCrab.Ipc.Records
import IronCrab.Ipc.FeePolicy
import IronCrab.Lib.Arith
import IronCrab.Lib.Bisect
import IronCrab.Lib.ConstantProduct
import IronCrab.Lib.Trim
import IronCrab.Lib.Packing
import IronCrab.Execution.BundleAuction
import IronCrab.Execution.QuoteCalculator
import IronCrab.Execution.PoolAddressBook
import IronCrab.Track.ArbTrackSplit
import IronCrab.Solana.MeteoraBinArrays
import IronCrab.Arbitrage.RoundTrip
import IronCrab.Arbitrage.TrackBundles
import IronCrab.Arbitrage.TrackSelection
import IronCrab.Sidefx.Burst
import IronCrab.Solana.WalletTracker
import IronCrab.Solana.KillSwitch
import IronCrab.Engine.ConfirmedFills
import IronCrab.Engine.PlanRetry
import IronCrab.Lib.Floating
import IronCrab.Lib.PriorityQueue
import IronCrab.Arbitrage.PoolRanker
import IronCrab.Arbitrage.CycleSearch
import IronCrab.Arbitrage.CycleFinder
import IronCrab.Lib.Octets
import IronCrab.Solana.TickArrayAccount
import IronCrab.Arbitrage.QuoteFeed
