import WalletCore.Lib.StringMap
import WalletCore.Lib.Json
import WalletCore.Lib.Transition
import WalletCore.Lib.Mirror
import WalletCore.Lib.Chain
import WalletCore.Lib.Serial
import WalletCore.Lib.History
import WalletCore.Lib.Crash
import WalletCore.Lib.Staged
import WalletCore.Lib.KeyedUnion
import WalletCore.CloseRecords.Record
import WalletCore.CloseRecords.Codec
import WalletCore.CloseRecords.Store
import WalletCore.CloseRecords.Reconcile
import WalletCore.CloseRecords.PassRule
import WalletCore.CloseRecords.Monotone
import WalletCore.CloseRecords.Evidence
import WalletCore.CloseRecords.SpendTruth
import WalletCore.CloseRecords.Termination
import WalletCore.CloseRecords.SafetyNet
import WalletCore.CloseRecords.LocalMirror
import WalletCore.CloseRecords.Facts
import WalletCore.CloseRecords.MergeAlgebra
import WalletCore.CloseRecords.WireForm
import WalletCore.CloseRecords.SignalReplay
import WalletCore.CloseRecords.Untrusted
import WalletCore.CloseRecords.Bounded
import WalletCore.Vss.Server
import WalletCore.Vss.Manifest
import WalletCore.Vss.Store
import WalletCore.Vss.System
import WalletCore.Vss.Blocks
import WalletCore.Vss.Fence
import WalletCore.Vss.Durability
import WalletCore.Vss.ManifestSound
import WalletCore.Vss.SingleWriter
import WalletCore.Vss.WriteOrder
import WalletCore.CloseRecords.Sync
import WalletCore.History.Payment
import WalletCore.History.PaymentStore
import WalletCore.Restore.Plan
import WalletCore.Vss.Bootable
import WalletCore.Restore.Startup
import WalletCore.Restore.Evidence
import WalletCore.Restore.Explicit
import WalletCore.Restore.ManifestReadable
import WalletCore.Restore.Provenance
import WalletCore.Restore.Recovery
import WalletCore.Restore.CrashPrefix
import WalletCore.Restore.Completeness
import WalletCore.Restore.Newest
import WalletCore.Sweep.Store
import WalletCore.Restore.AppStores
import WalletCore.Restore.ForceClose
import WalletCore.Restore.Leakage
import WalletCore.Wallet.Bdk
import WalletCore.Wallet.Onchain
import WalletCore.Wallet.Durable
import WalletCore.Wallet.Watched
import WalletCore.Wallet.Send
import WalletCore.Wallet.Balance
import WalletCore.Sweep.Broadcast
import WalletCore.Broadcast.Pending
import WalletCore.Broadcast.Funding
import WalletCore.Sweep.Subsidy
import WalletCore.Sweep.Descriptor
import WalletCore.Sweep.Prune
import WalletCore.Sweep.Frozen
import WalletCore.Sweep.Engine
import WalletCore.Sweep.Pass
import WalletCore.Sweep.Deletion
import WalletCore.Sweep.Attribution
import WalletCore.Sweep.Tracking
import WalletCore.Sweep.Replay
import WalletCore.Wallet.SendGuards
import WalletCore.Wallet.Spending
import WalletCore.Events.Event
import WalletCore.Events.Queue
import WalletCore.History.Activity
import WalletCore.Payments.Send
import WalletCore.Payments.Dispatch
import WalletCore.Payments.Handlers
import WalletCore.Payments.Claims
import WalletCore.Payments.Outcomes
import WalletCore.Liquidity.Quote
import WalletCore.Liquidity.Accept
import WalletCore.Liquidity.Session
import WalletCore.Liquidity.Selection
import WalletCore.Liquidity.Floor
import WalletCore.Sweep.Words
import WalletCore.Sweep.Selection
import WalletCore.Sweep.Rescue
import WalletCore.Lib.Utf8
import WalletCore.Lib.Regex
import WalletCore.Lib.UriComponent
import WalletCore.Send.Text
import WalletCore.Send.Classify
import WalletCore.Send.Grammar
import WalletCore.Send.Escapes
import WalletCore.Send.Amounts
import WalletCore.Send.Returns
import WalletCore.Send.Letters
import WalletCore.Receive.Uri
import WalletCore.Receive.ReadBack
import WalletCore.Send.Lnurl
import WalletCore.Send.Agreed
import WalletCore.Lib.WebUrl
import WalletCore.Send.Callback
import WalletCore.Lib.SocketAddr
import WalletCore.Peers.Address
import WalletCore.Peers.Store
import WalletCore.Peers.Survival
import WalletCore.Lib.StableSort
import WalletCore.History.Feed
import WalletCore.Sweep.HexText
import WalletCore.Lib.Paging
import WalletCore.Vss.Listing
import WalletCore.Restore.NegativeEvidence
import WalletCore.Vss.Takeover
import WalletCore.Vss.WireRefines
import WalletCore.Restore.BackedUp
import WalletCore.Shell.Holder
import WalletCore.Shell.Lifecycle
import WalletCore.Shell.EventLoop
import WalletCore.Instance.Exclusive
import WalletCore.SendFlow.OnScreen
import WalletCore.Shell.SyncBanner
import WalletCore.ReceiveFlow.Truth
