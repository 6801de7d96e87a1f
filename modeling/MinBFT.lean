import MinBFT.System.Reach
import MinBFT.System.Threads
import MinBFT.System.RWLock
import MinBFT.System.KeyedFold
import MinBFT.Bytes.Endian
import MinBFT.Bytes.Layout
import MinBFT.Messages.Protobuf
import MinBFT.Messages.Wire
import MinBFT.Usig.UI
import MinBFT.Usig.Sgx
import MinBFT.Usig.Ecalls
import MinBFT.Usig.Convert
import MinBFT.Core.ClientState
import MinBFT.Core.PeerState
import MinBFT.Core.RequestSeq
import MinBFT.Core.Commit
import MinBFT.Core.CommitOrder
import MinBFT.Core.CounterRun
import MinBFT.Core.Timeout
import MinBFT.Core.ViewState
import MinBFT.Core.Validate
import MinBFT.Core.Replica
import MinBFT.Core.Generated
import MinBFT.System.Goroutines
import MinBFT.Core.Replies
import MinBFT.Core.Handler
import MinBFT.Core.Panics
import MinBFT.Core.ReplicaSpec
import MinBFT.Core.SeqInvariant
import MinBFT.Core.SeqStep
import MinBFT.Core.Execution
import MinBFT.Core.SeqOrder
import MinBFT.Core.Validity
import MinBFT.Core.MessageLog
import MinBFT.System.SeqFilter
import MinBFT.Core.QuorumOrder
import MinBFT.Core.PrimaryLog
import MinBFT.Core.ExecOrder
import MinBFT.Core.Agreement
import MinBFT.Client.RequestBuffer
import MinBFT.Client.Request
import MinBFT.Client.RequestStream
import MinBFT.Client.Integrity
import MinBFT.Sample.Authentication
import MinBFT.Sample.Ledger
import MinBFT.Sample.KeyStore
import MinBFT.Sample.Setup
import MinBFT.Sample.KeyGen
