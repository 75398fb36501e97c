import UnfsClient.Lib.Bytes
import UnfsClient.Lib.RecordMarking
import UnfsClient.Lib.DoublyLinked
import UnfsClient.Lib.Encoding
import UnfsClient.HashTable
import UnfsClient.RpcState
import UnfsClient.Proofs.HashTableInvariant
import UnfsClient.Proofs.HashTableRefinement
import UnfsClient.RpcTransmit
import UnfsClient.RpcReceive
import UnfsClient.RpcCall
import UnfsClient.Proofs.Actions
import UnfsClient.Proofs.ParserSteps
import UnfsClient.Proofs.ParserBounds
import UnfsClient.Proofs.ParserRefinement
import UnfsClient.Proofs.RecordStream
import UnfsClient.Proofs.TransmitStream
import UnfsClient.Proofs.Registrations
import UnfsClient.Proofs.Dispatch
import UnfsClient.Proofs.NestedCalls
import UnfsClient.Proofs.Serving
import UnfsClient.Proofs.Accounting
import UnfsClient.Proofs.BlockingCall
import UnfsClient.Proofs.FailedCall
import UnfsClient.Proofs.ApiSteps
import UnfsClient.Proofs.RequestStream
import UnfsClient.Lib.Decoder
import UnfsClient.Lib.XdrProc
import UnfsClient.Nfs3Types
import UnfsClient.Nfs3Xdr
import UnfsClient.Nfs3Decode
import UnfsClient.Proofs.CodecRoundTrip
import UnfsClient.Proofs.PromptDelivery
import UnfsClient.Proofs.MemoryPressure
import UnfsClient.Proofs.RecordIsolation
import UnfsClient.Proofs.FragmentLedger
import UnfsClient.RpcReply
import UnfsClient.Nfs3Actor
import UnfsClient.Proofs.ReplyStatus
import UnfsClient.Proofs.AnsweredCalls
import UnfsClient.Proofs.LookupRequest
import UnfsClient.Proofs.WriteRecord
import UnfsClient.Lib.InPlace
import UnfsClient.Nfs3InPlace
import UnfsClient.Proofs.StaleMemory
import UnfsClient.Lib.Ring
import UnfsClient.RequestQueues
import UnfsClient.Proofs.RequestQueues
import UnfsClient.ActorMonitor
import UnfsClient.Proofs.ActorSupervision
import UnfsClient.Proofs.HashTableRuns
import UnfsClient.Lib.Allocation
import UnfsClient.Nfs3Free
import UnfsClient.Proofs.DecodeFree
import UnfsClient.Proofs.RefusedMessages
import UnfsClient.Proofs.EndToEnd
import UnfsClient.Nfs3Client
import UnfsClient.Proofs.RemoteProcedures
import UnfsClient.HashTableApi
import UnfsClient.Proofs.TableRefinement
import UnfsClient.Proofs.TableRuns
import UnfsClient.Lib.Recency
import UnfsClient.Proofs.BoundedBuckets
import UnfsClient.Proofs.TableIteration
import UnfsClient.Daemon
import UnfsClient.Proofs.DaemonReplies
import UnfsClient.Proofs.DaemonService
