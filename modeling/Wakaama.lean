import Wakaama.Coap.Proofs.BlockBuffers
import Wakaama.Coap.Proofs.BlockInterference
import Wakaama.Coap.Proofs.BlockReassembly
import Wakaama.Coap.Proofs.MessageSize
import Wakaama.Coap.Proofs.TransactionLife
import Wakaama.Core.Proofs.AttributeQuery
import Wakaama.Core.Proofs.Block1Sending
import Wakaama.Core.Proofs.BlockResponse
import Wakaama.Core.Proofs.BootstrapQuery
import Wakaama.Core.Proofs.BootstrapRefusal
import Wakaama.Core.Proofs.BootstrapTimeout
import Wakaama.Core.Proofs.ClientExpiry
import Wakaama.Core.Proofs.CompositeRead
import Wakaama.Core.Proofs.DeleteAll
import Wakaama.Core.Proofs.HandlePacket
import Wakaama.Core.Proofs.LinkPayload
import Wakaama.Core.Proofs.ListRun
import Wakaama.Core.Proofs.NextBlock
import Wakaama.Core.Proofs.NotifyNumeric
import Wakaama.Core.Proofs.NotifyOwn
import Wakaama.Core.Proofs.ObservationCancel
import Wakaama.Core.Proofs.ObserveRefusal
import Wakaama.Core.Proofs.ObservedDelete
import Wakaama.Core.Proofs.RegistrationQuery
import Wakaama.Core.Proofs.RegistrationRetry
import Wakaama.Core.Proofs.RegistrationTurns
import Wakaama.Core.Proofs.Registry
import Wakaama.Core.Proofs.ResultCallback
import Wakaama.Core.Proofs.ServerReferences
import Wakaama.Core.Proofs.StepDeadlines
import Wakaama.Core.Proofs.UriBuffer
import Wakaama.Core.Proofs.UriDecode
import Wakaama.Core.Proofs.WatcherCancel
import Wakaama.Data.Proofs.CborFloats
import Wakaama.Data.Proofs.CborItems
import Wakaama.Data.Proofs.JsonEscapes
import Wakaama.Data.Proofs.JsonObjects
import Wakaama.Data.Proofs.JsonTreeSound
import Wakaama.Data.Proofs.SenmlAgreement
import Wakaama.Data.Proofs.SenmlCborSafety
import Wakaama.Data.Proofs.SenmlSerialize
import Wakaama.Data.Proofs.SenmlSums
import Wakaama.Data.Proofs.SubtreeExtraction
import Wakaama.Data.Proofs.TextFormat
import Wakaama.Data.Proofs.TlvBuffer
import Wakaama.Data.Proofs.TlvLength
