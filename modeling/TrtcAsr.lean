import TrtcAsr.Admission
import TrtcAsr.Credential
import TrtcAsr.Http
import TrtcAsr.Lib.Checks
import TrtcAsr.Lib.HttpHead
import TrtcAsr.Lib.Json
import TrtcAsr.Lib.JsonRecord
import TrtcAsr.Lib.JsonReread
import TrtcAsr.Lib.JsonText
import TrtcAsr.Lib.JsonUtf8
import TrtcAsr.Lib.Ledger
import TrtcAsr.Lib.Numeral
import TrtcAsr.Lib.Polling
import TrtcAsr.Lib.Product
import TrtcAsr.Lib.Progress
import TrtcAsr.Lib.Relational
import TrtcAsr.Lib.SortedMap
import TrtcAsr.Lib.Threads
import TrtcAsr.Lib.Transition
import TrtcAsr.Lib.UrlQuery
import TrtcAsr.Lib.Utf8
import TrtcAsr.Polling
import TrtcAsr.Serialization
import TrtcAsr.Speech.Callbacks
import TrtcAsr.Speech.Delivery
import TrtcAsr.Speech.Downlink
import TrtcAsr.Speech.Lifecycle
import TrtcAsr.Speech.Liveness
import TrtcAsr.Speech.Ownership
import TrtcAsr.Speech.ReadLoops
import TrtcAsr.Speech.Reports
import TrtcAsr.Speech.Response
import TrtcAsr.Speech.ResponseFormat
import TrtcAsr.Speech.Session
import TrtcAsr.Speech.SpeakerContext
import TrtcAsr.Speech.Stop
import TrtcAsr.Speech.Uplink
import TrtcAsr.Uploads
import TrtcAsr.UserSig.Canonical
import TrtcAsr.UserSig.Content
import TrtcAsr.UserSig.Digest
import TrtcAsr.UserSig.Reading
import TrtcAsr.V2.Convergence
import TrtcAsr.V2.EffectiveOptions
import TrtcAsr.V2.Enrollment
import TrtcAsr.V2.Handshake
import TrtcAsr.V2.Offline
import TrtcAsr.V2.Requests
import TrtcAsr.V2.Responses
import TrtcAsr.V2.SignatureParams
import TrtcAsr.V2.SpeechOptions
import TrtcAsr.V2.TaskFormat
import TrtcAsr.V2.WireFormat
import TrtcAsr.V3.AckWait
import TrtcAsr.V3.AudioUrls
import TrtcAsr.V3.CodeCheck
import TrtcAsr.V3.Convergence
import TrtcAsr.V3.Handshake
import TrtcAsr.V3.Offline
import TrtcAsr.V3.Requests
import TrtcAsr.V3.ResponseFormat
import TrtcAsr.V3.Setters
import TrtcAsr.V3.Sources
import TrtcAsr.V3.SpeechOptions
import TrtcAsr.V3.Start
import TrtcAsr.V3.WireFormat
import TrtcAsr.Ws.Acceptance
import TrtcAsr.Ws.Alignment
import TrtcAsr.Ws.Connect
import TrtcAsr.Ws.Delivery
import TrtcAsr.Ws.Dial
import TrtcAsr.Ws.Frame
import TrtcAsr.Ws.Pongs
import TrtcAsr.Ws.Read
import TrtcAsr.Ws.RoundTrip
import TrtcAsr.Ws.Send
import TrtcAsr.Ws.Sigpipe
import TrtcAsr.Ws.Transport
import TrtcAsr.Ws.Upgrade
import TrtcAsr.Ws.UrlGrammar
