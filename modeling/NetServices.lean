import NetServices.PRSMessageCodec
import NetServices.PortReservation
import NetServices.Machine
import NetServices.PRSLease
import NetServices.PRSServer
import NetServices.Numerals
import NetServices.SDDocuments
import NetServices.SDRequests
import NetServices.SDAgreement
import NetServices.SDRobustness
import NetServices.FTServer
import NetServices.FTConversation
import NetServices.FTClient
import NetServices.FTTransfer
import NetServices.FTSystem
import NetServices.SessionHistory
import NetServices.PRSExpiry
import NetServices.SDFraming
import NetServices.PRSAnswers
import NetServices.SDProtocolClient
import NetServices.SDRecovery
import NetServices.PRSReplies
import NetServices.PRSOutcomes
import NetServices.SDPaths
import NetServices.SessionExpiry
import NetServices.FTNames
import NetServices.PRSNames
import NetServices.PRSStart
import NetServices.PRSIncomplete
import NetServices.PRSEndpoint
import NetServices.PRSKeepAlive
import NetServices.SDContacts
import NetServices.PRSHistory
import NetServices.SDDisclosure
import NetServices.SDProcess
import NetServices.SDReadBack
import NetServices.SDFragments
import NetServices.SDBinding
import NetServices.FTCalls
import NetServices.SDFetch
import NetServices.SDDelivery
import NetServices.MVCBrowser
import NetServices.Browser
import NetServices.BrowserLookups
import NetServices.SDIsolation
import NetServices.PRSProgram
import NetServices.PRSRefinement
