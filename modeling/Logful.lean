import Logful.Runs
import Logful.BigEndian
import Logful.Outcome
import Logful.Documents
import Logful.Settings
import Logful.Upserts
import Logful.SignedWords
import Logful.TreeWalk
import Logful.Reassembly
import Logful.Delimited
import Logful.JsonText
import Logful.JavaText
import Logful.Paths
import Logful.StringUtil
import Logful.CryptoTool
import Logful.Entity
import Logful.LogFileParser
import Logful.ParserReads
import Logful.WireFormat
import Logful.ParserReport
import Logful.ParserFrames
import Logful.ParserMonotone
import Logful.ParserSkips
import Logful.Properties
import Logful.ClientRestController
import Logful.AdmissionControl
import Logful.UploadPaths
import Logful.UploadRollback
import Logful.LogFileParseTask
import Logful.GlobalReference
import Logful.GraylogClientService
import Logful.GraylogRetry
import Logful.GelfMessageChunkEncoder
import Logful.GelfMessageJsonEncoder
import Logful.GelfUdpTransport
import Logful.GelfTransport
import Logful.GelfConnection
import Logful.GelfDelivery
import Logful.GelfStream
import Logful.LayoutColumns
import Logful.ColumnFields
import Logful.LayoutMap
import Logful.GraylogIsolation
import Logful.GlobalConfigRepository
import Logful.GlobalConfigInterleaving
import Logful.ControlProfileRepository
import Logful.OAuth2TokenStore
import Logful.SimpleClientDetailService
import Logful.ApplicationKeyPairManager
import Logful.SignedUploads
import Logful.WeedFSClientService
import Logful.WeedFSSteps
import Logful.WeedFSObjects
import Logful.WeedFSWriteThread
import Logful.ResponseAtomicity
import Logful.ResponseOrder
import Logful.WeedFSInvariant
import Logful.WeedFSCustody
import Logful.WeedFSRetry
import Logful.WeedFSOutstanding
import Logful.WeedFSLifeLine
import Logful.WeedFSWriteOrder
import Logful.WeedFSClearMemory
import Logful.AttachmentUploads
import Logful.AttachmentKeys
import Logful.CrashReports
import Logful.ClientUserReport
import Logful.UserRestController
import Logful.SystemRestController
import Logful.Retention
import Logful.FileSweep
import Logful.DateTimeUtil
import Logful.BaseRestController
import Logful.AppRestController
