import Logful.Documents
import Logful.StringUtil

/-!
The entities of the server: log messages, the metadata of stored files, and the records of
the write queue of the file store.

A string field may be null; an `alias` is a `userAlias` here. The dates on which records are
written are left out, since only the expiry of the database reads them.
-/

namespace Logful.Entity

open Logful.BigEndian Logful.Documents Logful.StringUtil

/-! ### LogMessage -/

inductive MessageStatus
  | STATE_NORMAL | STATE_SUCCESSFUL
  deriving DecidableEq

structure LogMessage where
  platform : Option String
  uid : Option String
  appId : Option String
  loggerName : Option String
  timestamp : ℤ
  tag : Option String
  message : Option String
  msgLayout : Option String
  level : ℤ
  status : MessageStatus
  userAlias : Option String
  attachment : Option String
  deriving DecidableEq

def LogMessage.create (platform : ℤ) (uid appId loggerName msgLayout : Option String) (level : ℤ)
    (timestamp : ℤ) (tag msg userAlias attachment : Option String) : LogMessage where
  platform := some (platformString platform)
  uid := uid
  appId := appId
  loggerName := loggerName
  msgLayout := msgLayout
  level := level
  timestamp := timestamp
  tag := tag
  message := msg
  status := .STATE_NORMAL
  userAlias := userAlias
  attachment := attachment

/-! ### Metadata of stored files -/

/-- A cast to a 16-bit integer. -/
def toShort (n : ℤ) : ℤ := Int.bmod n (2 ^ 16)

structure LogFileMeta where
  platform : ℤ
  clientId : Option String
  uid : Option String
  appId : Option String
  loggerName : Option String
  date : ℤ
  level : ℤ
  fragment : ℤ
  fid : Option String
  size : ℤ
  deriving DecidableEq

def LogFileMeta.create (platform : ℤ) (clientId uid appId loggerName : Option String) (date : ℤ)
    (level fragment : ℤ) : LogFileMeta :=
  ⟨platform, clientId, uid, appId, loggerName, date, level, fragment, none, 0⟩

structure AttachFileMeta where
  fid : Option String
  attachmentId : Option String
  size : ℤ
  deriving DecidableEq

def AttachFileMeta.create (attachmentId : String) : AttachFileMeta := ⟨none, some attachmentId, 0⟩

/-- A crash report. It is bound from the payload of the client with all its members, the id
among them. -/
structure CrashFileMeta where
  platform : ℤ
  clientId : Option String
  uid : Option String
  userAlias : Option String
  model : Option String
  imei : Option String
  macAddress : Option String
  osVersion : Option String
  appId : Option String
  version : ℤ
  versionString : Option String
  cause : Option String
  date : Option ℤ
  fid : Option String
  size : ℤ
  deriving DecidableEq

/-- The message about a stored crash report, which names the report by the id it was saved
under. Without a date there is none, but a `NullPointerException`. -/
def LogMessage.createCrash (id : Option String) (fileMeta : CrashFileMeta) : Option LogMessage :=
  fileMeta.date.map fun date =>
    .create fileMeta.platform fileMeta.uid fileMeta.appId (some "crash") none FATAL date
      (some "CRASH_FILE_ID") id fileMeta.userAlias none

/-! ### WeedFSMeta -/

/-- The metadata a file is stored with; it decides the type of the record. -/
inductive FileMeta
  | log (fileMeta : LogFileMeta)
  | attachment (fileMeta : AttachFileMeta)
  | crash (fileMeta : Entity ObjectId CrashFileMeta)
  deriving DecidableEq

inductive WeedStatus
  | STATE_NORMAL | STATE_DELETED | STATE_SUCCESSFUL
  deriving DecidableEq

/-- The members of a response, as `optString` and `optLong` give them. -/
structure ResponseObject where
  fid : Option String
  fileName : Option String
  size : Option ℤ
  fileUrl : Option String
  deriving DecidableEq

/-- A file that is to be stored, under the name `key.extension`; or a response, of which
nothing is known when it is no JSON object. -/
structure WeedFSMeta where
  key : Option String
  extension : Option String
  status : WeedStatus
  responseObject : Option ResponseObject
  fileMeta : Option FileMeta
  deriving DecidableEq

def WeedFSMeta.create (key extension : Option String) (fileMeta : FileMeta) : WeedFSMeta :=
  ⟨key, extension, .STATE_NORMAL, none, some fileMeta⟩

def WeedFSMeta.createResponse (response : Option ResponseObject) : WeedFSMeta :=
  ⟨none, none, .STATE_NORMAL, response, none⟩

def WeedFSMeta.filename (m : WeedFSMeta) : String :=
  valueOf m.key ++ "." ++ valueOf m.extension

end Logful.Entity
