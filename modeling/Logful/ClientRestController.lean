import Logful.Properties
import Mathlib.Logic.Function.Basic

/-!
The three upload routes of `ClientRestController`, with `FileUtil.transferTo`.

A route either refuses an upload before it touches a file, or transfers it to its path, and
only then compares the checksum. The transfer may fail at each of its steps; a copy may stop
after any number of bytes.
-/

namespace Logful.ClientRestController

open Logful.BigEndian Logful.Documents Logful.Entity Logful.JavaText Logful.Properties
open Logful.StringUtil

/-! ### What the controller is given -/

/-- What the controller calls of other libraries: the extension of a file name, which has no
separator in it, lower case, and a digest in hexadecimal digits. -/
structure Library where
  getExtension : Option String → Option String
  getExtension_noSlash : ∀ s, ∀ e ∈ getExtension s, '/' ∉ e.toList
  toLowerCase : String → String
  md5Hex : String → String
  md5Hex_hex : ∀ s, ∀ ch ∈ (md5Hex s).toList, ch ∈ hexDigits
  /-- The digest of the bytes of a file. -/
  md5HexBytes : Bytes → String

structure Env extends Context where
  library : Library

def Env.tempDir (env : Env) : String := env.path ++ "/" ++ LOG_FILE_TEMP_DIR

def Env.weedDir (env : Env) : String := env.path ++ "/" ++ WEED_TEMP_DIR

def Env.errorDir (env : Env) (platform : ℤ) : String :=
  env.path ++ "/" ++ ERROR_DIR ++ "/" ++ platformDir platform

/-- The names drawn for an upload. -/
structure Draws where
  key : Uid
  filename : Uid

/-! ### FileUtil -/

/-- The directories that exist, and the files with their bytes. -/
structure Disk where
  dirs : String → Bool
  files : String → Option Bytes

def Disk.create (d : Disk) (path : String) (bytes : Bytes) : Disk :=
  { d with files := Function.update d.files path (some bytes) }

/-- Where a transfer fails, if it comes to that point. -/
inductive Fault
  | mkdirs
  | createNewFile
  | getInputStream
  | openTarget
  | copy (n : ℕ)
  | close
  deriving DecidableEq

/-- An uploaded file, and how its transfer fails if it does. -/
structure MultipartFile where
  originalFilename : Option String
  bytes : Bytes
  fault : Option Fault

/-- `transferTo`: the disk afterwards, and whether it threw. -/
def transferTo (file : MultipartFile) (dir target : String) (d : Disk) : Disk × Bool :=
  if d.dirs dir = false ∧ file.fault = some .mkdirs then (d, true)
  else
    let d := { d with dirs := Function.update d.dirs dir true }
    if d.files target = none ∧ file.fault = some .createNewFile then (d, true)
    else
      let d := if d.files target = none then d.create target [] else d
      match file.fault with
      | some .getInputStream => (d, true)
      | some .openTarget => (d, true)
      | some (.copy n) => (d.create target (file.bytes.take n), true)
      | some .close => (d.create target file.bytes, true)
      | _ => (d.create target file.bytes, false)

/-- `Checksum.fileMD5`, which is empty when the file cannot be read. -/
def fileMD5 (lib : Library) (readFails : Bool) (d : Disk) (path : String) : String :=
  match d.files path with
  | some bytes => if readFails then "" else lib.md5HexBytes bytes
  | none => ""

/-! ### The routes -/

/-- What a route ends with: the properties of a parse task, a record to be stored, or one of
the two exceptions. -/
inductive Answer
  | submit (p : LogFileProperties)
  | write (m : WeedFSMeta)
  | badRequest
  | internalServerError

def Answer.refused : Answer → Bool
  | .badRequest | .internalServerError => true
  | _ => false

/-- The rest of the circumstances of an upload: how full the queue of the route is, whether
the checksum can be read, and whether handing the record on throws. -/
structure Load where
  queueSize : ℤ
  capacity : ℤ
  readFails : Bool
  writeThrows : Bool

/-- `BaseRestController.queueCapacity`. -/
def queueCapacity (capacity : ℤ) : ℤ :=
  if capacity = 1 then capacity
  else
    let buffer := capacity.tdiv 32
    capacity - if buffer = 0 then 1 else buffer

/-- The `try` block of a route: the transfer, the checksum, and what follows when it is as it
should be. -/
def receive (env : Env) (file : MultipartFile) (dir target : String) (fileSum : Option String)
    (readFails throws : Bool) (accepted : Answer) (d : Disk) : Disk × Answer :=
  match transferTo file dir target d with
  | (d, true) => (d, .internalServerError)
  | (d, false) =>
    let sum := fileMD5 env.library readFails d target
    if fileSum.all fun s => !equalsIgnoreCase s sum then (d, .internalServerError)
    else if throws then (d, .internalServerError)
    else (d, accepted)

/-- A record is written only where the upload is accepted with it. -/
lemma receive_eq_write {env : Env} {file : MultipartFile} {dir target : String}
    {fileSum : Option String} {readFails throws : Bool} {accepted : Answer} {d : Disk}
    {m : WeedFSMeta}
    (h : (receive env file dir target fileSum readFails throws accepted d).2 = .write m) :
    accepted = .write m := by
  unfold receive at h
  split at h
  · cases h
  · simp only at h
    split_ifs at h
    exact h

def v1UploadLogFile (env : Env) (load : Load) (properties : Option LogFileProperties)
    (logFile : MultipartFile) (d : Disk) : Disk × Answer :=
  match properties with
  | none => (d, .badRequest)
  | some properties =>
    if load.queueSize < queueCapacity load.capacity then
      let filePath := env.tempDir ++ "/" ++ valueOf properties.filename
      receive env logFile env.tempDir filePath properties.fileSum load.readFails false
        (.submit properties) d
    else (d, .internalServerError)

/-- The path of a file that is stored as it is. -/
def storedPath (env : Env) (key : String) (extension : Option String) : String :=
  env.weedDir ++ "/" ++ (key ++ "." ++ valueOf extension)

def v1UploadCrashReport (env : Env) (load : Load) (key : Uid)
    (fileMeta : Entity ObjectId CrashFileMeta) (fileSum : Option String)
    (reportFile : MultipartFile) (d : Disk) : Disk × Answer :=
  if load.queueSize < load.capacity then
    let extension := env.library.getExtension reportFile.originalFilename
    if isEmpty extension then (d, .badRequest)
    else
      receive env reportFile env.weedDir (storedPath env key.val extension) fileSum
        load.readFails load.writeThrows
        (.write (.create (some key.val) extension (.crash fileMeta))) d
  else (d, .internalServerError)

def v1UploadAttachment (env : Env) (load : Load) (platform : ℤ) (uid appId : String)
    (fileSum : Option String) (attachmentId : String) (attachmentFile : MultipartFile)
    (d : Disk) : Disk × Answer :=
  if load.queueSize < load.capacity then
    let key := attachmentKey env.library.md5Hex env.library.toLowerCase platform uid appId
      attachmentId
    let extension := env.library.getExtension attachmentFile.originalFilename
    if isEmpty (some key) || isEmpty extension then (d, .badRequest)
    else
      receive env attachmentFile env.weedDir (storedPath env key extension) fileSum
        load.readFails load.writeThrows
        (.write (.create (some key) extension (.attachment (.create key)))) d
  else (d, .internalServerError)

/-! ### A concrete library -/

/-- The extension is what follows the last dot; the digests are those of `1-u-app-7` and of no
bytes. -/
def plainLibrary : Library where
  getExtension := fun s => s.map fun s =>
    .ofList (s.toList.reverse.takeWhile fun ch => ch ≠ '.' ∧ ch ≠ '/').reverse
  getExtension_noSlash := by
    intro s e he hs
    obtain ⟨s, -, rfl⟩ := Option.mem_map.mp he
    rw [String.toList_ofList, List.mem_reverse] at hs
    simpa using List.mem_takeWhile_imp hs
  toLowerCase := fun s => .ofList (s.toList.map Char.toLower)
  md5Hex := fun _ => "b9d32566d9604f8945aefce071bebd29"
  md5Hex_hex := fun _ => by simp [hexDigits]
  md5HexBytes := fun _ => "d41d8cd98f00b204e9800998ecf8427e"

def plainEnv : Env := ⟨⟨fun _ => some [], "/data", some "client"⟩, plainLibrary⟩

end Logful.ClientRestController
