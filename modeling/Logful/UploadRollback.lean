import Logful.ClientRestController

/-!
What a refused upload leaves behind.

A transfer only ever touches its target. Once it has created or opened the target it is not
taken back, neither when it fails nor when the checksum is not as it should be; so a refused
upload leaves the files alone exactly when it is refused before, or when its target held
already what the transfer left there.
-/

namespace Logful.UploadRollback

open Logful.BigEndian Logful.ClientRestController Logful.Documents Logful.Entity
open Logful.Properties Logful.StringUtil

/-- An upload with everything its route is given. -/
inductive Request
  | log (load : Load) (properties : Option LogFileProperties) (file : MultipartFile)
  | crash (load : Load) (key : Uid) (fileMeta : Entity ObjectId CrashFileMeta)
      (fileSum : Option String) (file : MultipartFile)
  | attachment (load : Load) (platform : ℤ) (uid appId : String) (fileSum : Option String)
      (attachmentId : String) (file : MultipartFile)

def serve (env : Env) : Request → Disk → Disk × Answer
  | .log load properties file => v1UploadLogFile env load properties file
  | .crash load key fileMeta fileSum file =>
    v1UploadCrashReport env load key fileMeta fileSum file
  | .attachment load platform uid appId fileSum attachmentId file =>
    v1UploadAttachment env load platform uid appId fileSum attachmentId file

/-! ### One transfer -/

/-- What a transfer leaves in its target, by what was there before. -/
def left (file : MultipartFile) (dirExists : Bool) (old : Option Bytes) : Option Bytes :=
  match file.fault with
  | some .mkdirs => if dirExists then some file.bytes else old
  | some .createNewFile => if old = none then old else some file.bytes
  | some .getInputStream => some (old.getD [])
  | some .openTarget => some (old.getD [])
  | some (.copy n) => some (file.bytes.take n)
  | some .close => some file.bytes
  | none => some file.bytes

/-- **A transfer touches only its target.** -/
theorem transferTo_files (file : MultipartFile) (dir target : String) (d : Disk) :
    (transferTo file dir target d).1.files =
      Function.update d.files target (left file (d.dirs dir) (d.files target)) := by
  unfold transferTo left
  by_cases hdir : d.dirs dir = false ∧ file.fault = some .mkdirs
  · rw [if_pos hdir, hdir.2]
    simp [hdir.1]
  rw [if_neg hdir]
  by_cases hnew : d.files target = none ∧ file.fault = some .createNewFile
  · simp only [hnew, and_self, if_true]
    rw [← hnew.1, Function.update_eq_self]
  · simp only [if_neg hnew]
    rcases hfault : file.fault with _ | fault
    · by_cases hold : d.files target = none <;> simp [Disk.create, hold]
    · cases fault with
      | mkdirs =>
        have hexists : d.dirs dir = true := by
          rw [← Bool.not_eq_false]
          exact fun h => hdir ⟨h, hfault⟩
        by_cases hold : d.files target = none <;> simp [Disk.create, hold, hexists]
      | createNewFile =>
        have hold : d.files target ≠ none := fun h => hnew ⟨h, hfault⟩
        simp [Disk.create, hold]
      | getInputStream =>
        by_cases hold : d.files target = none
        · simp [Disk.create, hold]
        · obtain ⟨old, hold⟩ := Option.ne_none_iff_exists'.mp hold
          simp [hold]
      | openTarget =>
        by_cases hold : d.files target = none
        · simp [Disk.create, hold]
        · obtain ⟨old, hold⟩ := Option.ne_none_iff_exists'.mp hold
          simp [hold]
      | copy n => by_cases hold : d.files target = none <;> simp [Disk.create, hold]
      | close => by_cases hold : d.files target = none <;> simp [Disk.create, hold]

/-- Neither the checksum nor what follows it changes the disk. -/
lemma receive_files (env : Env) (file : MultipartFile) (dir target : String)
    (fileSum : Option String) (readFails throws : Bool) (accepted : Answer) (d : Disk) :
    (receive env file dir target fileSum readFails throws accepted d).1.files =
      Function.update d.files target (left file (d.dirs dir) (d.files target)) := by
  rw [← transferTo_files file dir target d]
  unfold receive
  rcases transferTo file dir target d with ⟨d', _ | _⟩
  · simp only
    split_ifs <;> rfl
  · rfl

/-! ### A refused request -/

/-- A transfer that leaves its target as it was: it fails before it creates or opens the
target, or the target held the bytes it leaves there. -/
def Harmless (file : MultipartFile) (dirExists : Bool) (old : Option Bytes) : Prop :=
  match file.fault with
  | some .mkdirs => dirExists = false ∨ old = some file.bytes
  | some .createNewFile => old = none ∨ old = some file.bytes
  | some .getInputStream => old ≠ none
  | some .openTarget => old ≠ none
  | some (.copy n) => old = some (file.bytes.take n)
  | some .close => old = some file.bytes
  | none => old = some file.bytes

/-- The directory and the target of the transfer of a request, unless it is refused before. -/
def target (env : Env) : Request → Option (MultipartFile × String × String)
  | .log load properties file =>
    properties.bind fun p =>
      if load.queueSize < queueCapacity load.capacity then
        some (file, env.tempDir, env.tempDir ++ "/" ++ valueOf p.filename)
      else none
  | .crash load key _ _ file =>
    let extension := env.library.getExtension file.originalFilename
    if load.queueSize < load.capacity ∧ isEmpty extension = false then
      some (file, env.weedDir, storedPath env key.val extension)
    else none
  | .attachment load platform uid appId _ attachmentId file =>
    let key := attachmentKey env.library.md5Hex env.library.toLowerCase platform uid appId
      attachmentId
    let extension := env.library.getExtension file.originalFilename
    if load.queueSize < load.capacity ∧ (isEmpty (some key) || isEmpty extension) = false then
      some (file, env.weedDir, storedPath env key extension)
    else none

/-- The request is refused before its transfer, or its transfer leaves the target as it was. -/
def Untouched (env : Env) (r : Request) (d : Disk) : Prop :=
  ∀ t ∈ target env r, Harmless t.1 (d.dirs t.2.1) (d.files t.2.2)

/-- What a request does to the files: nothing, if it is refused before its transfer, and what
the transfer does to its target. -/
lemma serve_files (env : Env) (r : Request) (d : Disk) : (serve env r d).1.files =
    match target env r with
    | none => d.files
    | some t => Function.update d.files t.2.2 (left t.1 (d.dirs t.2.1) (d.files t.2.2)) := by
  cases r with
  | log load properties file =>
    cases properties with
    | none => rfl
    | some p =>
      by_cases hq : load.queueSize < queueCapacity load.capacity
      · simp [serve, v1UploadLogFile, target, hq, receive_files]
      · simp [serve, v1UploadLogFile, target, hq]
  | crash load key fileMeta fileSum file =>
    by_cases hq : load.queueSize < load.capacity
    · cases he : isEmpty (env.library.getExtension file.originalFilename) <;>
        simp [serve, v1UploadCrashReport, target, hq, he, receive_files]
    · simp [serve, v1UploadCrashReport, target, hq]
  | attachment load platform uid appId fileSum attachmentId file =>
    by_cases hq : load.queueSize < load.capacity
    · cases he : isEmpty (some (attachmentKey env.library.md5Hex env.library.toLowerCase platform
        uid appId attachmentId)) || isEmpty (env.library.getExtension file.originalFilename) <;>
        simp [serve, v1UploadAttachment, target, hq, he, receive_files]
    · simp [serve, v1UploadAttachment, target, hq]

lemma left_eq_iff (file : MultipartFile) (dirExists : Bool) (old : Option Bytes) :
    left file dirExists old = old ↔ Harmless file dirExists old := by
  unfold left Harmless
  rcases file.fault with _ | fault
  · exact eq_comm
  · cases fault with
    | mkdirs => cases dirExists <;> simp [eq_comm]
    | createNewFile => cases old <;> simp [eq_comm]
    | getInputStream => cases old <;> simp
    | openTarget => cases old <;> simp
    | copy n => exact eq_comm
    | close => exact eq_comm

/-- **When a refused upload leaves the files as they were**: exactly when it is refused before
its transfer, or when the transfer fails before it creates or opens the target, or when the
target held already the bytes that the transfer leaves there. -/
theorem refused_unchanged_iff (env : Env) (r : Request) (d : Disk)
    (_refused : (serve env r d).2.refused = true) :
    (serve env r d).1.files = d.files ↔ Untouched env r d := by
  rw [serve_files, Untouched]
  cases target env r with
  | none => simp
  | some t =>
    rw [Function.update_eq_self_iff, left_eq_iff]
    simp

def idle : Load := ⟨0, 10, false, false⟩

/-- An attachment without bytes, sent with the digest of another. -/
def mismatched (fault : Option Fault) : Request :=
  .attachment idle 1 "u" "app" (some "0") "7" ⟨some "a.jpg", [], fault⟩

/-- The path of its file. -/
def pendingPath : String := "/data/weed/b9d32566d9604f8945aefce071bebd29.jpg"

/-- An earlier attachment under the same key is waiting to be stored. -/
def waiting : Disk := ⟨fun _ => true, fun path => if path = pendingPath then some [1] else none⟩

/-- It is untouched when the transfer fails as its target is opened. -/
theorem refused_unchanged_openTarget :
    (serve plainEnv (mismatched (some .openTarget)) waiting).1.files = waiting.files :=
  (refused_unchanged_iff plainEnv (mismatched (some .openTarget)) waiting (by decide)).mpr
    (by
      intro t ht
      cases ht
      show waiting.files pendingPath ≠ none
      decide)

/-- A refused upload does not leave pending files as they were: one with a wrong checksum is
refused and has emptied the file of the attachment that was waiting. -/
theorem not_refused_unchanged :
    (serve plainEnv (mismatched none) waiting).2.refused = true ∧
      waiting.files pendingPath = some [1] ∧
      (serve plainEnv (mismatched none) waiting).1.files pendingPath = some [] ∧
      (serve plainEnv (mismatched none) waiting).1.files ≠ waiting.files := by
  refine ⟨by decide, by decide, by decide, fun h => ?_⟩
  exact absurd (congrFun h pendingPath) (by decide)

end Logful.UploadRollback
