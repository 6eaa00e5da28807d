import Logful.ClientRestController
import Logful.ResponseAtomicity
import Logful.Settings
import Logful.WeedFSObjects

/-!
A crash report, from `uploadCrashReport` to the document it is saved in.

The metadata is bound from the payload with all of its members, and only the client is set behind
that. It goes through the queue and waits in the map until the response to its file is handled;
what has the key of the report is the same metadata all that time. Nothing is saved when it has
not come to the map by then.
-/

namespace Logful.CrashReports

open Logful.ClientRestController Logful.Documents Logful.Entity Logful.Paths Logful.Properties
open Logful.ResponseAtomicity Logful.Runs Logful.Settings Logful.WeedFSObjects Logful.WeedFSSteps
open Logful.WeedFSClientService hiding Disk Fault

/-! ### Binding the metadata -/

/-- A member of the metadata, as the setter that is called for it. -/
inductive Setting
  | id (s : Option ObjectId)
  | platform (n : ℤ)
  | clientId (s : Option String)
  | uid (s : Option String)
  | userAlias (s : Option String)
  | model (s : Option String)
  | imei (s : Option String)
  | macAddress (s : Option String)
  | osVersion (s : Option String)
  | appId (s : Option String)
  | version (n : ℤ)
  | versionString (s : Option String)
  | cause (s : Option String)
  | date (d : Option ℤ)
  | fid (s : Option String)
  | size (n : ℤ)
  deriving DecidableEq

/-- The constructor. -/
def newFileMeta : Entity ObjectId CrashFileMeta where
  id := none
  body :=
    { platform := 0
      clientId := none
      uid := none
      userAlias := none
      model := none
      imei := none
      macAddress := none
      osVersion := none
      appId := none
      version := 0
      versionString := none
      cause := none
      date := none
      fid := none
      size := 0 }

/-- The setter. -/
def set (m : Entity ObjectId CrashFileMeta) : Setting → Entity ObjectId CrashFileMeta
  | .id s => { m with id := s }
  | .platform n => { m with body.platform := n }
  | .clientId s => { m with body.clientId := s }
  | .uid s => { m with body.uid := s }
  | .userAlias s => { m with body.userAlias := s }
  | .model s => { m with body.model := s }
  | .imei s => { m with body.imei := s }
  | .macAddress s => { m with body.macAddress := s }
  | .osVersion s => { m with body.osVersion := s }
  | .appId s => { m with body.appId := s }
  | .version n => { m with body.version := n }
  | .versionString s => { m with body.versionString := s }
  | .cause s => { m with body.cause := s }
  | .date d => { m with body.date := d }
  | .fid s => { m with body.fid := s }
  | .size n => { m with body.size := n }

/-- `mapper.readValue`, for members that can be bound. -/
def readValue (settings : List Setting) : Entity ObjectId CrashFileMeta :=
  settings.foldl set newFileMeta

def idSetting : Setting → Option (Option ObjectId)
  | .id s => some s
  | _ => none

/-- The id that a payload asks for, of its last member of this name. -/
def idOf (settings : List Setting) : Option ObjectId := lastOf idSetting none settings

/-- The document goes by the id of the payload. -/
lemma readValue_id (settings : List Setting) : (readValue settings).id = idOf settings := by
  have hset : ∀ m x, (set m x).id = (idSetting x).getD m.id := by
    intro m x
    cases x <;> rfl
  exact foldl_eq_lastOf hset newFileMeta settings

/-! ### ClientRestController.uploadCrashReport -/

/-- The members of the payload that are read. What Jackson does with `meta` is the list of the
setters it calls, unless it cannot bind it. -/
structure Payload where
  sdkVersion : Option String
  fileSum : Option String
  fileMeta : Option (Option (List Setting))
  deriving DecidableEq

/-- `uploadCrashReport`, with the key it draws. A member that is missing is an exception of its
own; behind that, whatever is thrown becomes a `BadRequestException`. Every version is the first
one. -/
def uploadCrashReport (env : Env) (load : Load) (key : Uid) (payload : Payload)
    (reportFile : MultipartFile) (d : Disk) : Disk × Answer :=
  match payload.sdkVersion, payload.fileSum, payload.fileMeta with
  | some _, some fileSum, some fileMeta =>
    match fileMeta with
    | none => (d, .badRequest)
    | some settings =>
      let fileMeta := readValue settings
      let fileMeta := { fileMeta with body.clientId := env.clientId }
      let (d, answer) := v1UploadCrashReport env load key fileMeta (some fileSum) reportFile d
      (d, if answer.refused then .badRequest else answer)
  | _, _, _ => (d, .internalServerError)

/-- The metadata of an accepted report: that of the payload, with the client that is logged in. -/
def fileMetaOf (env : Env) (settings : List Setting) : Entity ObjectId CrashFileMeta :=
  { readValue settings with body.clientId := env.clientId }

/-- An accepted report is written under the drawn key, with what the payload says. -/
lemma uploadCrashReport_accepted {env : Env} {load : Load} {key : Uid} {payload : Payload}
    {reportFile : MultipartFile} {d : Disk} {m : WeedFSMeta}
    (h : (uploadCrashReport env load key payload reportFile d).2 = .write m) :
    ∃ settings extension, payload.fileMeta = some (some settings) ∧
      env.library.getExtension reportFile.originalFilename = some extension ∧
      m = .create (some key.val) (some extension) (.crash (fileMetaOf env settings)) := by
  obtain ⟨sdkVersion, fileSum, fileMeta⟩ := payload
  unfold uploadCrashReport at h
  cases sdkVersion with
  | none => cases h
  | some sdkVersion =>
    cases fileSum with
    | none => cases h
    | some fileSum =>
      cases fileMeta with
      | none => cases h
      | some fileMeta =>
        cases fileMeta with
        | none => cases h
        | some settings =>
          simp only at h
          split_ifs at h
          unfold v1UploadCrashReport at h
          split_ifs at h with hroom
          · simp only at h
            split_ifs at h with hempty
            cases hextension : env.library.getExtension reportFile.originalFilename with
            | none => simp [hextension, StringUtil.isEmpty] at hempty
            | some extension =>
              have hwrite := receive_eq_write h
              cases hwrite
              rw [hextension]
              exact ⟨settings, extension, rfl, rfl, rfl⟩

/-! ### What goes by the key of the report -/

/-- `P` holds of the record that the map has under the key, and of every other one with the key:
as an object of the service, or in the database. The responses that are to be handled have no
id. -/
structure Under (key : String) (P : WeedFSMeta → Prop) (s : State) : Prop where
  mapped : ∀ e ∈ s.weedMetaMap key, P e.body
  objects : ∀ e, Object s e → e.body.key = some key → P e.body
  records : ∀ d ∈ s.queueRepository.docs, d.body.key = some key → P d.body
  responses : ∀ e ∈ s.readQueue, e.id = none

/-- The event writes no other record under the key of the report, and handles no response to the
file of the report. -/
def Leaves (m : WeedFSMeta) (s : State) : Event → Prop
  | .write n => n.key = m.key → n = m
  | .on i (.reader _) => ∀ c ∈ s.connections[i]?, Takes s c → ∀ response ∈ s.readQueue.head?,
      ∀ filename, Reports response.body.responseObject filename →
        some (getBaseName filename) ≠ m.key
  | _ => True

/-- **Every step keeps the metadata of the report with its key.** -/
lemma under_step {m : WeedFSMeta} {key : String} {s t : State} {capacity : ℕ} {e : Event}
    (hkey : m.key = some key) (hs : Under key (·.fileMeta = m.fileMeta) s) (he : Leaves m s e)
    (h : step capacity s e = some t) : Under key (·.fileMeta = m.fileMeta) t := by
  have hids := hs.responses
  constructor
  case responses => exact ids_step hids h
  case objects =>
    intro x hx hxkey
    rcases object_step hids h hx with hx | ⟨n, rfl, rfl⟩ | ⟨doc, hdoc, -, rfl, -⟩
    · exact hs.objects x hx hxkey
    · rw [he (hxkey.trans hkey.symm)]
    · exact hs.records doc hdoc hxkey
  case records =>
    have hstores := stores_step hids h
    generalize t.queueRepository = records at hstores
    intro d hd hdkey
    cases hstores with
    | same => exact hs.records d hd hdkey
    | saved x hx =>
      rcases Collection.mem_save.mp hd with rfl | ⟨hd, -⟩
      · exact hs.objects x hx hdkey
      · exact hs.records d hd hdkey
    | deleted x hx =>
      -- the status is another one, and the metadata the same
      rcases Collection.mem_save.mp hd with rfl | ⟨hd, -⟩
      · exact hs.objects x hx hdkey
      · exact hs.records d hd hdkey
  case mapped =>
    intro entry hentry
    cases touches_step h with
    | leaves hmap => exact hs.mapped entry (hmap ▸ hentry)
    | caller hi hmove =>
      cases hmove with
      | mapped x list k hk =>
        by_cases heq : key = k
        · subst heq
          simp only [Function.update_self, Option.mem_some_iff] at hentry
          subst hentry
          exact hs.objects x (.called _ (List.mem_of_getElem? hi) List.mem_cons_self) hk
        · simp only [Function.update_of_ne heq] at hentry
          exact hs.mapped entry hentry
      | looked | found | begun | decided | queued | keyless | deleted | saved | unsaved =>
        exact hs.mapped entry hentry
    | handled fault response queue l hi htakes hqueue =>
      have hid := hids response (by rw [hqueue]; exact List.mem_cons_self)
      have hother : ∀ filename, Reports response.body.responseObject filename →
          getBaseName filename ≠ key := fun filename hrep heq =>
        he _ hi htakes response (by rw [hqueue]; rfl) filename hrep (by rw [heq, hkey])
      have hsame := weedMetaMap_handle fault hid hother { s with readQueue := queue }
      exact hs.mapped entry (hsame ▸ hentry)

/-- At the start only the records of an earlier process are there. -/
lemma under_start {key : String} {P : WeedFSMeta → Prop} {records : Collection ObjectId WeedFSMeta}
    {repositories : Repositories} {disk : WeedFSClientService.Disk}
    (hnew : ∀ d ∈ records.docs, d.body.key ≠ some key) :
    Under key P (start records repositories disk) := by
  refine ⟨by simp [start], ?_, fun d hd hkey => absurd hkey (hnew d hd), by simp [start]⟩
  rintro e (h | ⟨_, h, _⟩ | ⟨_, h, _⟩) <;> cases h

/-! ### What the upload leaves in the collection -/

/-- Of a crash report in the map, the document is what its metadata says, with the fid and the
size, unless its save throws; whether or not a notice of it can be built and sent. -/
lemma crashes_handle {fault : Option WeedFSClientService.Fault} {r : Stored} {s : State}
    {entry : Item} {report : Entity ObjectId CrashFileMeta}
    (hentry : s.weedMetaMap r.key = some entry)
    (hmeta : entry.body.fileMeta = some (.crash report)) :
    (handle fault r.response s).repositories.crashes =
      if fault = some .save then s.repositories.crashes
      else s.repositories.crashes.save
        { report with body := { report.body with fid := some r.fid, size := r.size } } := by
  have hmove := handled_of_handle fault rfl r.object s
  have hsame : ∀ entry' f, s.weedMetaMap r.key = some entry' → entry'.body.fileMeta = some f →
      f = .crash report := by
    intro entry' f hentry' hf
    rw [hentry, Option.some_inj] at hentry'
    rw [← hentry', hmeta, Option.some_inj] at hf
    exact hf.symm
  generalize handle fault r.response s = t at hmove ⊢
  cases hmove with
  | absent hnone =>
    have hnone : s.weedMetaMap r.key = none := hnone
    rw [hentry] at hnone
    cases hnone
  | empty entry' hentry' hnone =>
    have hentry' : s.weedMetaMap r.key = some entry' := hentry'
    rw [hentry, Option.some_inj] at hentry'
    rw [← hentry', hmeta] at hnone
    cases hnone
  | unsaved entry' f hentry' hf hfault => rw [if_pos hfault]
  | stopped entry' f withId hentry' hf hfault =>
    rw [if_neg hfault, hsame entry' f hentry' hf]
    rfl
  | ended entry' f notices hentry' hf hfault =>
    rw [if_neg hfault, hsame entry' f hentry' hf]
    rfl

/-- Without an entry nothing is saved. -/
lemma repositories_handle_absent {fault : Option WeedFSClientService.Fault} {r : Stored} {s : State}
    (hentry : s.weedMetaMap r.key = none) :
    (handle fault r.response s).repositories = s.repositories := by
  rw [handle_absent hentry]

/-- The reader of a connection takes a response to the file from its queue. -/
structure TakesResponse (t : State) (i : ℕ) (r : Stored) : Prop where
  takes : ∃ c, t.connections[i]? = some c ∧ Takes t c
  head : t.readQueue.head? = some r.response

lemma repositories_of_takes {t u : State} {i capacity : ℕ}
    {fault : Option WeedFSClientService.Fault} {r : Stored} (ht : TakesResponse t i r)
    (h : step capacity t (.on i (.reader fault)) = some u) :
    ∃ queue, u.repositories =
      (handle fault r.response { t with readQueue := queue }).repositories := by
  obtain ⟨c, v, c', hi, hact, rfl⟩ := on_eq h
  obtain ⟨⟨d, hd, htakes⟩, hhead⟩ := ht
  rw [hi] at hd
  cases hd
  cases readerMove_of_step hact with
  | moved hnot => exact absurd htakes hnot
  | handled _ response queue hqueue =>
    rw [hqueue, List.head?_cons, Option.some_inj] at hhead
    subst hhead
    exact ⟨queue, rfl⟩

section Course

variable {env : Env} {load : Load} {key : Uid} {payload : Payload} {reportFile : MultipartFile}
  {d : ClientRestController.Disk} {m : WeedFSMeta} {settings : List Setting}
  {records : Collection ObjectId WeedFSMeta} {repositories : Repositories}
  {disk : WeedFSClientService.Disk} {events : List Event} {t u : State} {i capacity : ℕ}
  {fault : Option WeedFSClientService.Fault} {r : Stored}

/-- What comes of an accepted report in the end: its document, if it is in the map and is saved. -/
lemma crashes_of_course
    (hext : ∀ e ∈ env.library.getExtension reportFile.originalFilename, ∀ ch ∈ e.toList,
      isSeparator ch = false ∧ ch ≠ '.')
    (haccepted : (uploadCrashReport env load key payload reportFile d).2 = .write m)
    (hpayload : payload.fileMeta = some (some settings))
    (hnew : ∀ d ∈ records.docs, d.body.key ≠ m.key)
    (hl : EachStep (step capacity) (Leaves m) (start records repositories disk) events)
    (hrun : run (step capacity) (start records repositories disk) events = some t)
    (hr : r.filename = m.filename) (ht : TakesResponse t i r)
    (hu : step capacity t (.on i (.reader fault)) = some u) :
    u.repositories.crashes =
      if (t.weedMetaMap key.val).isSome ∧ fault ≠ some .save then t.repositories.crashes.save
        { fileMetaOf env settings with
          body := { (fileMetaOf env settings).body with fid := some r.fid, size := r.size } }
      else t.repositories.crashes := by
  obtain ⟨settings', extension, hsettings, hextension, rfl⟩ := uploadCrashReport_accepted haccepted
  rw [hpayload, Option.some_inj, Option.some_inj] at hsettings
  subst hsettings
  have hbase : r.key = key.val := by
    have hhex : ∀ ch ∈ key.val.toList, isSeparator ch = false :=
      fun ch hch => (hexDigits_plain (key.hex ch hch)).1
    rw [Stored.key, hr]
    exact getBaseName_join hhex (hext extension hextension)
  have hunder := run_invariant_of_eachStep (I := Under key.val _)
    (fun s e v he hs hv => under_step rfl hs he hv) hl (under_start hnew) hrun
  obtain ⟨queue, hrepositories⟩ := repositories_of_takes ht hu
  rw [hrepositories]
  cases hentry : t.weedMetaMap key.val with
  | none =>
    have hentry' : ({ t with readQueue := queue } : State).weedMetaMap r.key = none := by
      rw [hbase]
      exact hentry
    rw [repositories_handle_absent hentry', if_neg (by simp)]
  | some entry =>
    have hentry' : ({ t with readQueue := queue } : State).weedMetaMap r.key = some entry := by
      rw [hbase]
      exact hentry
    rw [crashes_handle hentry' (hunder.mapped entry hentry)]
    by_cases hfault : fault = some .save
    · rw [if_pos hfault, if_neg (fun h => h.2 hfault)]
    · rw [if_neg hfault, if_pos ⟨rfl, hfault⟩]

end Course

/-- **When a crash upload only adds.** A report is accepted; the service runs on from any
collections and files, with no other record under the drawn key and no response to the file; and
the response to its file is the next that a reader takes. What this leaves in the collection is
every report from before and one more, of the client that was logged in, exactly when the report
is in the map by then and its save does not throw, and the payload has no id, or one that no
report in the collection has. -/
theorem adds_iff_idUnused (env : Env) (load : Load) (key : Uid) (payload : Payload)
    (reportFile : MultipartFile) (d : ClientRestController.Disk) (m : WeedFSMeta)
    (settings : List Setting) (records : Collection ObjectId WeedFSMeta)
    (repositories : Repositories) (disk : WeedFSClientService.Disk) (events : List Event)
    (t u : State) (i capacity : ℕ) (fault : Option WeedFSClientService.Fault) (r : Stored)
    (hext : ∀ e ∈ env.library.getExtension reportFile.originalFilename, ∀ ch ∈ e.toList,
      isSeparator ch = false ∧ ch ≠ '.')
    (haccepted : (uploadCrashReport env load key payload reportFile d).2 = .write m)
    (hpayload : payload.fileMeta = some (some settings))
    (hnew : ∀ d ∈ records.docs, d.body.key ≠ m.key)
    (hl : EachStep (step capacity) (Leaves m) (start records repositories disk) events)
    (hrun : run (step capacity) (start records repositories disk) events = some t)
    (hr : r.filename = m.filename) (ht : TakesResponse t i r)
    (hu : step capacity t (.on i (.reader fault)) = some u) :
    t.repositories.crashes.Adds (fun report => report.clientId = env.clientId)
        u.repositories.crashes ↔
      ((t.weedMetaMap key.val).isSome ∧ fault ≠ some .save) ∧
        ∀ id ∈ idOf settings, id ∉ t.repositories.crashes.ids := by
  have hid : (fileMetaOf env settings).id = idOf settings := readValue_id settings
  rw [crashes_of_course hext haccepted hpayload hnew hl hrun hr ht hu]
  by_cases hsaved : (t.weedMetaMap key.val).isSome ∧ fault ≠ some .save
  · rw [if_pos hsaved, Collection.adds_save_iff, hid]
    exact and_congr_left fun _ => iff_of_true rfl hsaved
  · rw [if_neg hsaved]
    exact iff_of_false (Collection.not_adds_self _) fun h => hsaved h.1

/-! ### One report -/

/-- The second put of the record is made, if `both` says so, before its file is answered. -/
def oneReport (both : Bool) (m : WeedFSMeta) : List Event :=
  .channelActive :: (writes 0 m).take (if both then 5 else 4) ++
    List.replicate 5 (.on 0 .writer) ++
      [.on 0 (.created (.bytes (some (storedObject m.filename)))), .on 0 (.reader none)]

/-- A report of another client, stored under the id 7. -/
def otherReport : CrashFileMeta where
  platform := 1
  clientId := some "other"
  uid := some "v"
  userAlias := none
  model := none
  imei := none
  macAddress := none
  osVersion := none
  appId := some "app"
  version := 1
  versionString := none
  cause := none
  date := some 0
  fid := some "3,01637037d6"
  size := 1

def oneStored : Repositories := ⟨.empty, .empty, ⟨[⟨7, otherReport⟩], by simp⟩, []⟩

def zeros : Uid := sameDigit '0' zero_mem_hexDigits

def emptyFile : MultipartFile := ⟨some "a.txt", [], none⟩

/-- A report whose file has no bytes. -/
def reportOf (settings : List Setting) : Payload :=
  ⟨some "1.0", some "d41d8cd98f00b204e9800998ecf8427e", some (some settings)⟩

def recordOf (settings : List Setting) : WeedFSMeta :=
  .create (some zeros.val) (some "txt") (.crash (fileMetaOf plainEnv settings))

def noFiles : ClientRestController.Disk := ⟨fun _ => true, fun _ => none⟩

lemma reportOf_accepted (settings : List Setting) :
    (uploadCrashReport plainEnv ⟨0, 10, false, false⟩ zeros (reportOf settings) emptyFile
      noFiles).2 = .write (recordOf settings) := by
  rfl

lemma extension_emptyFile : ∀ e ∈ plainEnv.library.getExtension emptyFile.originalFilename,
    ∀ ch ∈ e.toList, isSeparator ch = false ∧ ch ≠ '.' := by
  intro e he
  have htxt : plainEnv.library.getExtension emptyFile.originalFilename = some "txt" := by decide
  rw [htxt, Option.mem_some_iff] at he
  subst he
  simp [isSeparator]

def opened : State := start .empty oneStored fun _ => some []

lemma oneReport_leaves (settings : List Setting) :
    EachStep (step 8) (Leaves (recordOf settings)) opened (oneReport true (recordOf settings)) := by
  refine eachStep_cons trivial rfl (eachStep_cons (fun _ => rfl) rfl ?_)
  iterate 10 refine eachStep_cons trivial rfl ?_
  refine eachStep_cons ?_ rfl trivial
  rintro c hc ⟨hpoint, -⟩
  cases hc
  cases hpoint

/-- The response to its file. -/
def responseOf (settings : List Setting) : Stored :=
  ⟨"3,01637037d6", (recordOf settings).filename, 0, "127.0.0.1:8080/3,01637037d6"⟩

lemma oneReport_runs (settings : List Setting) :
    ∃ t u, run (step 8) opened (oneReport true (recordOf settings)) = some t ∧
      t.repositories = oneStored ∧ (t.weedMetaMap zeros.val).isSome ∧
      TakesResponse t 0 (responseOf settings) ∧ step 8 t (.on 0 (.reader none)) = some u := by
  refine ⟨_, _, rfl, rfl, ?_, ⟨⟨_, rfl, rfl, rfl, List.cons_ne_nil _ _⟩, rfl⟩, rfl⟩
  let item : Item := ⟨none, recordOf settings⟩
  change (Function.update (fun _ => none) zeros.val (some item) zeros.val).isSome = true
  rw [Function.update_self]
  rfl

theorem adds_iff_idUnused_dated :
    idOf [.date (some 0), .clientId (some "x")] = none ∧
      ∃ t u, run (step 8) opened
          (oneReport true (recordOf [.date (some 0), .clientId (some "x")])) = some t ∧
        step 8 t (.on 0 (.reader none)) = some u ∧
        t.repositories.crashes.Adds (fun report => report.clientId = some "client")
          u.repositories.crashes := by
  obtain ⟨t, u, hrun, hrepositories, hqueued, ht, hu⟩ :=
    oneReport_runs [.date (some 0), .clientId (some "x")]
  refine ⟨rfl, t, u, hrun, hu, ?_⟩
  refine (adds_iff_idUnused plainEnv _ zeros _ emptyFile noFiles _ [.date (some 0),
    .clientId (some "x")] .empty oneStored (fun _ => some []) _ t u 0 8 none _ extension_emptyFile
    (reportOf_accepted _) rfl (by simp [Collection.empty]) (oneReport_leaves _) hrun rfl ht
    hu).mpr ⟨⟨hqueued, (Option.some_ne_none _).symm⟩, ?_⟩
  intro id hid
  cases hid

/-- A file that is answered between the two puts of its record leaves no report. -/
example :
    ((run (step 8) opened (oneReport false (recordOf []))).bind
      (step 8 · (.on 0 (.reader none)))).map (·.repositories) = some oneStored := by
  rfl

/-- A report whose payload has the id of a stored one takes its place. -/
theorem not_adds_storedId :
    (uploadCrashReport plainEnv ⟨0, 10, false, false⟩ zeros (reportOf [.id (some 7)]) emptyFile
        noFiles).2 = .write (recordOf [.id (some 7)]) ∧
      ∃ t u, run (step 8) opened (oneReport true (recordOf [.id (some 7)])) = some t ∧
        t.repositories.crashes.docs = [⟨7, otherReport⟩] ∧
        TakesResponse t 0 (responseOf [.id (some 7)]) ∧ step 8 t (.on 0 (.reader none)) = some u ∧
        (∀ d ∈ u.repositories.crashes.docs, d.body ≠ otherReport) ∧
        ¬ t.repositories.crashes.Adds (fun report => report.clientId = some "client")
          u.repositories.crashes := by
  obtain ⟨t, u, hrun, hrepositories, hqueued, ht, hu⟩ := oneReport_runs [.id (some 7)]
  have hsaved := crashes_of_course extension_emptyFile (reportOf_accepted [.id (some 7)]) rfl
    (by simp [Collection.empty]) (oneReport_leaves _) hrun rfl ht hu
  rw [if_pos ⟨hqueued, (Option.some_ne_none _).symm⟩, hrepositories] at hsaved
  have hreplaced : ∀ d ∈ u.repositories.crashes.docs, d.body ≠ otherReport := by
    rw [hsaved]
    decide
  refine ⟨reportOf_accepted _, t, u, hrun, by rw [hrepositories]; rfl, ht, hu, hreplaced, ?_⟩
  rintro ⟨hkept, -⟩
  rw [hrepositories] at hkept
  exact hreplaced _ (hkept ⟨7, otherReport⟩ (List.mem_singleton_self _)) rfl

end Logful.CrashReports
