import Logful.ResponseAtomicity

/-!
Responses that are handled in some order.

The handling of a response takes one entry out of the map, saves one metadata and deletes one
file, and none of this is in the way of another response. There is one exception: a crash report
is saved under the id that its client gave it, and replaces the report that was saved under the
same id before it.
-/

namespace Logful.ResponseOrder

open Logful.Documents Logful.Entity Logful.Paths Logful.ResponseAtomicity Logful.Runs
open Logful.WeedFSClientService Logful.WeedFSSteps

/-- A file that was accepted, and what the response to it says. -/
structure Accepted where
  key : String
  extension : String
  fileMeta : FileMeta
  fid : String
  size : ℤ
  fileUrl : String

namespace Accepted

def weedFSMeta (f : Accepted) : WeedFSMeta := .create (some f.key) (some f.extension) f.fileMeta

def filename (f : Accepted) : String := f.weedFSMeta.filename

def stored (f : Accepted) : Stored := ⟨f.fid, f.filename, f.size, f.fileUrl⟩

/-- The metadata as it is to be saved. -/
def withFid (f : Accepted) : FileMeta := setFid f.fid f.size f.fileMeta

/-- The key has no separators, the extension neither these nor dots; and a report of a crash has
its date. -/
structure Valid (f : Accepted) : Prop where
  key : ∀ ch ∈ f.key.toList, isSeparator ch = false
  extension : ∀ ch ∈ f.extension.toList, isSeparator ch = false ∧ ch ≠ '.'
  date : ∀ report, f.fileMeta = .crash report → report.body.date.isSome

end Accepted

/-! ### What is saved in each of the repositories -/

def logs (files : List Accepted) : List (Entity ObjectId LogFileMeta) :=
  files.filterMap fun f => match f.withFid with
    | .log fileMeta => some ⟨none, fileMeta⟩
    | _ => none

def attachments (files : List Accepted) : List (Entity ObjectId AttachFileMeta) :=
  files.filterMap fun f => match f.withFid with
    | .attachment fileMeta => some ⟨none, fileMeta⟩
    | _ => none

def crashes (files : List Accepted) : List (Entity ObjectId CrashFileMeta) :=
  files.filterMap fun f => match f.withFid with
    | .crash report => some report
    | _ => none

/-- The responses at the head of the queue are handled, one after the other. -/
def handleAll : List Item → State → State
  | [], s => s
  | response :: queue, s => handleAll queue (handle none response { s with readQueue := queue })

def responses (files : List Accepted) : List Item := files.map fun f => f.stored.response

/-- What is saved for a file. -/
def Accepted.save (f : Accepted) : String × FileMeta := (f.filename, f.withFid)

/-- Every metadata is saved once, with its own fid and size, in the repository of its type; the
entries of the files are gone from the map and the files are deleted, and nothing else is. Of the
crash reports from before, those are replaced whose id one of the new ones has. -/
structure Settled (files : List Accepted) (s t : State) : Prop where
  saved : t.history.saved.Perm (s.history.saved ++ files.map Accepted.save)
  logs : (t.repositories.logs.docs.map Document.body).Perm
    (s.repositories.logs.docs.map Document.body ++ (logs files).map Entity.body)
  attachments : (t.repositories.attachments.docs.map Document.body).Perm
    (s.repositories.attachments.docs.map Document.body ++ (attachments files).map Entity.body)
  crashes : (t.repositories.crashes.docs.map Document.body).Perm
    ((s.repositories.crashes.docs.filter (·.id ∉ carried (crashes files))).map Document.body ++
      (crashes files).map Entity.body)
  entries : ∀ key, t.weedMetaMap key =
    if key ∈ files.map Accepted.key then none else s.weedMetaMap key
  disk : ∀ name, t.disk name = if name ∈ files.map Accepted.filename then none else s.disk name
  records : t.queueRepository = s.queueRepository

/-- The same state, but for the ids that documents were given and the order they are stored in. -/
structure Alike (t u : State) : Prop where
  saved : t.history.saved.Perm u.history.saved
  logs : (t.repositories.logs.docs.map Document.body).Perm
    (u.repositories.logs.docs.map Document.body)
  attachments : (t.repositories.attachments.docs.map Document.body).Perm
    (u.repositories.attachments.docs.map Document.body)
  crashes : (t.repositories.crashes.docs.map Document.body).Perm
    (u.repositories.crashes.docs.map Document.body)
  entries : t.weedMetaMap = u.weedMetaMap
  disk : t.disk = u.disk
  records : t.queueRepository = u.queueRepository

lemma Settled.alike {files : List Accepted} {s t u : State} (ht : Settled files s t)
    (hu : Settled files s u) : Alike t u where
  saved := ht.saved.trans hu.saved.symm
  logs := ht.logs.trans hu.logs.symm
  attachments := ht.attachments.trans hu.attachments.symm
  crashes := ht.crashes.trans hu.crashes.symm
  entries := funext fun key => (ht.entries key).trans (hu.entries key).symm
  disk := funext fun name => (ht.disk name).trans (hu.disk name).symm
  records := ht.records.trans hu.records.symm

/-! ### One response -/

variable {files : List Accepted} {f : Accepted} {s : State}

lemma Accepted.Valid.getBaseName (h : f.Valid) : getBaseName f.stored.filename = f.key :=
  getBaseName_join h.key h.extension

/-- The repositories behind the saves of the files. -/
def savedAll (r : Repositories) (files : List Accepted) (notices : List LogMessage) :
    Repositories where
  logs := r.logs.saveAll (ResponseOrder.logs files)
  attachments := r.attachments.saveAll (ResponseOrder.attachments files)
  crashes := r.crashes.saveAll (ResponseOrder.crashes files)
  notices := notices

lemma savedAll_save (r : Repositories) (f : Accepted) (files : List Accepted)
    (l notices : List LogMessage) :
    savedAll { (r.save f.withFid).1 with notices := l } files notices =
      savedAll r (f :: files) notices := by
  cases hf : f.withFid <;>
    simp [savedAll, Repositories.save, logs, attachments, crashes, hf]

/-- What the files that are handled leave behind. -/
lemma handleAll_eq (hvalid : ∀ f ∈ files, f.Valid) (hkeys : (files.map Accepted.key).Nodup)
    (hentries : ∀ f ∈ files, ∃ id, s.weedMetaMap f.key = some ⟨id, f.weedFSMeta⟩) :
    ∃ weedMetaMap disk readQueue handled notices, handleAll (responses files) s = { s with
        weedMetaMap := weedMetaMap
        disk := disk
        readQueue := readQueue
        repositories := savedAll s.repositories files notices
        history.handled := handled
        history.saved := s.history.saved ++ files.map Accepted.save } ∧
      (∀ key, weedMetaMap key =
        if key ∈ files.map Accepted.key then none else s.weedMetaMap key) ∧
      ∀ name, disk name = if name ∈ files.map Accepted.filename then none else s.disk name := by
  have hfault : (none : Option Fault) ≠ some .save := (Option.some_ne_none _).symm
  have hsent : (none : Option Fault) ≠ some .send := (Option.some_ne_none _).symm
  induction files generalizing s with
  | nil => exact ⟨s.weedMetaMap, s.disk, s.readQueue, s.history.handled, s.repositories.notices,
      by simp [responses, handleAll, savedAll, logs, attachments, crashes, Collection.saveAll],
      by simp, by simp⟩
  | cons f files ih =>
    rw [List.forall_mem_cons] at hvalid hentries
    rw [List.map_cons, List.nodup_cons] at hkeys
    obtain ⟨id, hentry⟩ := hentries.1
    have hkey := hvalid.1.getBaseName
    rw [← hkey] at hentry
    obtain ⟨notices, hhandle⟩ := handle_ends (s := { s with readQueue := responses files })
      rfl f.stored.object hentry rfl hfault
      fun report hreport => ⟨hvalid.1.date report hreport, hsent⟩
    rw [hkey] at hhandle
    have hrest : ∀ g ∈ files, ∃ id, Function.update s.weedMetaMap f.key none g.key =
        some ⟨id, g.weedFSMeta⟩ := by
      intro g hg
      have hne : g.key ≠ f.key := fun h => hkeys.1 (h ▸ List.mem_map_of_mem hg)
      rw [Function.update_of_ne hne]
      exact hentries.2 g hg
    obtain ⟨weedMetaMap, disk, readQueue, handled, notices', heq, hmap, hdisk⟩ :=
      ih hvalid.2 hkeys.2 (s := handle none f.stored.response
        { s with readQueue := responses files }) (by rw [hhandle]; exact hrest)
    refine ⟨weedMetaMap, disk, readQueue, handled, notices', ?_, ?_, ?_⟩
    · have hcons : handleAll (responses (f :: files)) s = handleAll (responses files)
          (handle none f.stored.response { s with readQueue := responses files }) := rfl
      rw [hcons, heq, hhandle, ← savedAll_save s.repositories f files notices notices']
      simp [Accepted.save, Accepted.withFid, Accepted.stored]
    · intro key
      rw [hmap, hhandle]
      by_cases hf : key = f.key
      · simp [hf]
      · simp [hf]
    · intro name
      rw [hdisk, hhandle]
      by_cases hf : name = f.filename
      · simp [hf, Accepted.stored]
      · simp [hf, Accepted.stored]

/-! ### The reader -/

/-- The reader takes a response, and is back at its queue. -/
lemma run_turn {capacity i : ℕ} {c : Connection} {queue : List Item}
    (hc : s.connections[i]? = some c) (hreader : c.reader = ⟨false, .poll⟩)
    (hrunning : c.stage.readerRunning = true)
    (hqueue : s.readQueue = f.stored.response :: queue) :
    run (step capacity) s [.on i (.reader none), .on i (.reader none)] =
      some (handle none f.stored.response { s with readQueue := queue }) := by
  set u := handle none f.stored.response { s with readQueue := queue } with hu
  have hconnections : u.connections = s.connections := (aside_handle none rfl _).connections
  have hpoll : step capacity s (.on i (.reader none)) =
      some { u with connections := u.connections.set i (c.readerAt .test) } := by
    simp [step, hc, act, readerStep, hreader, hqueue, hu]
  obtain ⟨hi, hci⟩ := List.getElem?_eq_some_iff.mp hc
  have hget : (u.connections.set i (c.readerAt .test))[i]? = some (c.readerAt .test) :=
    List.getElem?_set_self (hconnections.symm ▸ hi)
  have hback : (c.readerAt .test).readerAt .poll = c := by
    cases c
    cases hreader
    rfl
  have hset : (u.connections.set i (c.readerAt .test)).set i c = u.connections := by
    rw [List.set_set, hconnections, ← hci]
    exact List.set_getElem_self hi
  have htest : step capacity { u with connections := u.connections.set i (c.readerAt .test) }
      (.on i (.reader none)) = some u := by
    have hpoint : (c.readerAt .test).reader.point = .test := rfl
    have hstage : (c.readerAt .test).stage.readerRunning = true := hrunning
    simp only [step, hget, act, readerStep, hpoint, hstage, if_true, hback, Option.map_some, hset]
  rw [run_cons, hpoll, Option.bind_some, run_cons, htest]
  rfl

/-- While its thread runs and is not interrupted, the reader handles the responses of its queue
in their order. -/
theorem run_reader {capacity i : ℕ} {c : Connection} (hc : s.connections[i]? = some c)
    (hreader : c.reader = ⟨false, .poll⟩) (hrunning : c.stage.readerRunning = true)
    (hqueue : s.readQueue = responses files) :
    run (step capacity) s (List.replicate files.length
        [.on i (.reader none), .on i (.reader none)]).flatten =
      some (handleAll (responses files) s) := by
  induction files generalizing s with
  | nil => rfl
  | cons f files ih =>
    have hid : f.stored.response.id = none := rfl
    have haside := aside_handle none hid { s with readQueue := responses files }
    rw [List.length_cons, List.replicate_succ, List.flatten_cons, run_append_eq_some]
    refine ⟨_, run_turn hc hreader hrunning hqueue, ih ?_ haside.readQueue⟩
    exact (congrArg (·[i]?) haside.connections).trans hc

/-! ### Any order -/

lemma logs_new (files : List Accepted) : ∀ e ∈ logs files, e.id = none := by
  intro e he
  obtain ⟨f, -, hf⟩ := List.mem_filterMap.mp he
  cases hmeta : f.withFid <;> simp only [hmeta] at hf <;> cases hf
  rfl

lemma attachments_new (files : List Accepted) : ∀ e ∈ attachments files, e.id = none := by
  intro e he
  obtain ⟨f, -, hf⟩ := List.mem_filterMap.mp he
  cases hmeta : f.withFid <;> simp only [hmeta] at hf <;> cases hf
  rfl

/-- Files that were accepted under different keys, and are in the map with their metadata. -/
structure Expected (files : List Accepted) (s : State) : Prop where
  valid : ∀ f ∈ files, f.Valid
  keys : (files.map Accepted.key).Nodup
  entries : ∀ f ∈ files, ∃ id, s.weedMetaMap f.key = some ⟨id, f.weedFSMeta⟩

lemma Expected.perm (h : Expected files s) {order : List Accepted} (horder : order.Perm files) :
    Expected order s where
  valid := fun f hf => h.valid f (horder.mem_iff.mp hf)
  keys := (horder.map _).nodup_iff.mpr h.keys
  entries := fun f hf => h.entries f (horder.mem_iff.mp hf)

/-- In one order. -/
lemma settled_handleAll_iff (hfiles : Expected files s) {order : List Accepted}
    (horder : order.Perm files)
    (havoid : Avoids (carried (crashes order)) s.repositories.crashes (crashes order)) :
    Settled files s (handleAll (responses order) s) ↔ (carried (crashes files)).Nodup := by
  obtain ⟨hvalid, hkeys, hentries⟩ := hfiles.perm horder
  obtain ⟨weedMetaMap, disk, readQueue, handled, notices, heq, hmap, hdisk⟩ :=
    handleAll_eq hvalid hkeys hentries
  rw [heq]
  have hcrashes : (crashes order).Perm (crashes files) := horder.filterMap _
  have hcarried : (carried (crashes order)).Perm (carried (crashes files)) :=
    hcrashes.filterMap _
  have hkept : (s.repositories.crashes.docs.filter (·.id ∉ carried (crashes order))) =
      s.repositories.crashes.docs.filter (·.id ∉ carried (crashes files)) :=
    List.filter_congr fun d _ => by simp only [hcarried.mem_iff]
  have hiff := (Collection.bodies_saveAll_iff havoid).trans hcarried.nodup_iff
  rw [hkept] at hiff
  rw [← hiff]
  constructor
  · intro h
    exact h.crashes.trans ((hcrashes.map _).symm.append_left _)
  · intro h
    constructor
    case saved => exact (horder.map _).append_left _
    case logs =>
      refine (List.Perm.of_eq (Collection.bodies_saveAll_new (logs_new order))).trans ?_
      exact ((horder.filterMap _).map _).append_left _
    case attachments =>
      refine (List.Perm.of_eq (Collection.bodies_saveAll_new (attachments_new order))).trans ?_
      exact ((horder.filterMap _).map _).append_left _
    case crashes => exact h.trans ((hcrashes.map _).append_left _)
    case entries =>
      intro key
      simp only [← (horder.map Accepted.key).mem_iff]
      exact hmap key
    case disk =>
      intro name
      simp only [← (horder.map Accepted.filename).mem_iff]
      exact hdisk name
    case records => rfl

/-- **Responses in any order.** However the responses to the files are ordered, every metadata
is saved once, the entries of the files are removed and the files deleted, and nothing else is,
with one outcome for all orders, exactly when no two crash reports came with the same id. -/
theorem settled_iff_carriedOnce (files : List Accepted) (s : State) (hfiles : Expected files s)
    (hgenerated : ∀ order : List Accepted, order.Perm files →
      Avoids (carried (crashes order)) s.repositories.crashes (crashes order)) :
    (∀ order order', order.Perm files → order'.Perm files →
      Settled files s (handleAll (responses order) s) ∧
        Alike (handleAll (responses order) s) (handleAll (responses order') s)) ↔
      (carried (crashes files)).Nodup := by
  constructor
  · intro h
    have hsettled := (h files files (.refl _) (.refl _)).1
    exact (settled_handleAll_iff hfiles (.refl _) (hgenerated files (.refl _))).mp hsettled
  · intro hnodup order order' horder horder'
    have hsettled := (settled_handleAll_iff hfiles horder (hgenerated order horder)).mpr hnodup
    refine ⟨hsettled, hsettled.alike ?_⟩
    exact (settled_handleAll_iff hfiles horder' (hgenerated order' horder')).mpr hnodup

/-! ### Concrete files -/

/-- A crash report as its client sent it, with or without an id. -/
def report (key : String) (id : Option ObjectId) : Accepted where
  key := key
  extension := "txt"
  fileMeta := .crash ⟨id, { datelessReport with date := some 0, uid := some key }⟩
  fid := "3,01" ++ key
  size := 0
  fileUrl := "127.0.0.1:8080/3,01" ++ key

def oneAttachment : Accepted :=
  ⟨"b", "jpg", .attachment (.create "b"), "3,02", 1, "127.0.0.1:8080/3,02"⟩

def twoAccepted : List Accepted := [report "a" (some 7), oneAttachment]

/-- Each of the files is in the map. -/
def inMap (files : List Accepted) : State :=
  { start .empty noRepositories twoFiles with
    weedMetaMap := fun key => (files.find? (·.key = key)).map fun f => ⟨none, f.weedFSMeta⟩ }

lemma expected_inMap (hvalid : ∀ f ∈ files, f.Valid) (hkeys : (files.map Accepted.key).Nodup) :
    Expected files (inMap files) := by
  refine ⟨hvalid, hkeys, fun f hf => ⟨none, ?_⟩⟩
  have hfound : (files.find? (·.key = f.key)).isSome := List.find?_isSome.mpr ⟨f, hf, by simp⟩
  obtain ⟨g, hg⟩ := Option.isSome_iff_exists.mp hfound
  have hkey : g.key = f.key := by simpa using List.find?_some hg
  obtain rfl := List.inj_on_of_nodup_map hkeys (List.mem_of_find?_eq_some hg) hf hkey
  simp [inMap, hg]

lemma valid_report {key : String} (hkey : ∀ ch ∈ key.toList, isSeparator ch = false)
    (id : Option ObjectId) : (report key id).Valid where
  key := hkey
  extension := by simp [report, isSeparator]
  date := by
    intro report hreport
    cases hreport
    rfl

/-- No id is generated for reports that have one. -/
lemma avoids_crashes {ids : List ObjectId} {c : Collection ObjectId CrashFileMeta}
    (h : ∀ f ∈ files, ∀ report, f.withFid = .crash report → report.id.isSome)
    {order : List Accepted} (horder : order.Perm files) : Avoids ids c (crashes order) := by
  refine avoids_of_isSome fun e he => ?_
  obtain ⟨f, hf, hcrash⟩ := List.mem_filterMap.mp he
  cases hmeta : f.withFid <;> simp only [hmeta] at hcrash <;> cases hcrash
  exact h f (horder.mem_iff.mp hf) e hmeta

theorem settled_iff_carriedOnce_twoFiles :
    (carried (crashes twoAccepted)).Nodup ∧
      ∀ order order', order.Perm twoAccepted → order'.Perm twoAccepted →
        Settled twoAccepted (inMap twoAccepted)
            (handleAll (responses order) (inMap twoAccepted)) ∧
          Alike (handleAll (responses order) (inMap twoAccepted))
            (handleAll (responses order') (inMap twoAccepted)) := by
  refine ⟨by decide, (settled_iff_carriedOnce _ _ (expected_inMap ?_ ?_) ?_).mpr ?_⟩
  · intro f hf
    rw [twoAccepted, List.mem_cons, List.mem_singleton] at hf
    rcases hf with rfl | rfl
    · exact valid_report (by simp [isSeparator]) _
    · refine ⟨by simp [oneAttachment, isSeparator], by simp [oneAttachment, isSeparator], ?_⟩
      intro report hreport
      cases hreport
  · decide
  · refine fun order => avoids_crashes fun f hf report hreport => ?_
    rw [twoAccepted, List.mem_cons, List.mem_singleton] at hf
    rcases hf with rfl | rfl <;> cases hreport
    rfl
  · decide

/-- Two crash reports that came with the same id: the second one takes the place of the first. -/
theorem not_settled_sameId :
    ¬ ∀ files s, Expected files s →
      (∀ order : List Accepted, order.Perm files →
        Avoids (carried (crashes order)) s.repositories.crashes (crashes order)) →
      ∀ order order', order.Perm files → order'.Perm files →
        Settled files s (handleAll (responses order) s) ∧
          Alike (handleAll (responses order) s) (handleAll (responses order') s) := by
  intro h
  let files := [report "a" (some 7), report "b" (some 7)]
  have hreport : ∀ f ∈ files, ∃ key, (∀ ch ∈ key.toList, isSeparator ch = false) ∧
      f = report key (some 7) := by
    intro f hf
    rw [List.mem_cons, List.mem_singleton] at hf
    rcases hf with rfl | rfl
    · exact ⟨"a", by simp [isSeparator], rfl⟩
    · exact ⟨"b", by simp [isSeparator], rfl⟩
  have hfiles : Expected files (inMap files) := by
    refine expected_inMap (fun f hf => ?_) (by decide)
    obtain ⟨key, hkey, rfl⟩ := hreport f hf
    exact valid_report hkey _
  have hgenerated : ∀ order : List Accepted, order.Perm files →
      Avoids (carried (crashes order)) (inMap files).repositories.crashes (crashes order) := by
    refine fun order => avoids_crashes fun f hf report hcrash => ?_
    obtain ⟨key, -, rfl⟩ := hreport f hf
    cases hcrash
    rfl
  have hsettled := (h files (inMap files) hfiles hgenerated files files (.refl _) (.refl _)).1
  have hnodup := (settled_handleAll_iff hfiles (.refl _) (hgenerated files (.refl _))).mp hsettled
  revert hnodup
  decide

end Logful.ResponseOrder
