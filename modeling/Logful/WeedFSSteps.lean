import Logful.WeedFSClientService

/-!
What each step of the service can do.

For every step there is one predicate with a case for each of its outcomes, and a lemma that
the step has one of them. Invariants are proved from the cases, without unfolding a step.
-/

namespace Logful.WeedFSSteps

open Logful.Documents Logful.Entity Logful.Paths Logful.WeedFSClientService

variable {s t : State} {c c' : Connection} {capacity : ℕ}

/-! ### The callers of `write` -/

/-- Besides what was given to `write` before, a record with its file in the directory. -/
def Noted (s : State) (e : Item) (given : List WeedFSMeta) : Prop :=
  ∀ m, m ∈ given ↔ m ∈ s.history.given ∨ (m = e.body ∧ (s.disk m.filename).isSome)

lemma noted_eq (s : State) (e : Item) :
    ∃ given, noted e s = { s with history.given := given } ∧ Noted s e given := by
  unfold noted
  split_ifs with hdisk
  · refine ⟨_, rfl, fun m => ?_⟩
    rw [List.mem_append, List.mem_singleton]
    exact or_congr_right ⟨fun h => ⟨h, by rwa [h]⟩, And.left⟩
  · refine ⟨s.history.given, rfl, fun m => ⟨.inl, fun h => h.resolve_right ?_⟩⟩
    rintro ⟨rfl, h⟩
    exact hdisk h

/-- The outcomes of a step of a caller: a tick looks at the connection, and finds its records; a
call begins, and sees whether there is a connection, and then whether the server is known to
fail; it puts the record into the queue, and into the map, unless it has no key; it deletes the
file; it saves the record, or fails to. -/
inductive CallerMove (s : State) (saveFails : Bool) : Caller → State → Caller → Prop
  | looked (list : List Item) (point : CallPoint) (hpoint : point = .find ∨ point = .connected) :
      CallerMove s saveFails ⟨.isConnected, list⟩ s ⟨point, []⟩
  | found (list : List Item) : CallerMove s saveFails ⟨.find, list⟩ s
      ⟨.connected, (findAllNotWriteLimit s.queueRepository PAGE_LIMIT).map Document.entity⟩
  | begun (e : Item) (list : List Item) (given : List WeedFSMeta) (hgiven : Noted s e given)
      (point : CallPoint) (hpoint : point = .serverError ∧ s.connected = true ∨
        point = .save ∧ s.connected = false) :
      CallerMove s saveFails ⟨.connected, e :: list⟩ { s with history.given := given }
        ⟨point, e :: list⟩
  | decided (e : Item) (list : List Item) (point : CallPoint)
      (hpoint : point = .queue ∧ s.serverError = false ∨ point = .delete ∧ s.serverError = true) :
      CallerMove s saveFails ⟨.serverError, e :: list⟩ s ⟨point, e :: list⟩
  | queued (e : Item) (list : List Item) :
      CallerMove s saveFails ⟨.queue, e :: list⟩ { s with writeQueue := s.writeQueue ++ [e] }
        ⟨.map, e :: list⟩
  | mapped (e : Item) (list : List Item) (key : String) (hkey : e.body.key = some key) :
      CallerMove s saveFails ⟨.map, e :: list⟩
        { s with weedMetaMap := Function.update s.weedMetaMap key (some e) } ⟨.connected, list⟩
  | keyless (e : Item) (list : List Item) (hkey : e.body.key = none) :
      CallerMove s saveFails ⟨.map, e :: list⟩ s ⟨.connected, []⟩
  | deleted (e : Item) (list : List Item) : CallerMove s saveFails ⟨.delete, e :: list⟩
      { s with disk := Function.update s.disk e.body.filename none } ⟨.connected, list⟩
  | saved (e : Item) (list : List Item) (hsave : saveFails = false) :
      CallerMove s saveFails ⟨.save, e :: list⟩
        { s with queueRepository := s.queueRepository.save e } ⟨.connected, list⟩
  | unsaved (e : Item) (list : List Item) (hfails : saveFails = true) :
      CallerMove s saveFails ⟨.save, e :: list⟩ s ⟨.connected, []⟩

theorem callerMove_of_step {saveFails : Bool} {d d' : Caller}
    (h : callerStep capacity saveFails d s = some (t, d')) : CallerMove s saveFails d t d' := by
  obtain ⟨point, list⟩ := d
  unfold callerStep at h
  cases point with
  | isConnected =>
    cases h
    exact .looked list _ (by cases s.connected <;> simp)
  | find =>
    cases h
    exact .found list
  | connected =>
    cases list with
    | nil => cases h
    | cons e list =>
      cases h
      obtain ⟨given, hnoted, hgiven⟩ := noted_eq s e
      rw [hnoted]
      exact .begun e list given hgiven _ (by cases s.connected <;> simp)
  | serverError =>
    cases list with
    | nil => cases h
    | cons e list =>
      cases h
      exact .decided e list _ (by cases s.serverError <;> simp)
  | queue =>
    cases list with
    | nil => cases h
    | cons e list =>
      simp only at h
      split_ifs at h
      cases h
      exact .queued e list
  | map =>
    cases list with
    | nil => cases h
    | cons e list =>
      simp only at h
      split at h
      · rename_i hkey
        cases h
        exact .keyless e list hkey
      · rename_i key hkey
        cases h
        exact .mapped e list key hkey
  | delete =>
    cases list with
    | nil => cases h
    | cons e list =>
      cases h
      exact .deleted e list
  | save =>
    cases list with
    | nil => cases h
    | cons e list =>
      simp only at h
      split_ifs at h with hfails
      · cases h
        exact .unsaved e list hfails
      · cases h
        exact .saved e list (by simpa using hfails)

/-- The records of a caller are those it had, or those that a tick has found. -/
lemma CallerMove.mem_list {saveFails : Bool} {d d' : Caller} (h : CallerMove s saveFails d t d')
    {x : Item} (hx : x ∈ d'.weedFSMetaList) : x ∈ d.weedFSMetaList ∨
      (d.point = .find ∧ ∃ doc ∈ s.queueRepository.docs,
        doc.body.status = .STATE_NORMAL ∧ x = doc.entity) := by
  cases h with
  | looked | keyless | unsaved => cases hx
  | begun | decided | queued => exact .inl hx
  | mapped | deleted | saved => exact .inl (List.mem_cons_of_mem _ hx)
  | found =>
    obtain ⟨doc, hdoc, rfl⟩ := List.mem_map.mp hx
    obtain ⟨hdoc, hstatus⟩ := Collection.mem_findLimit hdoc
    exact .inr ⟨rfl, doc, hdoc, by simpa using hstatus, rfl⟩

/-- A step of a caller. -/
theorem caller_eq {i : ℕ} {saveFails : Bool} (h : step capacity s (.caller i saveFails) = some t) :
    ∃ d u d', s.callers[i]? = some d ∧ CallerMove s saveFails d u d' ∧
      t = { u with callers := u.callers.set i d' } := by
  simp only [step] at h
  cases hi : s.callers[i]? with
  | none => simp [hi] at h
  | some d =>
    simp only [hi] at h
    obtain ⟨⟨u, d'⟩, hmove, rfl⟩ := Option.map_eq_some_iff.mp h
    exact ⟨d, u, d', rfl, callerMove_of_step hmove, rfl⟩

/-! ### The writer thread -/

/-- The writer is about to take a record from the queue. -/
def Polls (c : Connection) : Prop :=
  c.writer.point = .poll ∧ c.writer.interrupted = false ∧ c.writer.weedFSMeta = none

instance (c : Connection) : Decidable (Polls c) := inferInstanceAs (Decidable (_ ∧ _ ∧ _))

/-- The outcomes of a step of the writer: nothing but its place in the loop changes; it takes
a record from the queue; it sends the file of the record in its hand; it finds no file, and
marks the record as deleted if it has an id. -/
inductive WriterMove (s : State) (c c' : Connection) : State → Prop
  | moved (hhand : c'.writer.weedFSMeta = c.writer.weedFSMeta)
      (hrequests : c'.unanswered = c.unanswered) (hpoint : c.writer.point ≠ .send) :
      WriterMove s c c' s
  | took (e : Item) (queue : List Item) (hqueue : s.writeQueue = e :: queue) (hpolls : Polls c)
      (hhand : c'.writer.weedFSMeta = some e) (hrequests : c'.unanswered = c.unanswered) :
      WriterMove s c c' { s with writeQueue := queue }
  | sent (e : Item) (content : List UInt8) (hpoint : c.writer.point = .send)
      (hhand : c.writer.weedFSMeta = some e) (hdisk : s.disk e.body.filename = some content)
      (hfree : c'.writer.weedFSMeta = none)
      (hrequests : c'.unanswered = c.unanswered ++ [⟨getName e.body.filename, content⟩]) :
      WriterMove s c c' s
  | missed (e : Item) (queueRepository : Collection ObjectId WeedFSMeta)
      (hpoint : c.writer.point = .send) (hhand : c.writer.weedFSMeta = some e)
      (hdisk : s.disk e.body.filename = none) (hfree : c'.writer.weedFSMeta = none)
      (hrequests : c'.unanswered = c.unanswered)
      (hsave : (e.id = none ∧ queueRepository = s.queueRepository) ∨
        (e.id.isSome ∧ queueRepository = s.queueRepository.save
          { e with body := { e.body with status := .STATE_DELETED } })) :
      WriterMove s c c' { s with queueRepository := queueRepository }

theorem writerMove_of_step (h : writerStep c s = some (t, c')) : WriterMove s c c' t := by
  unfold writerStep at h
  cases hp : c.writer.point with
  | test =>
    simp only [hp] at h
    cases h
    exact .moved rfl rfl (by rw [hp]; nofun)
  | await =>
    simp only [hp] at h
    split_ifs at h <;> cases h <;> exact .moved rfl rfl (by rw [hp]; nofun)
  | poll =>
    simp only [hp] at h
    cases hhand : c.writer.weedFSMeta with
    | some e =>
      simp only [hhand] at h
      cases h
      exact .moved rfl rfl (by rw [hp]; nofun)
    | none =>
      simp only [hhand] at h
      split_ifs at h with hinterrupted
      · cases h
        exact .moved hhand.symm rfl (by rw [hp]; nofun)
      · cases hqueue : s.writeQueue with
        | nil =>
          simp only [hqueue] at h
          cases h
          exact .moved rfl rfl (by rw [hp]; nofun)
        | cons e queue =>
          simp only [hqueue] at h
          cases h
          exact .took e queue hqueue ⟨hp, by simpa using hinterrupted, hhand⟩ rfl rfl
  | check =>
    simp only [hp] at h
    cases h
    exact .moved rfl rfl (by rw [hp]; nofun)
  | send =>
    simp only [hp] at h
    cases hhand : c.writer.weedFSMeta with
    | none => simp [hhand] at h
    | some e =>
      simp only [hhand] at h
      cases hdisk : s.disk e.body.filename with
      | some content =>
        simp only [hdisk] at h
        cases h
        exact .sent e content hp hhand hdisk rfl rfl
      | none =>
        simp only [hdisk] at h
        cases hid : e.id with
        | none =>
          simp only [hid] at h
          cases h
          exact .missed e _ hp hhand hdisk rfl rfl (.inl ⟨hid, rfl⟩)
        | some i =>
          simp only [hid] at h
          cases h
          exact .missed e _ hp hhand hdisk rfl rfl (.inr ⟨by rw [hid]; rfl, by rw [← hid]⟩)
  | done => simp [hp] at h

/-- The writer has no influence on the channel. -/
lemma stage_writer (h : writerStep c s = some (t, c')) : c'.stage = c.stage := by
  unfold writerStep at h
  grind [Connection.writerAt]

/-- A sending that throws lets the record go, and does nothing else. -/
theorem writerFails_eq (h : writerFails c s = some (t, c')) : t = s ∧
    (∃ e, c.writer.weedFSMeta = some e ∧
      ((s.disk e.body.filename).isSome ∨ e.id.isSome)) ∧ c.writer.point = .send ∧
    c' = { c with writer := { c.writer with point := .test, weedFSMeta := none } } := by
  unfold writerFails at h
  split at h
  · rename_i e hpoint hhand
    split_ifs at h with hthrows
    cases h
    exact ⟨rfl, ⟨e, hhand, by simpa using hthrows⟩, hpoint, rfl⟩
  · cases h

/-! ### The reader thread -/

/-- The reader takes a response from its queue and handles it. -/
def Takes (s : State) (c : Connection) : Prop :=
  c.reader.point = .poll ∧ c.reader.interrupted = false ∧ s.readQueue ≠ []

instance (s : State) (c : Connection) : Decidable (Takes s c) :=
  inferInstanceAs (Decidable (_ ∧ _ ∧ _))

/-- The outcomes of a step of the reader: nothing but its place in the loop changes, or a
response is handled. -/
inductive ReaderMove (fault : Option Fault) (s : State) (c c' : Connection) : State → Prop
  | moved (hnot : ¬ Takes s c) (hhand : c'.writer.weedFSMeta = c.writer.weedFSMeta)
      (hrequests : c'.unanswered = c.unanswered) : ReaderMove fault s c c' s
  | handled (htakes : Takes s c) (response : Item) (queue : List Item)
      (hqueue : s.readQueue = response :: queue)
      (hhand : c'.writer.weedFSMeta = c.writer.weedFSMeta)
      (hrequests : c'.unanswered = c.unanswered) :
      ReaderMove fault s c c' (handle fault response { s with readQueue := queue })

theorem readerMove_of_step {fault : Option Fault} (h : readerStep fault c s = some (t, c')) :
    ReaderMove fault s c c' t := by
  unfold readerStep at h
  cases hp : c.reader.point with
  | test =>
    simp only [hp] at h
    cases h
    exact .moved (by simp [Takes, hp]) rfl rfl
  | poll =>
    simp only [hp] at h
    cases hint : c.reader.interrupted with
    | true =>
      simp only [hint, if_true] at h
      cases h
      exact .moved (by simp [Takes, hint]) rfl rfl
    | false =>
      simp only [hint, Bool.false_eq_true, if_false] at h
      cases hqueue : s.readQueue with
      | nil =>
        simp only [hqueue] at h
        cases h
        exact .moved (by simp [Takes, hqueue]) rfl rfl
      | cons response queue =>
        simp only [hqueue] at h
        cases h
        exact .handled ⟨hp, hint, by simp [hqueue]⟩ response queue hqueue rfl rfl
  | done => simp [hp] at h

lemma stage_reader {fault : Option Fault} (h : readerStep fault c s = some (t, c')) :
    c'.stage = c.stage := by
  unfold readerStep at h
  grind [Connection.readerAt]

/-- A response object that names the file, with the other three members. -/
def Reports (object : Option ResponseObject) (filename : String) : Prop :=
  ∃ fid size url, object = some ⟨some fid, some filename, some size, some url⟩

lemma Reports.filename_eq {object : Option ResponseObject} {f g : String}
    (hf : Reports object f) (hg : Reports object g) : f = g := by
  obtain ⟨_, _, _, rfl⟩ := hf
  obtain ⟨_, _, _, h⟩ := hg
  cases h
  rfl

instance (object : Option ResponseObject) (filename : String) :
    Decidable (Reports object filename) :=
  decidable_of_iff (∃ o ∈ object, o.fid.isSome ∧ o.fileName = some filename ∧ o.size.isSome ∧
    o.fileUrl.isSome) <| by
      constructor
      · rintro ⟨⟨fid, name, size, url⟩, rfl, hfid, rfl, hsize, hurl⟩
        obtain ⟨fid, rfl⟩ := Option.isSome_iff_exists.mp hfid
        obtain ⟨size, rfl⟩ := Option.isSome_iff_exists.mp hsize
        obtain ⟨url, rfl⟩ := Option.isSome_iff_exists.mp hurl
        exact ⟨fid, size, url, rfl⟩
      · rintro ⟨fid, size, url, rfl⟩
        exact ⟨_, rfl, rfl, rfl, rfl, rfl⟩

/-- With success a file is answered by its name. -/
def NamesFile (s : State) : Event → Prop
  | .on i (.created content) => ∀ c ∈ s.connections[i]?, ∀ request ∈ c.unanswered.head?,
      ∃ object, content = .bytes object ∧ Reports object request.filename
  | _ => True

/-- What is answered with success names no other file than the one that was posted. -/
def NamesNoOther (s : State) : Event → Prop
  | .on i (.created (.bytes object)) => ∀ c ∈ s.connections[i]?,
      ∀ request ∈ c.unanswered.head?, ∀ filename, Reports object filename →
        filename = request.filename
  | _ => True

lemma NamesFile.namesNoOther {e : Event} (he : NamesFile s e) : NamesNoOther s e := by
  cases e with
  | write | retryPutQueue | caller | channelActive => trivial
  | on i action =>
    cases action with
    | writer | writerFails | reader | failed | close | channelInactive => trivial
    | created content =>
      cases content with
      | unreadable => trivial
      | bytes object =>
        intro c hc request hrequest filename hrep
        obtain ⟨object', hobject, hreports⟩ := he c hc request hrequest
        cases hobject
        exact hrep.filename_eq hreports

instance (content : Content) (filename : String) :
    Decidable (∃ object, content = .bytes object ∧ Reports object filename) :=
  match content with
  | .unreadable => isFalse nofun
  | .bytes object => decidable_of_iff (Reports object filename)
      ⟨fun h => ⟨object, rfl, h⟩, fun ⟨_, heq, h⟩ => Content.bytes.inj heq ▸ h⟩

instance (s : State) : ∀ e, Decidable (NamesFile s e)
  | .on _ (.created _) => inferInstanceAs (Decidable (∀ c ∈ _, ∀ request ∈ _, ∃ _, _ ∧ _))
  | .on _ .writer | .on _ .writerFails | .on _ (.reader _) | .on _ .failed | .on _ .close
  | .on _ .channelInactive | .write _ | .retryPutQueue | .caller _ _ | .channelActive =>
    inferInstanceAs (Decidable True)

/-- The repository of its type has the metadata. -/
def InRepository (r : Repositories) : FileMeta → Prop
  | .log fileMeta => ∃ d ∈ r.logs.docs, d.body = fileMeta
  | .attachment fileMeta => ∃ d ∈ r.attachments.docs, d.body = fileMeta
  | .crash e => ∃ d ∈ r.crashes.docs, d.body = e.body

lemma inRepository_save (r : Repositories) (f : FileMeta) : InRepository (r.save f).1 f := by
  cases f with
  | log fileMeta => exact ⟨_, Collection.mem_save.mpr (.inl rfl), rfl⟩
  | attachment fileMeta => exact ⟨_, Collection.mem_save.mpr (.inl rfl), rfl⟩
  | crash e => exact ⟨_, Collection.mem_save.mpr (.inl rfl), rfl⟩

lemma InRepository.notices {r : Repositories} {f : FileMeta} (h : InRepository r f)
    (l : List LogMessage) : InRepository { r with notices := l } f := by
  cases f <;> exact h

/-! ### The handling of a response -/

section Handled

variable {fault : Option Fault} {response entry : Item} {filename fid url : String} {size : ℤ}
  {fileMeta : FileMeta}

/-- The notice behind a save: there is none that can be built of a crash report without a date,
and none is sent of a file that is no crash report. -/
lemma notice_save (fileMeta : FileMeta) (r : Repositories) (fid : String) (size : ℤ) :
    (notice (r.save (setFid fid size fileMeta)).2 = none ↔
      ∃ report, fileMeta = .crash report ∧ report.body.date = none) ∧
    (notice (r.save (setFid fid size fileMeta)).2 = some [] ↔
      ∀ report, fileMeta ≠ .crash report) := by
  cases fileMeta <;> simp [Repositories.save, setFid, notice, LogMessage.createCrash]

/-- Behind the save the handling stops, with the entry in the map, at a notice that cannot be
built or sent. -/
lemma handle_stops
    (hobject : response.body.responseObject = some ⟨some fid, some filename, some size, some url⟩)
    (hentry : s.weedMetaMap (getBaseName filename) = some entry)
    (hmeta : entry.body.fileMeta = some fileMeta) (hfault : fault ≠ some .save)
    (hstops : ¬ ∀ report, fileMeta = .crash report →
      report.body.date.isSome ∧ fault ≠ some .send) :
    ∃ withId, handle fault response s = { s with
      weedMetaMap :=
        Function.update s.weedMetaMap (getBaseName filename) (some (withFileMeta entry withId))
      repositories := (s.repositories.save (setFid fid size fileMeta)).1
      history.handled := s.history.handled ++ [filename]
      history.saved := s.history.saved ++ [(filename, setFid fid size fileMeta)] } := by
  obtain ⟨hnone, hnil⟩ := notice_save fileMeta s.repositories fid size
  refine ⟨(s.repositories.save (setFid fid size fileMeta)).2, ?_⟩
  push Not at hstops
  obtain ⟨report, hreport, hthrows⟩ := hstops
  cases hnotice : notice (s.repositories.save (setFid fid size fileMeta)).2 with
  | none => simp [handle, hobject, hentry, saveFid, hmeta, hfault, hnotice]
  | some notices =>
    have hdate : report.body.date.isSome := by
      by_contra hdate
      rw [hnone.mpr ⟨report, hreport, Option.not_isSome_iff_eq_none.mp hdate⟩] at hnotice
      cases hnotice
    have hnotices : notices ≠ [] := by
      rintro rfl
      exact hnil.mp hnotice report hreport
    simp [handle, hobject, hentry, saveFid, hmeta, hthrows hdate, hnotice, hnotices]

/-- Otherwise it comes to its end. -/
lemma handle_ends (hid : response.id = none)
    (hobject : response.body.responseObject = some ⟨some fid, some filename, some size, some url⟩)
    (hentry : s.weedMetaMap (getBaseName filename) = some entry)
    (hmeta : entry.body.fileMeta = some fileMeta) (hfault : fault ≠ some .save)
    (hends : ∀ report, fileMeta = .crash report →
      report.body.date.isSome ∧ fault ≠ some .send) :
    ∃ notices, handle fault response s = { s with
      weedMetaMap := Function.update s.weedMetaMap (getBaseName filename) none
      repositories := { (s.repositories.save (setFid fid size fileMeta)).1 with notices := notices }
      disk := Function.update s.disk filename none
      history.handled := s.history.handled ++ [filename]
      history.saved := s.history.saved ++ [(filename, setFid fid size fileMeta)] } := by
  obtain ⟨hnone, hnil⟩ := notice_save fileMeta s.repositories fid size
  obtain ⟨notices, hnotice⟩ : ∃ notices,
      notice (s.repositories.save (setFid fid size fileMeta)).2 = some notices := by
    refine Option.ne_none_iff_exists'.mp fun h => ?_
    obtain ⟨report, hreport, hdate⟩ := hnone.mp h
    have hsome := (hends report hreport).1
    rw [hdate] at hsome
    cases hsome
  have hsent : ¬ (fault = some .send ∧ notices ≠ []) := by
    rintro ⟨hsend, hnotices⟩
    refine hnotices (Option.some_inj.mp (hnotice.symm.trans (hnil.mpr ?_)))
    exact fun report hreport => (hends report hreport).2 hsend
  refine ⟨(s.repositories.save (setFid fid size fileMeta)).1.notices ++ notices, ?_⟩
  simp [handle, hobject, hentry, saveFid, hmeta, hfault, hnotice, hsent, finish, hid]

/-- The outcomes of the handling of a response to a file: the map has no entry for it, or one
without metadata; the save throws, or something behind the save; it comes to its end. -/
inductive Handled (fault : Option Fault) (fid filename : String) (size : ℤ) (s : State) :
    State → Prop
  | absent (hentry : s.weedMetaMap (getBaseName filename) = none) :
      Handled fault fid filename size s { s with
        disk := Function.update s.disk filename none
        history.handled := s.history.handled ++ [filename] }
  | empty (entry : Item) (hentry : s.weedMetaMap (getBaseName filename) = some entry)
      (hmeta : entry.body.fileMeta = none) : Handled fault fid filename size s { s with
        weedMetaMap := Function.update s.weedMetaMap (getBaseName filename) none
        disk := Function.update s.disk filename none
        history.handled := s.history.handled ++ [filename] }
  | unsaved (entry : Item) (fileMeta : FileMeta)
      (hentry : s.weedMetaMap (getBaseName filename) = some entry)
      (hmeta : entry.body.fileMeta = some fileMeta) (hfault : fault = some .save) :
      Handled fault fid filename size s { s with
        weedMetaMap := Function.update s.weedMetaMap (getBaseName filename)
          (some (withFileMeta entry (setFid fid size fileMeta)))
        history.handled := s.history.handled ++ [filename] }
  | stopped (entry : Item) (fileMeta withId : FileMeta)
      (hentry : s.weedMetaMap (getBaseName filename) = some entry)
      (hmeta : entry.body.fileMeta = some fileMeta) (hfault : fault ≠ some .save)
      (hstops : ¬ ∀ report, fileMeta = .crash report →
        report.body.date.isSome ∧ fault ≠ some .send) :
      Handled fault fid filename size s { s with
        weedMetaMap :=
          Function.update s.weedMetaMap (getBaseName filename) (some (withFileMeta entry withId))
        repositories := (s.repositories.save (setFid fid size fileMeta)).1
        history.handled := s.history.handled ++ [filename]
        history.saved := s.history.saved ++ [(filename, setFid fid size fileMeta)] }
  | ended (entry : Item) (fileMeta : FileMeta) (notices : List LogMessage)
      (hentry : s.weedMetaMap (getBaseName filename) = some entry)
      (hmeta : entry.body.fileMeta = some fileMeta) (hfault : fault ≠ some .save)
      (hends : ∀ report, fileMeta = .crash report →
        report.body.date.isSome ∧ fault ≠ some .send) :
      Handled fault fid filename size s { s with
        weedMetaMap := Function.update s.weedMetaMap (getBaseName filename) none
        repositories :=
          { (s.repositories.save (setFid fid size fileMeta)).1 with notices := notices }
        disk := Function.update s.disk filename none
        history.handled := s.history.handled ++ [filename]
        history.saved := s.history.saved ++ [(filename, setFid fid size fileMeta)] }

/-- **The handling of a response**, which has no id, and names a file. -/
theorem handled_of_handle (fault : Option Fault) (hid : response.id = none)
    (hobject : response.body.responseObject = some ⟨some fid, some filename, some size, some url⟩)
    (s : State) : Handled fault fid filename size s (handle fault response s) := by
  cases hentry : s.weedMetaMap (getBaseName filename) with
  | none =>
    have heq : handle fault response s = { s with
        disk := Function.update s.disk filename none
        history.handled := s.history.handled ++ [filename] } := by
      simp [handle, hobject, hentry, finish, hid]
    rw [heq]
    exact .absent hentry
  | some entry =>
    cases hmeta : entry.body.fileMeta with
    | none =>
      have heq : handle fault response s = { s with
          weedMetaMap := Function.update s.weedMetaMap (getBaseName filename) none
          disk := Function.update s.disk filename none
          history.handled := s.history.handled ++ [filename] } := by
        simp [handle, hobject, hentry, saveFid, hmeta, finish, hid]
      rw [heq]
      exact .empty entry hentry hmeta
    | some fileMeta =>
      by_cases hfault : fault = some .save
      · have heq : handle fault response s = { s with
            weedMetaMap := Function.update s.weedMetaMap (getBaseName filename)
              (some (withFileMeta entry (setFid fid size fileMeta)))
            history.handled := s.history.handled ++ [filename] } := by
          simp [handle, hobject, hentry, saveFid, hmeta, hfault]
        rw [heq]
        exact .unsaved entry fileMeta hentry hmeta hfault
      · by_cases hends : ∀ report, fileMeta = .crash report →
          report.body.date.isSome ∧ fault ≠ some .send
        · obtain ⟨notices, heq⟩ := handle_ends hid hobject hentry hmeta hfault hends
          rw [heq]
          exact .ended entry fileMeta notices hentry hmeta hfault hends
        · obtain ⟨withId, heq⟩ := handle_stops hobject hentry hmeta hfault hends
          rw [heq]
          exact .stopped entry fileMeta withId hentry hmeta hfault hends

/-- With a response that names no file nothing is done. -/
lemma handle_silent (fault : Option Fault)
    (hrep : ¬ ∃ filename, Reports response.body.responseObject filename) (s : State) :
    handle fault response s = s := by
  unfold handle
  split
  · next fid filename size url hobject => exact absurd ⟨filename, fid, size, url, hobject⟩ hrep
  · rfl

/-- What the handling of a response leaves alone. -/
structure Aside (s t : State) : Prop where
  connections : t.connections = s.connections
  queueRepository : t.queueRepository = s.queueRepository
  writeQueue : t.writeQueue = s.writeQueue
  readQueue : t.readQueue = s.readQueue
  callers : t.callers = s.callers
  connected : t.connected = s.connected
  serverError : t.serverError = s.serverError
  written : t.history.written = s.history.written
  given : t.history.given = s.history.given
  stored : t.history.stored = s.history.stored

lemma aside_handle (fault : Option Fault) (hid : response.id = none) (s : State) :
    Aside s (handle fault response s) := by
  by_cases hrep : ∃ filename, Reports response.body.responseObject filename
  · obtain ⟨filename, fid, size, url, hobject⟩ := hrep
    have hmove := handled_of_handle fault hid hobject s
    generalize handle fault response s = t at hmove ⊢
    cases hmove <;> constructor <;> rfl
  · rw [handle_silent fault hrep]
    constructor <;> rfl

/-- A response to a file is handled by that, however the handling ends. -/
lemma mem_handled_handle (fault : Option Fault) (hid : response.id = none)
    (hrep : Reports response.body.responseObject filename) (s : State) :
    filename ∈ (handle fault response s).history.handled := by
  obtain ⟨fid, size, url, hobject⟩ := hrep
  have hmove := handled_of_handle fault hid hobject s
  generalize handle fault response s = t at hmove ⊢
  cases hmove <;> exact List.mem_append_right _ (List.mem_singleton.mpr rfl)

lemma handled_subset_handle (fault : Option Fault) (hid : response.id = none) (s : State) :
    s.history.handled ⊆ (handle fault response s).history.handled := by
  by_cases hrep : ∃ filename, Reports response.body.responseObject filename
  · obtain ⟨filename, fid, size, url, hobject⟩ := hrep
    have hmove := handled_of_handle fault hid hobject s
    generalize handle fault response s = t at hmove ⊢
    cases hmove <;> exact List.subset_append_left _ _
  · rw [handle_silent fault hrep]
    exact List.Subset.refl _

/-- Nothing takes a save back. -/
lemma saved_subset_handle (fault : Option Fault) (hid : response.id = none) (s : State) :
    s.history.saved ⊆ (handle fault response s).history.saved := by
  by_cases hrep : ∃ filename, Reports response.body.responseObject filename
  · obtain ⟨filename, fid, size, url, hobject⟩ := hrep
    have hmove := handled_of_handle fault hid hobject s
    generalize handle fault response s = t at hmove ⊢
    cases hmove with
    | absent | empty | unsaved => exact List.Subset.refl _
    | stopped | ended => exact List.subset_append_left _ _
  · rw [handle_silent fault hrep]
    exact List.Subset.refl _

/-- The handling of a response to another file leaves the entry in the map. -/
lemma weedMetaMap_handle {key : String} (fault : Option Fault) (hid : response.id = none)
    (hother : ∀ filename, Reports response.body.responseObject filename →
      getBaseName filename ≠ key) (s : State) :
    (handle fault response s).weedMetaMap key = s.weedMetaMap key := by
  by_cases hrep : ∃ filename, Reports response.body.responseObject filename
  · obtain ⟨filename, hrep⟩ := hrep
    have hne := hother filename hrep
    obtain ⟨fid, size, url, hobject⟩ := hrep
    have hmove := handled_of_handle fault hid hobject s
    generalize handle fault response s = t at hmove ⊢
    cases hmove with
    | absent => rfl
    | empty | unsaved | stopped | ended => simp only [Function.update_of_ne hne.symm]
  · rw [handle_silent fault hrep]

/-- The handling of a response makes no entry. -/
lemma weedMetaMap_handle_none {key : String} (fault : Option Fault) (hid : response.id = none)
    (h : s.weedMetaMap key = none) : (handle fault response s).weedMetaMap key = none := by
  by_cases hother : ∀ filename, Reports response.body.responseObject filename →
      getBaseName filename ≠ key
  · rw [weedMetaMap_handle fault hid hother, h]
  · push Not at hother
    obtain ⟨filename, ⟨fid, size, url, hobject⟩, rfl⟩ := hother
    have hmove := handled_of_handle fault hid hobject s
    generalize handle fault response s = t at hmove ⊢
    cases hmove with
    | absent => exact h
    | empty | ended => simp only [Function.update_self]
    | unsaved _ _ hentry | stopped _ _ _ hentry =>
      rw [h] at hentry
      cases hentry

end Handled

/-! ### Responses -/

/-- The outcomes of a response with success. -/
inductive Answered (s : State) (c c' : Connection) (content : Content) : State → Prop
  | unreadable (request : Request) (hrequests : c.unanswered = request :: c'.unanswered)
      (hcontent : content = .unreadable) (hhand : c'.writer.weedFSMeta = c.writer.weedFSMeta) :
      Answered s c c' content { s with
        serverError := false
        history.stored := s.history.stored ++ [request.filename] }
  | queued (request : Request) (hrequests : c.unanswered = request :: c'.unanswered)
      (object : Option ResponseObject) (hcontent : content = .bytes object)
      (hhand : c'.writer.weedFSMeta = c.writer.weedFSMeta) :
      Answered s c c' content { s with
        serverError := false
        readQueue := s.readQueue ++ [⟨none, .createResponse object⟩]
        history.stored := s.history.stored ++ [request.filename] }

theorem answered_of_created {content : Content}
    (h : created capacity content c s = some (t, c')) : Answered s c c' content t := by
  unfold created at h
  split at h
  · rename_i request requests _ hrequests
    cases content with
    | unreadable =>
      cases h
      exact .unreadable request hrequests rfl rfl
    | bytes object =>
      simp only at h
      split_ifs at h
      cases h
      exact .queued request hrequests object rfl rfl
  · cases h

lemma stage_created {content : Content} (h : created capacity content c s = some (t, c')) :
    c'.stage = c.stage := by
  unfold created at h
  grind

lemma hand_created {content : Content} (h : created capacity content c s = some (t, c')) :
    c'.writer.weedFSMeta = c.writer.weedFSMeta := by
  cases answered_of_created h with
  | unreadable _ _ _ hhand => exact hhand
  | queued _ _ _ _ hhand => exact hhand

/-- A response with success that names its file is queued. -/
lemma answered_of_namesFile {i : ℕ} {content : Content} (hi : s.connections[i]? = some c)
    (he : NamesFile s (.on i (.created content)))
    (h : created capacity content c s = some (t, c')) :
    ∃ request object, c.unanswered = request :: c'.unanswered ∧
      Reports object request.filename ∧ c'.writer.weedFSMeta = c.writer.weedFSMeta ∧
      t = { s with
        serverError := false
        readQueue := s.readQueue ++ [⟨none, .createResponse object⟩]
        history.stored := s.history.stored ++ [request.filename] } := by
  cases answered_of_created h with
  | unreadable request hrequests hcontent hhand =>
    obtain ⟨object, hobject, -⟩ := he c hi request (by rw [hrequests]; rfl)
    rw [hcontent] at hobject
    cases hobject
  | queued request hrequests object hcontent hhand =>
    obtain ⟨object', hobject, hrep⟩ := he c hi request (by rw [hrequests]; rfl)
    rw [hcontent] at hobject
    cases hobject
    exact ⟨request, object, hrequests, hrep, hhand, rfl⟩

/-- What a response with an error does. -/
theorem failed_eq (h : failed c s = some (t, c')) : ∃ request,
    c.unanswered = request :: c'.unanswered ∧ c'.writer.weedFSMeta = c.writer.weedFSMeta ∧
      t = { s with serverError := true } := by
  unfold failed at h
  split at h
  · rename_i request requests _ hrequests
    cases h
    exact ⟨request, hrequests, rfl, rfl⟩
  · cases h

lemma stage_failed (h : failed c s = some (t, c')) : c'.stage = c.stage := by
  unfold failed at h
  grind

/-! ### Channels -/

/-- What a new connection changes. -/
theorem channelActive_eq (h : channelActive s = some t) : t = { s with
    connected := true
    serverError := false
    connections := s.connections ++ [newConnection] } := by
  unfold channelActive at h
  split_ifs at h
  exact (Option.some_inj.mp h).symm

/-- A channel that is closed is inactive, and that is all. -/
theorem close_eq (h : close c s = some (t, c')) : t = s ∧ c' = { c with stage := .inactive } := by
  unfold close at h
  split_ifs at h
  cases h
  exact ⟨rfl, rfl⟩

/-- A statement of `channelInactive` is about the flags, and leaves what the threads have. -/
theorem channelInactive_eq (h : channelInactive c s = some (t, c')) :
    (∃ connected, t = { s with connected := connected }) ∧ c'.unanswered = c.unanswered ∧
      c'.writer.weedFSMeta = c.writer.weedFSMeta ∧ c'.active = c.active := by
  unfold channelInactive at h
  cases hstage : c.stage <;> simp only [hstage] at h <;> cases h <;>
    exact ⟨⟨_, rfl⟩, rfl, rfl, by simp [Connection.active, hstage]⟩

/-- A step of a connection. -/
theorem on_eq {i : ℕ} {action : Action} (h : step capacity s (.on i action) = some t) :
    ∃ c u c', s.connections[i]? = some c ∧ act capacity action c s = some (u, c') ∧
      t = { u with connections := u.connections.set i c' } := by
  simp only [step] at h
  cases hi : s.connections[i]? with
  | none => simp [hi] at h
  | some c =>
    simp only [hi] at h
    obtain ⟨⟨u, c'⟩, hact, rfl⟩ := Option.map_eq_some_iff.mp h
    exact ⟨c, u, c', rfl, hact, rfl⟩

end Logful.WeedFSSteps
