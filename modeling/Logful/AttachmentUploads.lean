import Logful.ClientRestController
import Logful.WeedFSInvariant
import Logful.WeedFSRetry

/-!
Uploads of attachments under one key, from the file that a route writes to the fid that
`readAttachment` finds.

The file of an upload goes by the key and its extension, and the metadata by the key alone. The
reader takes the metadata out of the map at the first response that finds it there, and nothing
replaces a document that is there. So the file that this response answers is the one that is
found, whatever is accepted after it; and if no response finds the metadata, there is none.
-/

namespace Logful.AttachmentUploads

open Logful.Documents Logful.Entity Logful.JavaText Logful.Paths Logful.Runs Logful.StringUtil
open Logful.WeedFSClientService Logful.WeedFSInvariant Logful.WeedFSObjects Logful.WeedFSSteps

/-! ### LogRestController.readAttachment -/

inductive ReadError
  | badRequest | notFound
  deriving DecidableEq

/-- The fid of the attachment that is read, if it has one. -/
def readAttachment (attachments : Collection ObjectId AttachFileMeta) (id : String) :
    Except ReadError (Option String) :=
  match split '.' id with
  | [attachmentId, extension] =>
    if extension = "jpg" then
      match attachments.findOne fun m => m.attachmentId = some attachmentId with
      | some d => .ok d.body.fid
      | none => .error .notFound
    else .error .badRequest
  | _ => .error .badRequest

/-! ### The uploads and the service -/

structure Upload where
  extension : String
  content : List UInt8
  deriving DecidableEq

/-- The service; what the file store has under its fids; and the uploads whose file was written,
and those that were accepted, the oldest first. -/
structure State where
  service : WeedFSClientService.State
  stored : String → Option (List UInt8)
  transferred : List Upload
  accepted : List Upload

/-- The record that the route gives to `write`. -/
def record (key : String) (u : Upload) : WeedFSMeta :=
  .create (some key) (some u.extension) (.attachment (.create key))

/-- A route writes its file, and then calls `write`, which takes its steps; the threads take
theirs, and a file is stored under a fid and answered with success. -/
inductive Event
  | transferTo (u : Upload)
  | write (u : Upload)
  | caller (i : ℕ)
  | writer
  | created (fid : String) (size : ℤ) (fileUrl : String)
  | reader
  deriving DecidableEq

def step (key : String) (capacity : ℕ) (s : State) : Event → Option State
  | .transferTo u => some { s with
      service := { s.service with
        disk := Function.update s.service.disk (record key u).filename (some u.content) }
      transferred := s.transferred ++ [u] }
  | .write u => (WeedFSClientService.step capacity s.service (.write (record key u))).map
      fun service => { s with service := service, accepted := s.accepted ++ [u] }
  | .caller i => (WeedFSClientService.step capacity s.service (.caller i false)).map
      fun service => { s with service := service }
  | .writer => (WeedFSClientService.step capacity s.service (.on 0 .writer)).map
      fun service => { s with service := service }
  | .created fid size fileUrl =>
    match s.service.connections[0]?.bind fun c => c.unanswered.head? with
    | none => none
    | some request =>
      let object : ResponseObject := ⟨some fid, some request.filename, some size, some fileUrl⟩
      (WeedFSClientService.step capacity s.service
          (.on 0 (.created (.bytes (some object))))).map fun service =>
        { s with
          service := service
          stored := Function.update s.stored fid (some request.content) }
  | .reader => (WeedFSClientService.step capacity s.service (.on 0 (.reader none))).map
      fun service => { s with service := service }

/-- An extension as `getExtension` makes it, with neither separators nor dots. -/
def Plain (u : Upload) : Prop := ∀ ch ∈ u.extension.toList, isSeparator ch = false ∧ ch ≠ '.'

/-- A route writes its file first; and the file store gives every file a fid of its own, that no
metadata has yet. -/
def Expected (s : State) : Event → Prop
  | .write u => u ∈ s.transferred ∧ Plain u
  | .created fid _ _ => s.stored fid = none ∧
    ∀ d ∈ s.service.repositories.attachments.docs, d.body.fid ≠ some fid
  | _ => True

/-- The service with an open connection, before the first upload. -/
def opened (records : Collection ObjectId WeedFSMeta) (repositories : Repositories)
    (disk : Disk) (stored : String → Option (List UInt8)) : State :=
  ⟨WeedFSRetry.opened records repositories disk, stored, [], []⟩

/-- Everything that was queued has been put, sent and answered, and the responses are handled. -/
structure Quiet (s : WeedFSClientService.State) : Prop where
  callers : ∀ d ∈ s.callers, d.weedFSMetaList = []
  writeQueue : s.writeQueue = []
  readQueue : s.readQueue = []
  connections : ∀ c ∈ s.connections, c.writer.weedFSMeta = none ∧ c.unanswered = []

/-- The key has metadata, and what is read under the key is the content. -/
structure Reads (key : String) (s : State) (content : List UInt8) : Prop where
  saved : ∃ d ∈ s.service.repositories.attachments.docs, d.body.attachmentId = some key
  current : ∃ fid, readAttachment s.service.repositories.attachments (key ++ ".jpg") =
    .ok (some fid) ∧ s.stored fid = some content

/-- What is read under the key is the upload that was accepted last. -/
def ReadsLast (key : String) (s : State) : Prop :=
  ∀ u ∈ s.accepted.getLast?, Reads key s u.content

/-- The oldest document of the key. -/
def found (key : String) (s : State) : Option (Document ObjectId AttachFileMeta) :=
  s.service.repositories.attachments.findOne fun m => m.attachmentId = some key

/-- In the step the reader takes a response while the map has an entry for the key. -/
def Finds (key : String) (s : State) (e : Event) : Prop :=
  e = .reader ∧ (∃ c ∈ s.service.connections[0]?, Takes s.service c) ∧
    s.service.weedMetaMap key ≠ none

def fidOf (response : Item) : Option String :=
  response.body.responseObject.bind ResponseObject.fid

/-- The file that the oldest response answers, as it was posted. -/
def answeredFile (s : State) : Option (List UInt8) :=
  s.service.readQueue.head?.bind fun response => (fidOf response).bind s.stored

/-- There is a first response that the reader takes while the map has an entry for the key, and
the file that it answers has the content. -/
def FirstAnswers (key : String) (capacity : ℕ) (content : List UInt8) (s : State)
    (l : List Event) : Prop :=
  ∃ p q t, l = p ++ .reader :: q ∧ run (step key capacity) s p = some t ∧
    EachStep (step key capacity) (fun s e => ¬ Finds key s e) s p ∧
    Finds key t .reader ∧ answeredFile t = some content

/-- The document that is found for the key before the run names the content; or there is none,
and the first response that finds the metadata answers a file with the content. -/
def FirstHas (key : String) (capacity : ℕ) (content : List UInt8) (s : State)
    (l : List Event) : Prop :=
  (∀ d ∈ found key s, d.body.fid.bind s.stored = some content) ∧
    (found key s = none → FirstAnswers key capacity content s l)

/-! ### Steps of the service -/

section Service

variable {key : String} {capacity : ℕ} {s t : WeedFSClientService.State}
  {e : WeedFSClientService.Event}

/-- Only attachments are written, under the key; nothing is retried, and no call fails. -/
def Uploads (key : String) (s : WeedFSClientService.State) : WeedFSClientService.Event → Prop
  | .write m => ∃ u, Plain u ∧ m = record key u
  | .retryPutQueue => False
  | .on i (.reader fault) => NamesFile s (.on i (.reader fault)) ∧ fault = none
  | e => NamesFile s e

lemma Uploads.namesFile (he : Uploads key s e) : NamesFile s e := by
  cases e with
  | write | retryPutQueue | caller | channelActive => trivial
  | on i action =>
    cases action with
    | reader => trivial
    | created => exact he
    | writer | writerFails | failed | close | channelInactive => trivial

/-- Every object, name and entry is that of an upload. -/
structure Base (key : String) (s : WeedFSClientService.State) : Prop where
  noneFinds : NoneFinds s
  responses : ∀ x ∈ s.readQueue, x.id = none ∧ ∃ filename, Reports x.body.responseObject filename
  objects : ∀ x, Object s x → ∃ u, Plain u ∧ x.body = record key u
  named : ∀ filename, Named s filename → getBaseName filename = key
  entries : ∀ entry ∈ s.weedMetaMap key, ∃ u, Plain u ∧ entry.body = record key u

lemma Base.ids (hs : Base key s) : ∀ x ∈ s.readQueue, x.id = none :=
  fun x hx => (hs.responses x hx).1

/-- **The handling of a response**: without an entry the file is deleted; with one the metadata is
saved besides, and the entry removed. -/
lemma Base.handle_eq {response : Item} {queue : List Item} (hs : Base key s)
    (hqueue : s.readQueue = response :: queue) :
    let t := handle none response { s with readQueue := queue }
    (s.weedMetaMap key = none → t.repositories = s.repositories) ∧
      (s.weedMetaMap key ≠ none → ∃ fid size, fidOf response = some fid ∧
        t.repositories.attachments = s.repositories.attachments.save
          ⟨none, { AttachFileMeta.create key with fid := some fid, size := size }⟩) ∧
      t.weedMetaMap key = none := by
  intro t
  have hmem : response ∈ s.readQueue := by rw [hqueue]; exact List.mem_cons_self
  obtain ⟨hid, filename, hrep⟩ := hs.responses response hmem
  have hbase : getBaseName filename = key := hs.named filename (.answered response hmem hrep)
  obtain ⟨fid, size, url, hobject⟩ := hrep
  have hfid : fidOf response = some fid := by rw [fidOf, hobject]; rfl
  have hmove := handled_of_handle none hid hobject { s with readQueue := queue }
  change Handled none fid filename size _ t at hmove
  rw [← hbase]
  generalize t = t at hmove ⊢
  have hmeta : ∀ entry fileMeta, s.weedMetaMap (getBaseName filename) = some entry →
      entry.body.fileMeta = fileMeta → fileMeta = some (.attachment (.create key)) := by
    rintro entry _ hentry rfl
    obtain ⟨u, -, hbody⟩ := hs.entries entry (hbase ▸ hentry)
    rw [hbody]
    rfl
  cases hmove with
  | absent hentry => exact ⟨fun _ => rfl, fun hsome => absurd hentry hsome, hentry⟩
  | empty entry hentry hnone => cases hmeta entry _ hentry hnone
  | unsaved entry f hentry hf hfault => cases hfault
  | stopped entry f withId hentry hf hfault hstops =>
    cases hmeta entry _ hentry hf
    refine absurd (fun report hreport => ?_) hstops
    cases hreport
  | ended entry f notices hentry hf =>
    cases hmeta entry _ hentry hf
    refine ⟨fun hnone => ?_, fun _ => ⟨fid, size, hfid, ?_⟩, by simp only [Function.update_self]⟩
    · rw [hnone] at hentry
      cases hentry
    · rw [hbase]
      rfl

/-- **Every step keeps it.** -/
lemma base_step (hkey : ∀ ch ∈ key.toList, isSeparator ch = false) (hs : Base key s)
    (he : Uploads key s e) (h : WeedFSClientService.step capacity s e = some t) : Base key t := by
  have hids := hs.ids
  have hobjects : ∀ x, Object t x → ∃ u, Plain u ∧ x.body = record key u := by
    intro x hx
    rcases object_step hids h hx with hx | ⟨m, rfl, rfl⟩ | ⟨doc, -, -, -, d, hd, hfind⟩
    · exact hs.objects x hx
    · exact he
    · exact absurd hfind (hs.noneFinds d hd).2
  have hne : e ≠ .retryPutQueue := by
    rintro rfl
    exact he
  refine ⟨noneFinds_step hids hs.noneFinds hne h, reports_step hs.responses he.namesFile h,
    hobjects, fun filename hname => ?_, fun entry hentry => ?_⟩
  · rcases named_step hids he.namesFile.namesNoOther h hname with hname | ⟨c, hc, x, hx, rfl⟩
    · exact hs.named filename hname
    · obtain ⟨u, hplain, hbody⟩ := hs.objects x (.inHand c hc hx)
      have hwell : WellFormed (record key u) := wellFormed_create _ hkey hplain
      have hk := hwell.key
      rw [hbody, hwell.getName]
      exact (Option.some_inj.mp hk).symm
  · cases touches_step h with
    | leaves hmap => exact hs.entries entry (hmap ▸ hentry)
    | caller hi hmove =>
      cases hmove with
      | mapped x list k hk =>
        by_cases heq : key = k
        · subst heq
          simp only [Function.update_self, Option.mem_some_iff] at hentry
          subst hentry
          exact hs.objects x (.called _ (List.mem_of_getElem? hi) List.mem_cons_self)
        · simp only [Function.update_of_ne heq] at hentry
          exact hs.entries entry hentry
      | looked | found | begun | decided | queued | keyless | deleted | saved | unsaved =>
        exact hs.entries entry hentry
    | handled fault response queue l hi htakes hqueue =>
      obtain rfl : fault = none := he.2
      have hnone := (hs.handle_eq hqueue).2.2
      have hentry : entry ∈ (handle none response { s with readQueue := queue }).weedMetaMap key :=
        hentry
      rw [hnone] at hentry
      cases hentry

/-- The documents are left alone, but for the reader. -/
lemma repositories_step (he : ∀ i fault, e ≠ .on i (.reader fault))
    (h : WeedFSClientService.step capacity s e = some t) : t.repositories = s.repositories := by
  cases touches_step h with
  | leaves _ _ hrepositories => exact hrepositories
  | caller hi hmove => cases hmove <;> rfl
  | handled => exact absurd rfl (he _ _)

/-- The reader saves the metadata of the response that it takes while there is an entry. -/
lemma repositories_reader {i : ℕ} (hs : Base key s)
    (h : WeedFSClientService.step capacity s (.on i (.reader none)) = some t) :
    ((∃ c ∈ s.connections[i]?, Takes s c) ∧ s.weedMetaMap key ≠ none ∧
      ∃ response ∈ s.readQueue.head?, ∃ fid size, fidOf response = some fid ∧
        t.repositories.attachments = s.repositories.attachments.save
          ⟨none, { AttachFileMeta.create key with fid := some fid, size := size }⟩) ∨
      (¬ ((∃ c ∈ s.connections[i]?, Takes s c) ∧ s.weedMetaMap key ≠ none) ∧
        t.repositories = s.repositories) := by
  obtain ⟨c, u, c', hi, hact, rfl⟩ := on_eq h
  cases readerMove_of_step hact with
  | moved hnot =>
    refine .inr ⟨?_, rfl⟩
    rintro ⟨⟨c₁, hc₁, htakes⟩, -⟩
    obtain rfl : c = c₁ := Option.some_inj.mp (hi.symm.trans hc₁)
    exact hnot htakes
  | handled htakes response queue hqueue =>
    obtain ⟨habsent, hpresent, -⟩ := hs.handle_eq hqueue
    by_cases hentry : s.weedMetaMap key = none
    · exact .inr ⟨fun h => h.2 hentry, habsent hentry⟩
    · obtain ⟨fid, size, hfid, hsave⟩ := hpresent hentry
      exact .inl ⟨⟨c, hi, htakes⟩, hentry, response, by rw [hqueue]; rfl, fid, size, hfid, hsave⟩

lemma Base.disk (hs : Base key s) (disk : Disk) : Base key { s with disk := disk } := by
  refine ⟨hs.noneFinds, hs.responses, fun x hx => hs.objects x ?_, fun filename hname =>
    hs.named filename ?_, hs.entries⟩
  · rcases hx with h | ⟨d, hd, h⟩ | ⟨c, hc, h⟩
    · exact .queued h
    · exact .called d hd h
    · exact .inHand c hc h
  · rcases hname with ⟨c, hc, r, hr, h⟩ | ⟨x, hx, h⟩
    · exact .sent c hc r hr h
    · exact .answered x hx h

end Service

/-! ### Steps of the uploads -/

variable {key : String} {capacity : ℕ} {s t : State} {e : Event}

/-- A step is one of the service, or a route writes a file; and a document keeps the content under
its fid. -/
lemma step_cases (he : Expected s e) (h : step key capacity s e = some t) :
    (∃ disk, t.service = { s.service with disk := disk } ∧ t.stored = s.stored ∧ e ≠ .reader) ∨
      ∃ e', Uploads key s.service e' ∧
        WeedFSClientService.step capacity s.service e' = some t.service ∧
        (e = .reader → e' = .on 0 (.reader none) ∧ t.stored = s.stored) ∧
        (e ≠ .reader → ∀ i fault, e' ≠ .on i (.reader fault)) ∧
        ∀ d ∈ s.service.repositories.attachments.docs,
          d.body.fid.bind t.stored = d.body.fid.bind s.stored := by
  cases e with
  | transferTo u =>
    cases h
    exact .inl ⟨_, rfl, rfl, nofun⟩
  | write u =>
    cases h
    exact .inr ⟨.write (record key u), ⟨u, he.2, rfl⟩, rfl, nofun, fun _ _ _ => nofun,
      fun _ _ => rfl⟩
  | caller i =>
    obtain ⟨service, hservice, rfl⟩ := Option.map_eq_some_iff.mp h
    exact .inr ⟨.caller i false, trivial, hservice, nofun, fun _ _ _ => nofun, fun _ _ => rfl⟩
  | writer =>
    obtain ⟨service, hservice, rfl⟩ := Option.map_eq_some_iff.mp h
    exact .inr ⟨.on 0 .writer, trivial, hservice, nofun, fun _ _ _ => nofun, fun _ _ => rfl⟩
  | reader =>
    obtain ⟨service, hservice, rfl⟩ := Option.map_eq_some_iff.mp h
    exact .inr ⟨.on 0 (.reader none), ⟨trivial, rfl⟩, hservice, fun _ => ⟨rfl, rfl⟩,
      fun hne => absurd rfl hne, fun _ _ => rfl⟩
  | created fid size fileUrl =>
    cases hhead : s.service.connections[0]?.bind fun c => c.unanswered.head? with
    | none => simp [step, hhead] at h
    | some request =>
      simp only [step, hhead] at h
      obtain ⟨service, hservice, rfl⟩ := Option.map_eq_some_iff.mp h
      refine .inr ⟨.on 0 (.created (.bytes (some ⟨some fid, some request.filename, some size,
        some fileUrl⟩))), ?_, hservice, nofun, fun _ _ _ => nofun, fun d hd => ?_⟩
      · intro c hc request' hrequest
        rw [Option.mem_def.mp hc, Option.bind_some, Option.mem_def.mp hrequest,
          Option.some_inj] at hhead
        subst hhead
        exact ⟨_, rfl, fid, size, fileUrl, rfl⟩
      · refine Option.bind_congr fun f hf => Function.update_of_ne ?_ _ _
        rintro rfl
        exact he.2 d hd hf

lemma base_of_step (hkey : ∀ ch ∈ key.toList, isSeparator ch = false) (hs : Base key s.service)
    (he : Expected s e) (h : step key capacity s e = some t) : Base key t.service := by
  rcases step_cases he h with ⟨disk, hservice, -⟩ | ⟨e', huploads, hservice, -⟩
  · rw [hservice]
    exact hs.disk disk
  · exact base_step hkey hs huploads hservice

/-- **What is found** is the same behind a step, with the same content; or the reader has taken a
response while there was an entry, and the new document has the fid of this response. -/
lemma found_step (hs : Base key s.service) (he : Expected s e)
    (h : step key capacity s e = some t) :
    (¬ Finds key s e ∧ found key t = found key s ∧
      ∀ d ∈ found key s, d.body.fid.bind t.stored = d.body.fid.bind s.stored) ∨
      (Finds key s e ∧ t.stored = s.stored ∧ ∃ d, found key t = (found key s).or (some d) ∧
        d.body.fid.bind t.stored = answeredFile s) := by
  rcases step_cases he h with ⟨disk, hservice, hstored, hne⟩ |
    ⟨e', -, hservice, hreader, hother, hstored⟩
  · refine .inl ⟨fun hfinds => hne hfinds.1, ?_, fun _ _ => by rw [hstored]⟩
    rw [found, hservice]
    rfl
  · have hkept : ∀ d ∈ found key s, d.body.fid.bind t.stored = d.body.fid.bind s.stored :=
      fun d hd => hstored d (Collection.findOne_eq_some hd).1
    by_cases he : e = .reader
    · obtain ⟨rfl, hsame⟩ := hreader he
      rcases repositories_reader hs hservice with
        ⟨htakes, hentry, response, hhead, fid, size, hfid, hsave⟩ | ⟨hnot, hrepositories⟩
      · refine .inr ⟨⟨he, htakes, hentry⟩, hsame,
          ⟨Supply.fresh s.service.repositories.attachments.ids,
            { AttachFileMeta.create key with fid := some fid, size := size }⟩, ?_, ?_⟩
        · rw [found, hsave, Collection.findOne_save_new rfl]
          simp [found, AttachFileMeta.create]
        · simp only [answeredFile, Option.mem_def.mp hhead, hsame, Option.bind_some, hfid]
      · refine .inl ⟨fun hfinds => hnot hfinds.2, ?_, hkept⟩
        rw [found, hrepositories]
        rfl
    · refine .inl ⟨fun hfinds => he hfinds.1, ?_, hkept⟩
      rw [found, repositories_step (hother he) hservice]
      rfl

/-! ### Runs -/

lemma base_opened (records : Collection ObjectId WeedFSMeta) (repositories : Repositories)
    (disk : Disk) (stored : String → Option (List UInt8)) :
    Base key (opened records repositories disk stored).service := by
  refine ⟨fun _ h => (List.not_mem_nil h).elim, fun _ h => (List.not_mem_nil h).elim, ?_, ?_,
    fun _ h => (Option.not_mem_none _ h).elim⟩
  · rintro x (h | ⟨d, h, -⟩ | ⟨c, h, hhand⟩)
    · cases h
    · cases h
    · rw [List.mem_singleton.mp h] at hhand
      cases hhand
  · rintro filename (⟨c, h, r, hr, -⟩ | ⟨x, h, -⟩)
    · rw [List.mem_singleton.mp h] at hr
      cases hr
    · cases h

/-- A document that is found stays, and so does the content under its fid. -/
lemma found_of_run {d : Document ObjectId AttachFileMeta} {l : List Event}
    (hkey : ∀ ch ∈ key.toList, isSeparator ch = false) (hs : Base key s.service)
    (hl : EachStep (step key capacity) Expected s l) (h : run (step key capacity) s l = some t)
    (hd : found key s = some d) :
    found key t = some d ∧ d.body.fid.bind t.stored = d.body.fid.bind s.stored := by
  refine (run_invariant_of_eachStep (I := fun t => Base key t.service ∧ found key t = some d ∧
    d.body.fid.bind t.stored = d.body.fid.bind s.stored) ?_ hl ⟨hs, hd, rfl⟩ h).2
  rintro u e v he ⟨hu, hd, hstored⟩ hv
  refine ⟨base_of_step hkey hu he hv, ?_⟩
  rcases found_step hu he hv with ⟨-, hfound, hkept⟩ | ⟨-, hsame, d', hfound, -⟩
  · exact ⟨hfound.trans hd, (hkept d hd).trans hstored⟩
  · rw [hfound, hd, hsame]
    exact ⟨rfl, hstored⟩

/-- When there is no document before, the one that is found names the file that the first
response answers which finds the metadata. -/
lemma found_iff_firstAnswers {l : List Event} (content : List UInt8)
    (hkey : ∀ ch ∈ key.toList, isSeparator ch = false) (hs : Base key s.service)
    (hl : EachStep (step key capacity) Expected s l) (h : run (step key capacity) s l = some t)
    (hnone : found key s = none) :
    (∃ d, found key t = some d ∧ d.body.fid.bind t.stored = some content) ↔
      FirstAnswers key capacity content s l := by
  induction l generalizing s with
  | nil =>
    cases h
    refine iff_of_false ?_ ?_
    · rintro ⟨d, hd, -⟩
      rw [hnone] at hd
      cases hd
    · rintro ⟨p, q, u, hnil, -⟩
      simp at hnil
  | cons e l ih =>
    obtain ⟨u, hu, hrun⟩ := (run_cons_eq_some _).mp h
    have hbase : Base key u.service := base_of_step hkey hs hl.1 hu
    rcases found_step hs hl.1 hu with ⟨hnot, hfound, -⟩ | ⟨hfinds, hsame, d, hfound, hcontent⟩
    · -- the first response is still to come
      rw [ih hbase (hl.2 u hu) hrun (hfound.trans hnone)]
      constructor
      · rintro ⟨p, q, v, rfl, hv, hbefore, hfirst, hanswers⟩
        refine ⟨e :: p, q, v, rfl, ?_, eachStep_cons hnot hu hbefore, hfirst, hanswers⟩
        rw [run_cons, hu]
        exact hv
      · rintro ⟨p, q, v, hsplit, hv, hbefore, hfirst, hanswers⟩
        cases p with
        | nil =>
          obtain ⟨rfl, rfl⟩ := List.cons_eq_cons.mp hsplit
          cases hv
          exact absurd hfirst hnot
        | cons e' p =>
          obtain ⟨rfl, rfl⟩ := List.cons_eq_cons.mp hsplit
          rw [run_cons, hu] at hv
          exact ⟨p, q, v, rfl, hv, hbefore.2 u hu, hfirst, hanswers⟩
    · -- it is handled in this step, and its document is kept
      rw [hnone, Option.none_or] at hfound
      obtain ⟨hkept, hstored⟩ := found_of_run hkey hbase (hl.2 u hu) hrun hfound
      rw [hcontent] at hstored
      obtain rfl := hfinds.1
      constructor
      · rintro ⟨d', hd', hanswers⟩
        obtain rfl : d = d' := Option.some_inj.mp (hkept.symm.trans hd')
        exact ⟨[], l, s, rfl, rfl, trivial, hfinds, hstored.symm.trans hanswers⟩
      · rintro ⟨p, q, v, hsplit, hv, hbefore, -, hanswers⟩
        cases p with
        | nil =>
          cases hv
          exact ⟨d, hkept, hstored.trans hanswers⟩
        | cons e' p =>
          obtain ⟨rfl, -⟩ := List.cons_eq_cons.mp hsplit
          exact absurd hfinds hbefore.1

/-! ### The route -/

lemma files_of_transferTo {file : ClientRestController.MultipartFile} {dir target : String}
    {d d' : ClientRestController.Disk}
    (h : ClientRestController.transferTo file dir target d = (d', false)) :
    d'.files target = some file.bytes := by
  have hcreate : ∀ e : ClientRestController.Disk,
      (e.create target file.bytes).files target = some file.bytes :=
    fun e => Function.update_self ..
  unfold ClientRestController.transferTo at h
  by_cases hdir : d.dirs dir = false ∧ file.fault = some .mkdirs
  · simp [hdir] at h
  rw [if_neg hdir] at h
  by_cases hnew : d.files target = none ∧ file.fault = some .createNewFile
  · simp [hnew] at h
  simp only [if_neg hnew] at h
  split at h <;> cases h
  exact hcreate _

/-- An attachment that is accepted gives `write` the record of an upload under its key, which
is made of hexadecimal digits, and leaves the bytes of the upload in its file. -/
theorem v1UploadAttachment_accepted {env : ClientRestController.Env}
    {load : ClientRestController.Load} {platform : ℤ} {uid appId attachmentId : String}
    {fileSum : Option String} {file : ClientRestController.MultipartFile}
    {d d' : ClientRestController.Disk} {m : WeedFSMeta}
    (h : ClientRestController.v1UploadAttachment env load platform uid appId fileSum attachmentId
      file d = (d', .write m)) :
    ∃ key extension, m = record key ⟨extension, file.bytes⟩ ∧
      (∀ ch ∈ key.toList, isSeparator ch = false ∧ ch ≠ '.') ∧
      d'.files (ClientRestController.storedPath env key (some extension)) = some file.bytes := by
  set key := attachmentKey env.library.md5Hex env.library.toLowerCase platform uid appId
    attachmentId with hkey
  unfold ClientRestController.v1UploadAttachment at h
  split_ifs at h with hroom
  · simp only [← hkey] at h
    split_ifs at h with hempty
    · cases h
    · obtain ⟨extension, hextension⟩ :
          ∃ e, env.library.getExtension file.originalFilename = some e := by
        cases he : env.library.getExtension file.originalFilename with
        | none => simp [he, isEmpty] at hempty
        | some e => exact ⟨e, rfl⟩
      rw [hextension] at h
      unfold ClientRestController.receive at h
      split at h
      · cases h
      · rename_i e htransfer
        simp only at h
        split_ifs at h
        · cases h
        · cases h
        · cases h
          exact ⟨key, extension, rfl,
            fun ch hch => Properties.hexDigits_plain (env.library.md5Hex_hex _ ch hch),
            files_of_transferTo htransfer⟩
  · cases h

/-! ### What is read -/

lemma readAttachment_key (hkey : ∀ ch ∈ key.toList, ch ≠ '.')
    (attachments : Collection ObjectId AttachFileMeta) :
    readAttachment attachments (key ++ ".jpg") =
      match attachments.findOne fun m => m.attachmentId = some key with
      | some d => .ok d.body.fid
      | none => .error .notFound := by
  have hparts : split '.' (key ++ ".jpg") = [key, "jpg"] := by
    have hdot : '.' ∉ key.toList := fun h => hkey '.' h rfl
    have hname : key ++ ".jpg" = (String.singleton '.').intercalate [key, "jpg"] := by
      rw [← String.toList_inj, String.toList_intercalate]
      simp
    rw [hname]
    refine split_intercalate (by simp) ?_ (by simp)
    simpa using hdot
  simp [readAttachment, hparts]

/-- When there is a document, its fid is the one that is resolved. -/
lemma reads_iff_of_found {d : Document ObjectId AttachFileMeta} {content : List UInt8}
    (hkey : ∀ ch ∈ key.toList, ch ≠ '.') (hd : found key s = some d) :
    Reads key s content ↔ d.body.fid.bind s.stored = some content := by
  have hread : readAttachment s.service.repositories.attachments (key ++ ".jpg") =
      .ok d.body.fid := by
    have hfound : s.service.repositories.attachments.findOne _ = some d := hd
    rw [readAttachment_key hkey, hfound]
  obtain ⟨hmem, hattachmentId⟩ := Collection.findOne_eq_some hd
  rw [Option.bind_eq_some_iff]
  constructor
  · rintro ⟨-, fid, hfid, hstored⟩
    rw [hread] at hfid
    exact ⟨fid, Except.ok.inj hfid, hstored⟩
  · rintro ⟨fid, hfid, hstored⟩
    refine ⟨⟨d, hmem, of_decide_eq_true hattachmentId⟩, fid, ?_, hstored⟩
    rw [hread, hfid]

/-- What is read is the content exactly when the document that is found names it. -/
lemma reads_iff {content : List UInt8} (hkey : ∀ ch ∈ key.toList, ch ≠ '.') :
    Reads key s content ↔
      ∃ d, found key s = some d ∧ d.body.fid.bind s.stored = some content := by
  cases hfound : found key s with
  | some d =>
    rw [reads_iff_of_found hkey hfound]
    simp
  | none =>
    refine iff_of_false (fun hreads => ?_) (by simp)
    obtain ⟨fid, hfid, -⟩ := hreads.current
    have hnone : s.service.repositories.attachments.findOne _ = none := hfound
    rw [readAttachment_key hkey, hnone] at hfid
    cases hfid

/-- **When the last upload is the one that is read.** On an open connection that answers every
file with success, after any run in which uploads of one key are accepted, whether or not there is
still something to do: the key has metadata, and what is read under it is the content of the
upload that was accepted last, exactly when the document that is found for the key before names
this content, or there is none and the first response that the reader takes while the map has an
entry for the key answers a file with this content. -/
theorem readsLast_iff_firstHas (key : String) (capacity : ℕ)
    (records : Collection ObjectId WeedFSMeta) (repositories : Repositories) (disk : Disk)
    (stored : String → Option (List UInt8)) (l : List Event) (s : State)
    (hkey : ∀ ch ∈ key.toList, isSeparator ch = false ∧ ch ≠ '.')
    (hl : EachStep (step key capacity) Expected (opened records repositories disk stored) l)
    (h : run (step key capacity) (opened records repositories disk stored) l = some s) :
    ReadsLast key s ↔ ∀ u ∈ s.accepted.getLast?,
      FirstHas key capacity u.content (opened records repositories disk stored) l := by
  have hbase : Base key (opened records repositories disk stored).service :=
    base_opened records repositories disk stored
  have hseparators : ∀ ch ∈ key.toList, isSeparator ch = false := fun ch hch => (hkey ch hch).1
  refine forall₂_congr fun u _ => ?_
  rw [reads_iff fun ch hch => (hkey ch hch).2, FirstHas]
  cases hfound : found key (opened records repositories disk stored) with
  | some d =>
    obtain ⟨hd, hstored⟩ := found_of_run hseparators hbase hl h hfound
    simp [hd, hstored]
  | none =>
    rw [found_iff_firstAnswers u.content hseparators hbase hl h hfound]
    simp

/-! ### Two uploads -/

instance (u : Upload) : Decidable (Plain u) :=
  List.decidableBAll (fun ch => isSeparator ch = false ∧ ch ≠ '.') u.extension.toList

instance : ∀ s e, Decidable (Expected s e)
  | s, .write u => inferInstanceAs (Decidable (u ∈ s.transferred ∧ Plain u))
  | s, .created fid _ _ =>
    have := List.decidableBAll
      (fun d : Document ObjectId AttachFileMeta => d.body.fid ≠ some fid)
      s.service.repositories.attachments.docs
    inferInstanceAs (Decidable (s.stored fid = none ∧
      ∀ d ∈ s.service.repositories.attachments.docs, d.body.fid ≠ some fid))
  | _, .transferTo _ | _, .caller _ | _, .writer | _, .reader => .isTrue trivial

instance (key : String) (s : State) (e : Event) : Decidable (Finds key s e) :=
  inferInstanceAs (Decidable (_ ∧ (∃ c ∈ _, _) ∧ _ ≠ none))

/-- An upload is accepted, and both puts of its record are made. -/
def upload (i : ℕ) (u : Upload) : List Event :=
  [.transferTo u, .write u] ++ List.replicate 4 (.caller i)

/-- Two uploads, the second of which is written over the first before the writer posts a file; up
to the response that the reader takes first. -/
def overwritten : List Event :=
  upload 0 ⟨"jpg", [1]⟩ ++ upload 1 ⟨"jpg", [2]⟩ ++ List.replicate 10 .writer ++
    [.created "f1" 1 "u", .created "f2" 1 "u", .reader]

/-- Two uploads, one after the other. -/
def oneByOne : List Event :=
  upload 0 ⟨"jpg", [1]⟩ ++ List.replicate 5 .writer ++ [.created "f1" 1 "u", .reader, .reader] ++
  upload 1 ⟨"jpg", [2]⟩ ++ List.replicate 5 .writer ++ [.created "f2" 1 "u", .reader, .reader]

def unused : State := opened .empty noRepositories (fun _ => none) fun _ => none

theorem readsLast_iff_firstHas_overwritten :
    ∃ s, run (step "k" 8) unused (overwritten ++ List.replicate 3 .reader) = some s ∧
      s.accepted.getLast? = some ⟨"jpg", [2]⟩ ∧ ReadsLast "k" s := by
  obtain ⟨s, hs⟩ := Option.isSome_iff_exists.mp (show
    (run (step "k" 8) unused (overwritten ++ List.replicate 3 .reader)).isSome by decide)
  have hlast := eq_of_map_run hs (·.accepted.getLast?) (some ⟨"jpg", [2]⟩) (by decide)
  refine ⟨s, hs, hlast, (readsLast_iff_firstHas "k" 8 .empty noRepositories (fun _ => none)
    (fun _ => none) _ s (by simp [isSeparator]) (by decide) hs).mpr
      fun u hu => ⟨nofun, fun _ => ?_⟩⟩
  rw [hlast, Option.mem_some_iff] at hu
  obtain ⟨t, ht⟩ := Option.isSome_iff_exists.mp
    (show (run (step "k" 8) unused overwritten).isSome by decide)
  refine ⟨overwritten, List.replicate 2 .reader, t, rfl, ht, by decide, ?_, ?_⟩
  · exact of_decide_eq_true (eq_of_map_run ht (fun t => decide (Finds "k" t .reader)) true
      (by decide))
  · rw [eq_of_map_run ht answeredFile (some [2]) (by decide), ← hu]

/-- Whether nothing is still to be done. -/
def isQuiet (s : WeedFSClientService.State) : Bool :=
  (s.callers.all fun d => d.weedFSMetaList.isEmpty) && s.writeQueue.isEmpty &&
    s.readQueue.isEmpty &&
    s.connections.all fun c => c.writer.weedFSMeta.isNone && c.unanswered.isEmpty

lemma quiet_of_isQuiet {s : WeedFSClientService.State} (h : isQuiet s = true) : Quiet s := by
  simp only [isQuiet, Bool.and_eq_true, List.isEmpty_iff, List.all_eq_true,
    Option.isNone_iff_eq_none] at h
  obtain ⟨⟨⟨hcallers, hwrite⟩, hread⟩, hconnections⟩ := h
  exact ⟨hcallers, hwrite, hread, hconnections⟩

/-- What is read is not always the upload accepted last: of two uploads, the first was handled
before the second came. -/
theorem not_readsLast_oneByOne :
    ∃ s, run (step "k" 8) unused oneByOne = some s ∧
      EachStep (step "k" 8) Expected unused oneByOne ∧ Quiet s.service ∧
      s.accepted = [⟨"jpg", [1]⟩, ⟨"jpg", [2]⟩] ∧
      readAttachment s.service.repositories.attachments "k.jpg" = .ok (some "f1") ∧
      s.stored "f1" = some [1] ∧ ¬ ReadsLast "k" s := by
  obtain ⟨s, hs⟩ := Option.isSome_iff_exists.mp
    (show (run (step "k" 8) unused oneByOne).isSome by decide)
  have hquiet := eq_of_map_run hs (fun s => isQuiet s.service) true (by decide)
  have haccepted := eq_of_map_run hs (·.accepted) [⟨"jpg", [1]⟩, ⟨"jpg", [2]⟩] (by decide)
  have hresolved := eq_of_map_run hs (fun s => (readAttachment
    s.service.repositories.attachments "k.jpg").toOption) (some (some "f1")) (by decide)
  have hstored := eq_of_map_run hs (·.stored "f1") (some [1]) (by decide)
  have hok : readAttachment s.service.repositories.attachments "k.jpg" = .ok (some "f1") := by
    cases hr : readAttachment s.service.repositories.attachments "k.jpg" with
    | error e => simp [hr, Except.toOption] at hresolved
    | ok fid =>
      rw [hr] at hresolved
      exact congrArg _ (Option.some_inj.mp hresolved)
  refine ⟨s, hs, by decide, quiet_of_isQuiet hquiet, haccepted, hok, hstored, fun hreads => ?_⟩
  obtain ⟨fid, hfid, hcontent⟩ := (hreads ⟨"jpg", [2]⟩ (by rw [haccepted]; rfl)).current
  have hname : "k" ++ ".jpg" = "k.jpg" := by decide
  rw [hname, hok] at hfid
  obtain rfl : "f1" = fid := Option.some_inj.mp (Except.ok.inj hfid)
  rw [hstored] at hcontent
  exact absurd hcontent (by decide)

end Logful.AttachmentUploads
