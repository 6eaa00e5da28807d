import Logful.WeedFSObjects

/-!
What the retry makes of the records in the queue, on a connection that stays open and answers
every file with success.

The reader marks the object that it made of the response, which has no id, and never the
record. So a record is still to be retried when its file has been stored and deleted here, and
the next writer that comes to it finds no file and marks it as deleted.
-/

namespace Logful.WeedFSRetry

open Logful.Documents Logful.Entity Logful.Paths Logful.Runs Logful.WeedFSClientService
open Logful.WeedFSObjects Logful.WeedFSSteps

variable {capacity : ℕ} {records : Collection ObjectId WeedFSMeta} {repositories : Repositories}
  {disk : Disk}

/-- Ticks and their steps, steps of the two threads, which may throw, and answers with
success. -/
def RetryEvent : Event → Prop
  | .retryPutQueue | .caller _ _ | .on _ .writer | .on _ .writerFails | .on _ (.reader _)
  | .on _ (.created _) => True
  | _ => False

/-- The service with records in its queue, when its first connection has been made. -/
def opened (records : Collection ObjectId WeedFSMeta) (repositories : Repositories)
    (disk : Disk) : State :=
  { start records repositories disk with
    connected := true
    connections := [newConnection] }

lemma step_channelActive_start : step capacity (start records repositories disk) .channelActive =
    some (opened records repositories disk) := rfl

/-- A record whose response was handled is marked as successful, and is not found any more;
and no record is marked as deleted whose file was stored. -/
structure EndsSuccessful (records : Collection ObjectId WeedFSMeta) (s : State) : Prop where
  successful : ∀ d ∈ records.docs, getName d.body.filename ∈ s.history.handled →
    ∃ e ∈ s.queueRepository.docs, e.id = d.id ∧ e.body.status = .STATE_SUCCESSFUL
  notFound : ∀ d ∈ records.docs, getName d.body.filename ∈ s.history.handled →
    ∀ limit, ∀ e ∈ findAllNotWriteLimit s.queueRepository limit, e.id ≠ d.id
  deleted : ∀ e ∈ s.queueRepository.docs, e.body.status = .STATE_DELETED →
    getName e.body.filename ∉ s.history.stored

/-- A reader takes a response from its queue and handles it. -/
def TakesResponse (s : State) : Event → Prop
  | .on i (.reader _) => ∃ c ∈ s.connections[i]?, Takes s c
  | _ => False

/-! ### Before the first response is handled -/

def Of (records : Collection ObjectId WeedFSMeta) (e : Item) : Prop :=
  ∃ d ∈ records.docs, d.body = e.body

def FileOf (records : Collection ObjectId WeedFSMeta) (filename : String) : Prop :=
  ∃ d ∈ records.docs, getName d.body.filename = filename

/-- The caller neither deletes a file nor saves a record. -/
def Puts (d : Caller) : Prop := d.point ≠ .delete ∧ d.point ≠ .save

/-- No response has been handled, and the records and their files are as they were. -/
structure Unhandled (records : Collection ObjectId WeedFSMeta) (disk : Disk) (s : State) :
    Prop where
  connected : s.connected = true
  serverError : s.serverError = false
  repository : s.queueRepository = records
  disk : s.disk = disk
  handled : s.history.handled = []
  puts : ∀ d ∈ s.callers, Puts d
  objects : ∀ e, Object s e → Of records e
  named : ∀ filename, Named s filename → FileOf records filename
  responses : ∀ e ∈ s.readQueue, e.id = none ∧ ∃ filename, Reports e.body.responseObject filename

variable {s t : State}

lemma unhandled_opened : Unhandled records disk (opened records repositories disk) := by
  refine ⟨rfl, rfl, rfl, rfl, rfl, ?_, ?_, ?_, ?_⟩
  · simp [opened, start]
  · rintro e (h | ⟨d, h, -⟩ | ⟨c, h, hhand⟩)
    · cases h
    · cases h
    · rw [List.mem_singleton.mp h] at hhand
      cases hhand
  · rintro filename (⟨c, h, r, hr, -⟩ | ⟨e, h, -⟩)
    · rw [List.mem_singleton.mp h] at hr
      cases hr
    · cases h
  · simp [opened, start]

/-- While there is a connection and no error, a caller puts its records into the queue and the
map. -/
lemma CallerMove.puts {saveFails : Bool} {d d' : Caller} (hconnected : s.connected = true)
    (herror : s.serverError = false) (hd : Puts d) (h : CallerMove s saveFails d t d') :
    Puts d' ∧ t.connected = true ∧ t.serverError = false ∧ t.queueRepository = s.queueRepository ∧
      t.disk = s.disk ∧ t.history.handled = s.history.handled ∧ t.callers = s.callers := by
  cases h with
  | looked list point hpoint => exact ⟨by rcases hpoint with rfl | rfl <;> exact ⟨nofun, nofun⟩,
      hconnected, herror, rfl, rfl, rfl, rfl⟩
  | begun e list given hgiven point hpoint =>
    refine ⟨?_, hconnected, herror, rfl, rfl, rfl, rfl⟩
    rcases hpoint with ⟨rfl, -⟩ | ⟨-, hnot⟩
    · exact ⟨nofun, nofun⟩
    · rw [hconnected] at hnot
      cases hnot
  | decided e list point hpoint =>
    refine ⟨?_, hconnected, herror, rfl, rfl, rfl, rfl⟩
    rcases hpoint with ⟨rfl, -⟩ | ⟨-, hset⟩
    · exact ⟨nofun, nofun⟩
    · rw [herror] at hset
      cases hset
  | found | queued | mapped | keyless =>
    exact ⟨⟨nofun, nofun⟩, hconnected, herror, rfl, rfl, rfl, rfl⟩
  | deleted => exact absurd rfl hd.1
  | saved | unsaved => exact absurd rfl hd.2

/-- A step of the retry in which no response is handled leaves the records and the files. -/
lemma unhandled_step {e : Event} (hdisk : ∀ d ∈ records.docs, (disk d.body.filename).isSome)
    (he : RetryEvent e ∧ NamesFile s e) (hs : Unhandled records disk s)
    (hnone : ¬ TakesResponse s e) (h : step capacity s e = some t) :
    Unhandled records disk t := by
  have hids : ∀ x ∈ s.readQueue, x.id = none := fun x hx => (hs.responses x hx).1
  have hobjects : ∀ x, Object t x → Of records x := by
    intro x hx
    rcases object_step hids h hx with hx | ⟨m, rfl, -⟩ | ⟨doc, hdoc, -, rfl, -⟩
    · exact hs.objects x hx
    · exact he.1.elim
    · exact ⟨doc, hs.repository ▸ hdoc, rfl⟩
  have hnamed : ∀ filename, Named t filename → FileOf records filename := by
    intro filename hname
    rcases named_step hids he.2.namesNoOther h hname with hname | ⟨c, hc, x, hx, rfl⟩
    · exact hs.named filename hname
    · obtain ⟨d, hd, hbody⟩ := hs.objects x (.inHand c hc hx)
      exact ⟨d, hd, by rw [hbody]⟩
  have hsame : t.connected = s.connected → t.serverError = s.serverError →
      t.queueRepository = s.queueRepository → t.disk = s.disk →
      t.history.handled = s.history.handled →
      (∀ d ∈ t.callers, Puts d) → Unhandled records disk t :=
    fun hconnected herror hrepository hdisk hhandled hputs =>
      ⟨hconnected.trans hs.connected, herror.trans hs.serverError,
        hrepository.trans hs.repository, hdisk.trans hs.disk, hhandled.trans hs.handled, hputs,
        hobjects, hnamed, reports_step hs.responses he.2 h⟩
  cases e with
  | write | channelActive => exact he.1.elim
  | retryPutQueue =>
    cases h
    refine hsame rfl hs.serverError.symm rfl rfl rfl fun d hd => ?_
    rcases List.mem_append.mp hd with hd | hd
    · exact hs.puts d hd
    · rw [List.mem_singleton.mp hd]
      exact ⟨nofun, nofun⟩
  | caller i saveFails =>
    obtain ⟨d, u, d', hi, hmove, rfl⟩ := caller_eq h
    have hd := hs.puts d (List.mem_of_getElem? hi)
    obtain ⟨hd', hconnected, herror, hrepository, hdisk, hhandled, hcallers⟩ :=
      CallerMove.puts hs.connected hs.serverError hd hmove
    refine hsame (hconnected.trans hs.connected.symm) (herror.trans hs.serverError.symm)
      hrepository hdisk hhandled fun d₁ hd₁ => ?_
    rcases List.mem_or_eq_of_mem_set hd₁ with hd₁ | rfl
    · exact hs.puts d₁ (hcallers ▸ hd₁)
    · exact hd'
  | on i action =>
    obtain ⟨c, u, c', hi, hact, rfl⟩ := on_eq h
    have hputs : ∀ d ∈ u.callers, Puts d := by
      rw [(acts_act hids hact).1.callers]
      exact hs.puts
    cases action with
    | writer =>
      cases writerMove_of_step hact with
      | moved | took | sent => exact hsame rfl rfl rfl rfl rfl hputs
      | missed x queueRepository hpoint hhand hmissing =>
        -- the file of a record is there
        obtain ⟨d, hd, hbody⟩ := hs.objects x (.inHand c (List.mem_of_getElem? hi) hhand)
        have hsome := hdisk d hd
        rw [hbody, ← hs.disk, hmissing] at hsome
        cases hsome
    | writerFails =>
      obtain ⟨rfl, -⟩ := writerFails_eq hact
      exact hsame rfl rfl rfl rfl rfl hputs
    | reader fault =>
      cases readerMove_of_step hact with
      | moved => exact hsame rfl rfl rfl rfl rfl hputs
      | handled htakes => exact absurd ⟨c, hi, htakes⟩ hnone
    | created content =>
      obtain ⟨request, object, hrequests, hrep, -, rfl⟩ := answered_of_namesFile hi he.2 hact
      exact hsame rfl hs.serverError.symm rfl rfl rfl hputs
    | failed | close | channelInactive => exact he.1.elim

lemma Unhandled.endsSuccessful
    (hnormal : ∀ d ∈ records.docs, d.body.status = .STATE_NORMAL)
    (hs : Unhandled records disk s) : EndsSuccessful records s := by
  refine ⟨fun d _ hd => ?_, fun d _ hd => ?_, fun e he hstatus => ?_⟩
  · simp [hs.handled] at hd
  · simp [hs.handled] at hd
  · rw [hs.repository] at he
    rw [hnormal e he] at hstatus
    cases hstatus

/-! ### The first response that is handled -/

/-- After the first response that is handled, its record is neither marked nor gone. -/
lemma not_endsSuccessful_of_takes {e : Event}
    (hnormal : ∀ d ∈ records.docs, d.body.status = .STATE_NORMAL)
    (hs : Unhandled records disk s) (htakes : TakesResponse s e)
    (h : step capacity s e = some t) : ¬ EndsSuccessful records t := by
  intro hends
  cases e with
  | write | retryPutQueue | caller | channelActive => exact htakes
  | on i action =>
    cases action with
    | writer | writerFails | created | failed | close | channelInactive => exact htakes
    | reader fault =>
      obtain ⟨d, hi', htakes⟩ := htakes
      obtain ⟨c, u, c', hi, hact, rfl⟩ := on_eq h
      obtain rfl : d = c := Option.some_inj.mp (hi'.symm.trans hi)
      cases readerMove_of_step hact with
      | moved hnot => exact hnot htakes
      | handled _ response queue hqueue _ _ =>
        -- the response has no id, so the record is as it was
        have hmem : response ∈ s.readQueue := by rw [hqueue]; exact List.mem_cons_self
        obtain ⟨hid, filename, hrep⟩ := hs.responses response hmem
        obtain ⟨r, hr, hfile⟩ := hs.named filename (.answered response hmem hrep)
        have hhandled := mem_handled_handle fault hid hrep { s with readQueue := queue }
        have hrepository :=
          (aside_handle fault hid { s with readQueue := queue }).queueRepository
        obtain ⟨e, he, heid, hstatus⟩ := hends.successful r hr (hfile ▸ hhandled)
        have he : e ∈ records.docs := by
          rw [← hs.repository]
          exact hrepository ▸ he
        rw [List.inj_on_of_nodup_map records.nodup he hr heid, hnormal r hr] at hstatus
        cases hstatus

/-- **When retried records end as successful.** From records that are to be retried and whose
files exist, in a run of ticks, steps of the two threads and answers with success, every
record whose response was handled is marked as successful, and no record whose file was stored
as deleted, if and only if no response is handled. -/
theorem endsSuccessful_iff (records : Collection ObjectId WeedFSMeta)
    (repositories : Repositories) (disk : Disk)
    (hnormal : ∀ d ∈ records.docs, d.body.status = .STATE_NORMAL)
    (hdisk : ∀ d ∈ records.docs, (disk d.body.filename).isSome) (l : List Event) (s : State)
    (hl : EachStep (step capacity) (fun s e => RetryEvent e ∧ NamesFile s e)
      (opened records repositories disk) l)
    (h : run (step capacity) (opened records repositories disk) l = some s) :
    (∀ p t, p <+: l → run (step capacity) (opened records repositories disk) p = some t →
        EndsSuccessful records t) ↔
      EachStep (step capacity) (fun s e => ¬ TakesResponse s e)
        (opened records repositories disk) l :=
  forall_reached_iff_eachStep (I := Unhandled records disk)
    (fun _ hs => hs.endsSuccessful hnormal)
    (fun _ _ _ he hs hnone h => unhandled_step hdisk he hs hnone h)
    (fun _ _ _ _ hs htakes h =>
      not_endsSuccessful_of_takes hnormal hs (not_not.mp htakes) h)
    hl unhandled_opened h

/-- A queue with one record, of an attachment. -/
def oneRecord : Collection ObjectId WeedFSMeta where
  docs := [⟨1, attachment "a"⟩]
  nodup := by simp

/-- A tick that finds one record puts it into the queue and into the map. -/
def tick (i : ℕ) : List Event := .retryPutQueue :: List.replicate 6 (.caller i false)

/-- The record is read by a tick, its file is sent, and answered with success. -/
def answered : List Event :=
  tick 0 ++ List.replicate 5 (.on 0 .writer) ++
    [.on 0 (.created (.bytes (some (storedObject "a.txt"))))]

theorem endsSuccessful_iff_answered :
    ∃ s, run (step 8) (opened oneRecord noRepositories twoFiles) answered = some s ∧
      ∀ p t, p <+: answered →
        run (step 8) (opened oneRecord noRepositories twoFiles) p = some t →
          EndsSuccessful oneRecord t := by
  obtain ⟨s, hs⟩ := Option.isSome_iff_exists.mp
    (show (run (step 8) (opened oneRecord noRepositories twoFiles) answered).isSome by decide)
  refine ⟨s, hs, (endsSuccessful_iff oneRecord noRepositories twoFiles
    (by simp [oneRecord]; rfl) (by decide) answered s ?_ hs).mpr ?_⟩
  · iterate 12 refine eachStep_cons ⟨trivial, trivial⟩ rfl ?_
    refine eachStep_cons ⟨trivial, fun c hc request hrequest => ?_⟩ rfl trivial
    cases hc
    cases hrequest
    exact ⟨_, rfl, _, _, _, rfl⟩
  · iterate 13 refine eachStep_cons id rfl ?_
    trivial

/-- The response is handled, and the record read by the next tick and taken by the writer. -/
def retriedAgain : List Event :=
  answered ++ List.replicate 2 (.on 0 (.reader none)) ++ tick 1 ++
    List.replicate 5 (.on 0 .writer)

/-- A retried record does not always end as successful: one is stored and then marked as
deleted. -/
theorem not_endsSuccessful_retriedAgain :
    ∃ s, run (step 8) (opened oneRecord noRepositories twoFiles) retriedAgain = some s ∧
      s.history.stored = ["a.txt"] ∧ s.history.handled = ["a.txt"] ∧
      s.queueRepository.docs = [⟨1, { attachment "a" with status := .STATE_DELETED }⟩] ∧
      ¬ EndsSuccessful oneRecord s := by
  obtain ⟨s, hs⟩ := Option.isSome_iff_exists.mp (show
    (run (step 8) (opened oneRecord noRepositories twoFiles) retriedAgain).isSome by decide)
  have hstored := eq_of_map_run hs (·.history.stored) ["a.txt"] (by decide)
  have hdocs := eq_of_map_run hs (·.queueRepository.docs)
    [⟨1, { attachment "a" with status := .STATE_DELETED }⟩] (by decide)
  have hhandled := eq_of_map_run hs (·.history.handled) ["a.txt"] (by decide)
  refine ⟨s, hs, hstored, hhandled, hdocs, fun h => ?_⟩
  have hnot := h.deleted ⟨1, { attachment "a" with status := .STATE_DELETED }⟩
    (by rw [hdocs]; exact List.mem_cons_self) rfl
  rw [hstored] at hnot
  exact hnot (by decide)

end Logful.WeedFSRetry
