import Logful.WeedFSRetry

/-!
`ScheduledTasks.clearMemory`, which takes out of the map of metadata what has no file any more,
while the service goes on.

The iterator returns an entry as it was, the file is looked for after that, and what is then
under the key is removed later still. In between the threads of the service take their steps, and
other runs of the task take theirs.
-/

namespace Logful.WeedFSClearMemory

open Logful.Documents Logful.Entity Logful.Paths Logful.Runs Logful.StringUtil
open Logful.WeedFSClientService Logful.WeedFSObjects Logful.WeedFSSteps

/-! ### clearMemory -/

/-- An entry that the iterator has returned; and whether its file was looked for, and was not
there. -/
structure Visit where
  key : String
  entry : Item
  missing : Bool
  deriving DecidableEq

/-- The name of the file that is looked for. -/
def Visit.filename (v : Visit) : String := v.key ++ "." ++ valueOf v.entry.body.extension

/-- The service, and the entries that the runs of the task have in their hands. -/
structure State where
  service : WeedFSClientService.State
  visits : List Visit

/-- The iterator comes to an entry. -/
def next (key : String) (s : State) : Option State :=
  (s.service.weedMetaMap key).map fun entry =>
    { s with visits := s.visits ++ [⟨key, entry, false⟩] }

def fileExists (i : ℕ) (s : State) : Option State :=
  match s.visits[i]? with
  | some ⟨key, entry, false⟩ =>
    if (s.service.disk (Visit.filename ⟨key, entry, false⟩)).isSome then
      some { s with visits := s.visits.eraseIdx i }
    else some { s with visits := s.visits.set i ⟨key, entry, true⟩ }
  | _ => none

def remove (i : ℕ) (s : State) : Option State :=
  match s.visits[i]? with
  | some ⟨key, _, true⟩ => some
    { service := { s.service with
        weedMetaMap := Function.update s.service.weedMetaMap key none }
      visits := s.visits.eraseIdx i }
  | _ => none

inductive Event
  | service (e : WeedFSClientService.Event)
  | next (key : String)
  | fileExists (i : ℕ)
  | remove (i : ℕ)
  deriving DecidableEq

/-- A step of the service, or of a run of the task. -/
def step (capacity : ℕ) (s : State) : Event → Option State
  | .service e => (WeedFSClientService.step capacity s.service e).map fun service =>
    { s with service := service }
  | .next key => next key s
  | .fileExists i => fileExists i s
  | .remove i => remove i s

/-- What a step is to the service alone. -/
def Event.ofService : Event → Option WeedFSClientService.Event
  | .service e => some e
  | _ => none

/-! ### A run of the task with nothing in between -/

/-- A turn of the loop, for an entry of the map. -/
def turn (s : WeedFSClientService.State) (key : String) : WeedFSClientService.State :=
  match s.weedMetaMap key with
  | none => s
  | some entry =>
    if (s.disk (Visit.filename ⟨key, entry, false⟩)).isSome then s
    else { s with weedMetaMap := Function.update s.weedMetaMap key none }

/-- The task, when the service does nothing, over the keys of the map. -/
def clearMemory (keys : List String) (s : WeedFSClientService.State) :
    WeedFSClientService.State := keys.foldl turn s

lemma run_turn (capacity : ℕ) (s : WeedFSClientService.State) (key : String) :
    ∃ l : List Event, (∀ e ∈ l, e.ofService = none) ∧
      run (step capacity) ⟨s, []⟩ l = some ⟨turn s key, []⟩ := by
  cases hentry : s.weedMetaMap key with
  | none => exact ⟨[], by simp, by simp [turn, hentry]⟩
  | some entry =>
    by_cases hdisk : (s.disk (Visit.filename ⟨key, entry, false⟩)).isSome
    · refine ⟨[.next key, .fileExists 0], by simp [Event.ofService], ?_⟩
      simp [run_cons, step, next, fileExists, turn, hentry, hdisk]
    · refine ⟨[.next key, .fileExists 0, .remove 0], by simp [Event.ofService], ?_⟩
      simp [run_cons, step, next, fileExists, remove, turn, hentry, hdisk]

/-- The task is a run of its steps. -/
lemma run_clearMemory (capacity : ℕ) (keys : List String) (s : WeedFSClientService.State) :
    ∃ l : List Event, (∀ e ∈ l, e.ofService = none) ∧
      run (step capacity) ⟨s, []⟩ l = some ⟨clearMemory keys s, []⟩ := by
  induction keys generalizing s with
  | nil => exact ⟨[], by simp, rfl⟩
  | cons key keys ih =>
    obtain ⟨p, hp, hturn⟩ := run_turn capacity s key
    obtain ⟨l, hl, hrest⟩ := ih (turn s key)
    refine ⟨p ++ l, fun e he => ?_, (run_append_eq_some _).mpr ⟨_, hturn, hrest⟩⟩
    exact (List.mem_append.mp he).elim (hp e) (hl e)

lemma turn_disk (s : WeedFSClientService.State) (key : String) : (turn s key).disk = s.disk := by
  unfold turn
  split
  · rfl
  · split_ifs <;> rfl

/-- **What the task leaves**: of the keys that it comes to those whose file is there. -/
theorem clearMemory_entries (keys : List String) (s : WeedFSClientService.State) (key : String)
    (entry : Item) : (clearMemory keys s).weedMetaMap key = some entry ↔
      s.weedMetaMap key = some entry ∧
        (key ∈ keys → (s.disk (Visit.filename ⟨key, entry, false⟩)).isSome = true) := by
  induction keys generalizing s with
  | nil => simp [clearMemory]
  | cons k keys ih =>
    rw [show clearMemory (k :: keys) s = clearMemory keys (turn s k) from rfl, ih, turn_disk]
    have hturn : (turn s k).weedMetaMap key = some entry ↔ s.weedMetaMap key = some entry ∧
        (key = k → (s.disk (Visit.filename ⟨key, entry, false⟩)).isSome = true) := by
      unfold turn
      rcases eq_or_ne key k with rfl | hne
      · cases hentry : s.weedMetaMap key with
        | none => simp [hentry]
        | some e =>
          simp only
          split_ifs with hdisk
          · rw [hentry]
            constructor
            · rintro h
              cases h
              exact ⟨rfl, fun _ => hdisk⟩
            · exact fun h => h.1
          · simp only [Function.update_self]
            refine iff_of_false (Option.some_ne_none entry).symm ?_
            rintro ⟨h, hsome⟩
            cases h
            exact hdisk (hsome trivial)
      · cases s.weedMetaMap k with
        | none => simp [hne]
        | some e =>
          simp only
          split_ifs <;> simp [hne]
    rw [hturn, List.mem_cons]
    constructor
    · rintro ⟨⟨hentry, hself⟩, hrest⟩
      exact ⟨hentry, fun h => h.elim hself hrest⟩
    · rintro ⟨hentry, hall⟩
      exact ⟨⟨hentry, fun h => hall (.inl h)⟩, fun h => hall (.inr h)⟩

/-! ### Steps that do not read the map -/

variable {capacity : ℕ} {s t u : WeedFSClientService.State} {c c' : Connection}
  {filenameOf : String → String}

def withMap (weedMetaMap : String → Option Item) (s : WeedFSClientService.State) :
    WeedFSClientService.State :=
  { s with weedMetaMap := weedMetaMap }

/-- The entry of a key is taken out of the map, or put back with other metadata, whatever else
the map has. -/
lemma saveFid_withMap (fault : Option Fault) (fid filename : String) (size : ℤ) (key : String)
    (entry : Item) (s : WeedFSClientService.State) :
    ∃ left : Option Item, (∀ e ∈ left, e.body.key = entry.body.key ∧
        e.body.filename = entry.body.filename) ∧
      (saveFid fault fid filename size key entry s).1.weedMetaMap =
        Function.update s.weedMetaMap key left ∧
      ∀ map, saveFid fault fid filename size key entry (withMap map s) =
        (withMap (Function.update map key left) (saveFid fault fid filename size key entry s).1,
          (saveFid fault fid filename size key entry s).2) := by
  have hnone : ∀ e ∈ (none : Option Item),
      e.body.key = entry.body.key ∧ e.body.filename = entry.body.filename :=
    fun e he => absurd he (Option.not_mem_none e)
  have hsome : ∀ f, ∀ e ∈ some (withFileMeta entry f),
      e.body.key = entry.body.key ∧ e.body.filename = entry.body.filename := by
    rintro f e he
    cases he
    exact ⟨rfl, rfl⟩
  unfold saveFid
  cases entry.body.fileMeta with
  | none => exact ⟨none, hnone, rfl, fun _ => rfl⟩
  | some fileMeta =>
    simp only [withMap]
    by_cases hsave : fault = some .save
    · simp only [if_pos hsave]
      exact ⟨_, hsome _, rfl, fun _ => rfl⟩
    · simp only [if_neg hsave]
      cases notice (s.repositories.save (setFid fid size fileMeta)).2 with
      | none => exact ⟨_, hsome _, rfl, fun _ => rfl⟩
      | some notices =>
        simp only
        split_ifs
        · exact ⟨_, hsome _, rfl, fun _ => rfl⟩
        · exact ⟨none, hnone, rfl, fun _ => rfl⟩

/-- The handling of a response reads the map at one key, and changes it at no other. -/
lemma handle_withMap {response : Item} {filename : String} {map : String → Option Item}
    (fault : Option Fault) (hid : response.id = none)
    (hrep : Reports response.body.responseObject filename)
    (hagree : map (getBaseName filename) = s.weedMetaMap (getBaseName filename)) :
    ∃ left : Option Item,
      (∀ e ∈ left, ∃ entry ∈ s.weedMetaMap (getBaseName filename),
        e.body.key = entry.body.key ∧ e.body.filename = entry.body.filename) ∧
      (handle fault response s).weedMetaMap =
        Function.update s.weedMetaMap (getBaseName filename) left ∧
      handle fault response (withMap map s) =
        withMap (Function.update map (getBaseName filename) left) (handle fault response s) := by
  obtain ⟨fid, size, url, hobject⟩ := hrep
  cases hentry : s.weedMetaMap (getBaseName filename) with
  | none =>
    have hself : ∀ m : String → Option Item, m (getBaseName filename) = none →
        Function.update m (getBaseName filename) none = m := by
      intro m hm
      rw [← hm]
      exact Function.update_eq_self ..
    rw [hentry] at hagree
    refine ⟨none, fun e he => absurd he (Option.not_mem_none e), ?_, ?_⟩
    · simp [handle, hobject, hentry, finish, hid, hself]
    · simp [handle, hobject, hentry, hagree, finish, hid, hself, withMap]
  | some entry =>
    rw [hentry] at hagree
    have hread : (withMap map s).weedMetaMap (getBaseName filename) = some entry := hagree
    obtain ⟨left, hleft, hmap, heq⟩ :=
      saveFid_withMap fault fid filename size (getBaseName filename) entry
        { s with history.handled := s.history.handled ++ [filename] }
    refine ⟨left, fun e he => ⟨entry, rfl, hleft e he⟩, ?_, ?_⟩
    · unfold handle
      simp only [hobject, hentry]
      rw [← hmap]
      rcases saveFid fault fid filename size (getBaseName filename) entry _ with ⟨u, thrown⟩
      cases thrown <;> simp [finish, hid]
    · unfold handle
      simp only [hobject, hentry, hread]
      have heq := heq map
      simp only [withMap] at heq ⊢
      rw [heq]
      rcases saveFid fault fid filename size (getBaseName filename) entry _ with ⟨u, thrown⟩
      cases thrown <;> simp [finish, hid]

/-! ### What is known of a state of the service -/

/-- The key of a record says how its file goes. -/
def Kept (filenameOf : String → String) (m : WeedFSMeta) : Prop :=
  ∀ key ∈ m.key, m.filename = filenameOf key

structure Inv (filenameOf : String → String) (s : WeedFSClientService.State) : Prop where
  entries : ∀ key, ∀ entry ∈ s.weedMetaMap key,
    entry.body.key = some key ∧ entry.body.filename = filenameOf key
  objects : ∀ e, Object s e → Kept filenameOf e.body
  records : ∀ d ∈ s.queueRepository.docs, Kept filenameOf d.body
  responses : ∀ e ∈ s.readQueue, e.id = none

theorem inv_step {e : WeedFSClientService.Event} (hs : Inv filenameOf s)
    (he : ∀ m, e = .write m → Kept filenameOf m)
    (h : WeedFSClientService.step capacity s e = some t) : Inv filenameOf t := by
  have hids := hs.responses
  constructor
  case responses => exact ids_step hids h
  case objects =>
    intro x hx
    rcases object_step hids h hx with hx | ⟨m, heq, rfl⟩ | ⟨doc, hdoc, -, rfl, -⟩
    · exact hs.objects x hx
    · exact he m heq
    · exact hs.records doc hdoc
  case records =>
    have hstores := stores_step hids h
    generalize t.queueRepository = records at hstores
    intro d hd
    cases hstores with
    | same => exact hs.records d hd
    | saved x hx | deleted x hx =>
      rcases Collection.mem_save.mp hd with rfl | ⟨hd, -⟩
      · exact hs.objects x hx
      · exact hs.records d hd
  case entries =>
    intro key entry hentry
    cases touches_step h with
    | leaves hmap => exact hs.entries key entry (hmap ▸ hentry)
    | caller hi hmove =>
      cases hmove with
      | mapped x list k hk =>
        by_cases heq : key = k
        · subst heq
          simp only [Function.update_self, Option.mem_some_iff] at hentry
          subst hentry
          exact ⟨hk, hs.objects x (.called _ (List.mem_of_getElem? hi) List.mem_cons_self) key hk⟩
        · simp only [Function.update_of_ne heq] at hentry
          exact hs.entries key entry hentry
      | looked | found | begun | decided | queued | keyless | deleted | saved | unsaved =>
        exact hs.entries key entry hentry
    | handled fault response queue l hi htakes hqueue =>
      have hid := hids response (by rw [hqueue]; exact List.mem_cons_self)
      by_cases hrep : ∃ filename, Reports response.body.responseObject filename
      · obtain ⟨filename, hrep⟩ := hrep
        have hself : s.weedMetaMap (getBaseName filename) =
          ({ s with readQueue := queue } : WeedFSClientService.State).weedMetaMap
            (getBaseName filename) := rfl
        obtain ⟨left, hleft, hmap, -⟩ := handle_withMap fault hid hrep hself
        have hentry : entry ∈ (handle fault response { s with readQueue := queue }).weedMetaMap
          key := hentry
        rw [hmap] at hentry
        by_cases heq : key = getBaseName filename
        · subst heq
          rw [Function.update_self] at hentry
          obtain ⟨entry', hentry', hkey, hname⟩ := hleft entry hentry
          rw [hkey, hname]
          exact hs.entries _ entry' hentry'
        · rw [Function.update_of_ne heq] at hentry
          exact hs.entries key entry hentry
      · rw [handle_silent fault hrep] at hentry
        exact hs.entries key entry hentry

/-! ### The run with the sweeps and the run without them -/

/-- A state against that without the sweeps: entries may be missing in the map whose files are
gone, and all the rest is the same. -/
structure Swept (filenameOf : String → String) (s t : WeedFSClientService.State) : Prop where
  rest : s = withMap s.weedMetaMap t
  entries : ∀ key, s.weedMetaMap key = t.weedMetaMap key ∨
    s.weedMetaMap key = none ∧ t.disk (filenameOf key) = none

/-- No response is handled behind its file: while a response is handled, the file of the key that
it names is there. -/
def FileThere (filenameOf : String → String) (s : WeedFSClientService.State) :
    WeedFSClientService.Event → Prop
  | .on i (.reader _) => ∀ c ∈ s.connections[i]?, Takes s c → ∀ response ∈ s.readQueue.head?,
      ∀ filename, Reports response.body.responseObject filename →
        (s.disk (filenameOf (getBaseName filename))).isSome
  | _ => True

/-- What is asked of the steps of the service. -/
def Expected (filenameOf : String → String) (s : State) : Event → Prop
  | .service (.write m) => Kept filenameOf m
  | .service e => FileThere filenameOf s.service e
  | _ => True

/-- The state with the sweeps, and that without them. What the task has in its hand was an entry
of the map, and a file that it has missed is gone. -/
structure Follows (filenameOf : String → String) (s : State) (t : WeedFSClientService.State) :
    Prop where
  inv : Inv filenameOf t
  swept : Swept filenameOf s.service t
  visits : ∀ v ∈ s.visits, v.filename = filenameOf v.key ∧
    (v.missing = true → t.disk (filenameOf v.key) = none)

lemma inv_start {records : Collection ObjectId WeedFSMeta} (repositories : Repositories)
    (disk : Disk) (hrecords : ∀ d ∈ records.docs, Kept filenameOf d.body) :
    Inv filenameOf (start records repositories disk) := by
  refine ⟨fun key entry hentry => ?_, ?_, hrecords, by simp [start]⟩
  · cases hentry
  · rintro e (h | ⟨_, h, _⟩ | ⟨_, h, _⟩) <;> cases h

def dotTxt (key : String) : String := key ++ ".txt"

/-- Two files are sent, of which the first is answered by an error; a tick that has read the record
of the second deletes its file then. -/
def deleted : List WeedFSClientService.Event :=
  .channelActive :: writes 0 (attachment "b") ++ List.replicate 5 (.on 0 .writer) ++
    WeedFSRetry.tick 1 ++ List.replicate 5 (.on 0 .writer) ++
      .retryPutQueue :: List.replicate 3 (.caller 2 false) ++
        .on 0 .failed :: List.replicate 2 (.caller 2 false)

/-- The second is swept then, and answered. -/
def sweptBefore : List Event :=
  deleted.map .service ++ [.next "a", .fileExists 0, .remove 0,
    .service (.on 0 (.created (.bytes (some (storedObject "a.txt"))))),
    .service (.on 0 (.reader none)), .service (.on 0 (.reader none))]

/-- When a file is deleted on its way, because the service finds the file store in error, a sweep
takes the entry that its response would find, and the fid is lost. -/
theorem not_swept_sweptBefore : ∃ s t,
    run (step 8) ⟨start WeedFSRetry.oneRecord noRepositories twoFiles, []⟩ sweptBefore = some s ∧
      run (WeedFSClientService.step 8) (start WeedFSRetry.oneRecord noRepositories twoFiles)
        (sweptBefore.filterMap Event.ofService) = some t ∧
      s.service.history.stored = ["a.txt"] ∧ s.service.history.saved = [] ∧
      t.history.saved = [("a.txt", setFid "3,01637037d6" 0 (.attachment (.create "a")))] ∧
      ¬ Swept dotTxt s.service t := by
  obtain ⟨s, hs⟩ := Option.isSome_iff_exists.mp (show (run (step 8)
    ⟨start WeedFSRetry.oneRecord noRepositories twoFiles, []⟩ sweptBefore).isSome by decide)
  obtain ⟨t, ht⟩ := Option.isSome_iff_exists.mp (show (run (WeedFSClientService.step 8)
    (start WeedFSRetry.oneRecord noRepositories twoFiles)
    (sweptBefore.filterMap Event.ofService)).isSome by decide)
  have hsaved := eq_of_map_run hs (·.service.history.saved) [] (by decide)
  have hsaved' := eq_of_map_run ht (·.history.saved)
    [("a.txt", setFid "3,01637037d6" 0 (.attachment (.create "a")))] (by decide)
  refine ⟨s, t, hs, ht, eq_of_map_run hs (·.service.history.stored) ["a.txt"] (by decide), hsaved,
    hsaved', fun h => ?_⟩
  rw [h.rest] at hsaved
  rw [show t.history.saved = [] from hsaved] at hsaved'
  cases hsaved'

end Logful.WeedFSClearMemory
