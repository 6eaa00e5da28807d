import Logful.WeedFSSteps

/-!
The handling of one response, as something that happens as a whole or not at all.

The metadata is saved first, and only a crash report has more to do before its entry leaves the
map and its file is deleted: the notice that Graylog is sent. A response without an entry in the
map is not known to have metadata, and its file is deleted all the same.
-/

namespace Logful.ResponseAtomicity

open Logful.Documents Logful.Entity Logful.Paths Logful.WeedFSClientService Logful.WeedFSSteps

/-- The members that a response has to carry. -/
structure Stored where
  fid : String
  filename : String
  size : ℤ
  fileUrl : String
  deriving DecidableEq

/-- What `channelRead0` puts into the queue for a response with the four members. It has no id. -/
def Stored.response (r : Stored) : Item :=
  ⟨none, .createResponse (some ⟨some r.fid, some r.filename, some r.size, some r.fileUrl⟩)⟩

def Stored.key (r : Stored) : String := getBaseName r.filename

/-- The metadata of the file was saved with the fid, its entry is gone from the map, and the
local file is deleted. -/
structure AllDone (r : Stored) (s t : State) : Prop where
  saved : ∃ entry ∈ s.weedMetaMap r.key, ∃ fileMeta ∈ entry.body.fileMeta,
    t.history.saved = s.history.saved ++ [(r.filename, setFid r.fid r.size fileMeta)] ∧
      InRepository t.repositories (setFid r.fid r.size fileMeta)
  removed : t.weedMetaMap r.key = none
  deleted : t.disk r.filename = none

/-- No metadata was saved, an entry that the map had is still there, and so is a local file. -/
structure NoneDone (r : Stored) (s t : State) : Prop where
  notSaved : t.history.saved = s.history.saved ∧ t.repositories = s.repositories
  notRemoved : (s.weedMetaMap r.key).isSome → (t.weedMetaMap r.key).isSome
  notDeleted : t.disk r.filename = s.disk r.filename

/-- The file has metadata in the map, and its save throws, or nothing throws behind it: a crash
report has a date, and the notice of it is sent. Or there is neither an entry nor a file. -/
def Whole (fault : Option Fault) (r : Stored) (s : State) : Prop :=
  match s.weedMetaMap r.key with
  | none => s.disk r.filename = none
  | some entry => ∃ fileMeta ∈ entry.body.fileMeta, fault = some .save ∨
      ∀ report, fileMeta = .crash report → report.body.date.isSome ∧ fault ≠ some .send

/-! ### The branches of the handling -/

lemma Stored.object (r : Stored) : r.response.body.responseObject =
    some ⟨some r.fid, some r.filename, some r.size, some r.fileUrl⟩ := rfl

variable {fault : Option Fault} {r : Stored} {s : State} {entry : Item} {fileMeta : FileMeta}

/-- Without an entry the file is deleted, and nothing else is done. -/
lemma handle_absent (hentry : s.weedMetaMap r.key = none) :
    handle fault r.response s = { s with
      disk := Function.update s.disk r.filename none
      history.handled := s.history.handled ++ [r.filename] } := by
  unfold Stored.key at hentry
  simp [handle, Stored.response, WeedFSMeta.createResponse, hentry, finish]

/-- An entry without metadata is removed. -/
lemma handle_empty (fault : Option Fault) (hentry : s.weedMetaMap r.key = some entry)
    (hmeta : entry.body.fileMeta = none) :
    (handle fault r.response s).history.saved = s.history.saved ∧
      (handle fault r.response s).weedMetaMap r.key = none := by
  unfold Stored.key at hentry ⊢
  simp [handle, Stored.response, WeedFSMeta.createResponse, hentry, saveFid, hmeta, finish]

lemma handle_saveFails (hentry : s.weedMetaMap r.key = some entry)
    (hmeta : entry.body.fileMeta = some fileMeta) :
    NoneDone r s (handle (some .save) r.response s) := by
  unfold Stored.key at hentry
  constructor <;>
    simp [handle, Stored.response, WeedFSMeta.createResponse, Stored.key, hentry, saveFid, hmeta]

lemma saved_of_stops (hentry : s.weedMetaMap r.key = some entry)
    (hmeta : entry.body.fileMeta = some fileMeta) (hfault : fault ≠ some .save)
    (hstops : ¬ ∀ report, fileMeta = .crash report →
      report.body.date.isSome ∧ fault ≠ some .send) :
    (handle fault r.response s).history.saved =
        s.history.saved ++ [(r.filename, setFid r.fid r.size fileMeta)] ∧
      ((handle fault r.response s).weedMetaMap r.key).isSome := by
  obtain ⟨withId, hhandle⟩ := handle_stops r.object hentry hmeta hfault hstops
  rw [hhandle]
  exact ⟨rfl, by simp [Stored.key]⟩

lemma allDone_of_ends (hentry : s.weedMetaMap r.key = some entry)
    (hmeta : entry.body.fileMeta = some fileMeta) (hfault : fault ≠ some .save)
    (hends : ∀ report, fileMeta = .crash report →
      report.body.date.isSome ∧ fault ≠ some .send) :
    AllDone r s (handle fault r.response s) := by
  have hin := inRepository_save s.repositories (setFid r.fid r.size fileMeta)
  obtain ⟨notices, hhandle⟩ := handle_ends rfl r.object hentry hmeta hfault hends
  rw [hhandle]
  refine ⟨⟨entry, hentry, fileMeta, hmeta, rfl, hin.notices _⟩, ?_, ?_⟩
  · simp [Stored.key]
  · simp

/-! ### All or nothing -/

/-- **All or nothing.** The handling of a response with the four members is done as a whole or
not at all exactly when the file has metadata in the map whose save throws, or behind whose save
nothing throws, or has neither an entry in the map nor is there. -/
theorem allOrNothing_iff (fault : Option Fault) (r : Stored) (s : State) :
    AllDone r s (handle fault r.response s) ∨ NoneDone r s (handle fault r.response s) ↔
      Whole fault r s := by
  unfold Whole
  cases hentry : s.weedMetaMap r.key with
  | none =>
    rw [handle_absent hentry]
    constructor
    · rintro (hall | hnone)
      · obtain ⟨entry, hmem, -⟩ := hall.saved
        rw [hentry] at hmem
        cases hmem
      · exact hnone.notDeleted.symm.trans (Function.update_self ..)
    · intro hdisk
      refine .inr ⟨⟨rfl, rfl⟩, fun h => h, ?_⟩
      exact (Function.update_self ..).trans hdisk.symm
  | some entry =>
    cases hmeta : entry.body.fileMeta with
    | none =>
      obtain ⟨hsaved, hremoved⟩ := handle_empty fault hentry hmeta
      refine iff_of_false ?_ (by simp [hmeta])
      rintro (hall | hnone)
      · obtain ⟨-, -, fileMeta, -, hone, -⟩ := hall.saved
        rw [hsaved] at hone
        simp at hone
      · have hkept := hnone.notRemoved (by rw [hentry]; rfl)
        rw [hremoved] at hkept
        cases hkept
    | some fileMeta =>
      simp only [hmeta, Option.mem_some_iff, exists_eq_left']
      by_cases hfault : fault = some .save
      · subst hfault
        exact iff_of_true (.inr (handle_saveFails hentry hmeta)) (.inl rfl)
      · rw [or_iff_right hfault]
        constructor
        · intro h
          by_contra hnot
          obtain ⟨hsaved, hkept⟩ := saved_of_stops hentry hmeta hfault hnot
          rcases h with hall | hnone
          · rw [hall.removed] at hkept
            cases hkept
          · have hone := hnone.notSaved.1
            rw [hsaved] at hone
            simp at hone
        · exact fun hends => .inl (allDone_of_ends hentry hmeta hfault hends)

/-- A crash report of whose payload no date was read. -/
def datelessReport : CrashFileMeta :=
  ⟨1, none, some "u", none, none, none, none, none, some "app", 1, none, none, none, none, 0⟩

def storedFile : Stored := ⟨"3,01637037d6", "a.txt", 0, "127.0.0.1:8080/3,01637037d6"⟩

/-- The file of the report was sent, and its record is in the map. -/
def datelessEntry : Item :=
  ⟨none, .create (some "a") (some "txt") (.crash ⟨none, datelessReport⟩)⟩

/-- A crash report without a date is saved, and stays in the map. -/
theorem not_allOrNothing_dateless :
    ¬ ∀ fault r s, AllDone r s (handle fault r.response s) ∨
      NoneDone r s (handle fault r.response s) := by
  intro hwhole
  let s : State := { start .empty noRepositories twoFiles with
    weedMetaMap := Function.update (fun _ => none) storedFile.key (some datelessEntry) }
  have hentry : s.weedMetaMap storedFile.key = some datelessEntry := by simp [s]
  have hmeta : datelessEntry.body.fileMeta = some (.crash ⟨none, datelessReport⟩) := rfl
  have hnot : ¬ ∀ report, FileMeta.crash ⟨none, datelessReport⟩ = .crash report →
      report.body.date.isSome ∧ (none : Option Fault) ≠ some .send := fun hends =>
    Bool.false_ne_true (hends _ rfl).1
  have hfault : (none : Option Fault) ≠ some .save := (Option.some_ne_none _).symm
  obtain ⟨hsaved, hkept⟩ := saved_of_stops hentry hmeta hfault hnot
  rcases hwhole none storedFile s with hall | hnone
  · rw [hall.removed] at hkept
    cases hkept
  · rw [hnone.notSaved.1] at hsaved
    cases hsaved

end Logful.ResponseAtomicity
