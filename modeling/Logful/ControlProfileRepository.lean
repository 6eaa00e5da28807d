import Logful.Documents
import Logful.Runs
import Logful.StringUtil

/-!
`ControlProfileRepository`, and the routes that store, change and delete profiles.

A profile without an id is stored only if no other one has its target. A profile with an id is
written over what is stored under the id, or stored anew, whatever its target is.
-/

namespace Logful.ControlProfileRepository

open Logful.Documents Logful.Runs Logful.StringUtil

structure ControlProfile where
  name : Option String
  updateTime : Option ℤ
  platform : Option ℤ
  uid : Option String
  userAlias : Option String
  appId : Option String
  shouldUpload : Option Bool
  scheduleType : Option ℤ
  scheduleArray : Option (List (Option String))
  scheduleTime : Option ℤ
  deriving DecidableEq

/-- Whom a profile is for. -/
structure Target where
  platform : Option ℤ
  uid : Option String
  userAlias : Option String
  appId : Option String
  deriving DecidableEq

def ControlProfile.target (p : ControlProfile) : Target := ⟨p.platform, p.uid, p.userAlias, p.appId⟩

variable {ι : Type} [DecidableEq ι] [Supply ι]

abbrev Profiles (ι : Type) := Collection ι ControlProfile

/-! ### ControlProfileRepository -/

section Repository

-- the id under which a string stands in the database
variable (convertId : String → ι)

/-- `save`: the collection afterwards, and what is returned. -/
def save (profiles : Profiles ι) (id : Option String) (profile : ControlProfile) :
    Profiles ι × Bool :=
  if isEmpty id = false then (profiles.save ⟨id.map convertId, profile⟩, true)
  else
    let count := profiles.docs.countP fun d => d.body.target = profile.target
    if 0 < count then (profiles, false)
    else (profiles.save ⟨id.map convertId, profile⟩, true)

def delete (profiles : Profiles ι) (id : String) : Profiles ι × Bool :=
  (profiles.remove fun d => d.id = convertId id, profiles.docs.any fun d => d.id = convertId id)

/-! ### SystemRestController -/

inductive Request
  | createProfile (id : Option String) (profile : ControlProfile)
  | updateProfile (id : String) (profile : ControlProfile)
  | deleteProfile (id : String)
  deriving DecidableEq

/-- A request, and whether it is answered without an exception. -/
def handle (profiles : Profiles ι) : Request → Profiles ι × Bool
  | .createProfile id profile => save convertId profiles id profile
  | .updateProfile id profile => save convertId profiles (some id) profile
  | .deleteProfile id => delete convertId profiles id

def serve (profiles : Profiles ι) (r : Request) : Profiles ι := (handle convertId profiles r).1

/-- The profile of a request with an id has a target that no profile under another id has. -/
def NoClash (profiles : Profiles ι) : Request → Prop
  | .createProfile id profile => ∀ i ∈ id, i ≠ "" → ∀ d ∈ profiles.docs, d.id ≠ convertId i →
      d.body.target ≠ profile.target
  | .updateProfile id profile => id ≠ "" → ∀ d ∈ profiles.docs, d.id ≠ convertId id →
      d.body.target ≠ profile.target
  | .deleteProfile _ => True

/-! ### One request -/

variable {convertId} {profiles : Profiles ι}

/-- A profile with an id leaves the targets different exactly if it has one of its own, and a
profile without an id always does. -/
lemma onePer_save_iff (h : profiles.OnePer ControlProfile.target) (id : Option String)
    (profile : ControlProfile) :
    (save convertId profiles id profile).1.OnePer ControlProfile.target ↔
      ∀ i ∈ id, i ≠ "" → ∀ d ∈ profiles.docs, d.id ≠ convertId i →
        d.body.target ≠ profile.target := by
  unfold save
  by_cases hid : isEmpty id = false
  · rw [if_pos hid]
    cases id with
    | none => cases hid
    | some i =>
      have hi : i ≠ "" := by simpa [isEmpty] using hid
      simp [h.save_iff, Collection.idFor, hi]
  · have hempty : ∀ i ∈ id, ¬ i ≠ "" := by
      rintro i rfl
      simpa [isEmpty] using hid
    rw [if_neg hid]
    refine iff_of_true ?_ fun i hi hne => absurd hne (hempty i hi)
    simp only
    split_ifs with hcount
    · exact h
    · rw [Nat.not_lt, Nat.le_zero, List.countP_eq_zero] at hcount
      exact h.save_iff.mpr fun d hd _ => by simpa using hcount d hd

lemma onePer_serve_iff (h : profiles.OnePer ControlProfile.target) (r : Request) :
    (serve convertId profiles r).OnePer ControlProfile.target ↔ NoClash convertId profiles r := by
  cases r with
  | createProfile id profile => exact onePer_save_iff h id profile
  | updateProfile id profile =>
    refine (onePer_save_iff h (some id) profile).trans ?_
    simp [NoClash]
  | deleteProfile id => exact iff_of_true (h.remove _) trivial

end Repository

/-- **When the targets stay different.** From the empty collection on, no two profiles have the
same target after any of the requests, exactly when every request with an id has a profile with
a target that no profile under another id has at its time. -/
theorem onePer_iff_noClash (convertId : String → ι) (requests : List Request) :
    (∀ p, p <+: requests → (p.foldl (serve convertId) Collection.empty).OnePer
      ControlProfile.target) ↔
      StepsMeet (serve convertId) (NoClash convertId) Collection.empty requests := by
  have hrelated := related_iff_stepsMeet (f := serve convertId) (g := serve convertId)
    (R := fun c c' => c = c' ∧ c.OnePer ControlProfile.target) (C := NoClash convertId)
    (fun c c' r h => by
      obtain ⟨rfl, hone⟩ := h
      exact (and_iff_right rfl).trans (onePer_serve_iff hone r))
    ⟨rfl, Collection.onePer_empty⟩ requests
  simpa using hrelated

/-- A string that is longer than all of the others. -/
def longer (l : List String) : String :=
  .ofList (List.replicate ((l.map String.length).sum + 1) '0')

lemma longer_notMem (l : List String) : longer l ∉ l := by
  intro h
  have hle := List.le_sum_of_mem (List.mem_map_of_mem (f := String.length) h)
  rw [longer, String.length_ofList, List.length_replicate] at hle
  exact absurd hle (Nat.not_succ_le_self _)

/-- Ids that are strings. -/
instance : Supply String := ⟨longer, longer_notMem⟩

/-- A profile for every user of an application. -/
def everyUser : ControlProfile :=
  ⟨some "p", some 0, some 1, some "", some "", some "app", some true, none, none, none⟩

/-- Targets do not stay different: a second profile comes with an id of its own. -/
theorem not_onePer_createTwice :
    ¬ ∀ p, p <+: [.createProfile none everyUser, .createProfile (some "x") everyUser] →
      (p.foldl (serve id) (Collection.empty : Profiles String)).OnePer
        ControlProfile.target := by
  intro h
  have hone := h _ List.prefix_rfl
  have hdocs : (([.createProfile none everyUser, .createProfile (some "x") everyUser] :
      List Request).foldl (serve id) (Collection.empty : Profiles String)).docs =
      [⟨"0", everyUser⟩, ⟨"x", everyUser⟩] := by decide
  unfold Collection.OnePer at hone
  rw [hdocs] at hone
  have heq := hone ⟨"0", everyUser⟩ (by simp) ⟨"x", everyUser⟩ (by simp) rfl
  exact absurd (congrArg Document.id heq) (by decide)

end Logful.ControlProfileRepository
