import Logful.Documents
import Logful.Runs
import Logful.StringUtil
import Mathlib.Data.Finset.Basic

/-!
The global configuration, and its grant list as a set.

The repository keeps one document. Granting goes through a `HashSet`, whose iteration order
is a parameter. Revoking keeps, of the ids it is called with, those that are not granted,
where the difference of sets keeps the granted ones that it is not called with; the two
agree exactly when the call names the granted clients and no others.
-/

namespace Logful.GlobalConfigRepository

open Logful.Documents Logful.Runs Logful.StringUtil

/-- A client id of a JSON array, which may be null. -/
abbrev ClientId := Option String

structure GlobalConfig where
  level : ℤ
  grantClients : List ClientId
  deriving DecidableEq

abbrev GlobalConfigs := Collection ObjectId GlobalConfig

/-- The elements of a `HashSet` filled from a list, in the order it iterates over them. -/
structure HashSet where
  toList : List ClientId → List ClientId
  nodup : ∀ l, (toList l).Nodup
  mem_toList : ∀ l x, x ∈ toList l ↔ x ∈ l

/-! ### GlobalConfigRepository -/

def defaultConfig : Entity ObjectId GlobalConfig := ⟨none, ⟨DEFAULT_GRAY_LEVEL, []⟩⟩

/-- `save`, which writes over the document that is there, whatever its id. -/
def save (c : GlobalConfigs) (config : Entity ObjectId GlobalConfig) : GlobalConfigs :=
  match c.findOne fun _ => true with
  | some exist => c.save { config with id := some exist.id }
  | none => c.save config

def read (c : GlobalConfigs) : Entity ObjectId GlobalConfig :=
  match c.findOne fun _ => true with
  | none => defaultConfig
  | some config => config.entity

/-- `setGrantClients`. -/
def setGrantClients (config : Entity ObjectId GlobalConfig) (l : List ClientId) :
    Entity ObjectId GlobalConfig :=
  { config with body := { config.body with grantClients := l } }

/-- `setLevel`. -/
def setLevel (config : Entity ObjectId GlobalConfig) (level : ℤ) :
    Entity ObjectId GlobalConfig :=
  { config with body := { config.body with level := level } }

def addClient (h : HashSet) (clientIds : List ClientId) (c : GlobalConfigs) : GlobalConfigs :=
  let config := read c
  let newList := h.toList (config.body.grantClients ++ clientIds)
  save c (setGrantClients config newList)

def removeClient (clientIds : List ClientId) (c : GlobalConfigs) : GlobalConfigs :=
  let config := read c
  let original := config.body.grantClients
  let temp := clientIds.filter fun item => !original.contains item
  save c (setGrantClients config temp)

/-- What `SystemRestController.updateLevel` does with the level of its payload. -/
def updateLevel (level : ℤ) (c : GlobalConfigs) : GlobalConfigs :=
  save c (setLevel (read c) level)

inductive Op
  | addClient (ids : List ClientId)
  | removeClient (ids : List ClientId)
  | updateLevel (level : ℤ)
  deriving DecidableEq

def apply (h : HashSet) (c : GlobalConfigs) : Op → GlobalConfigs
  | .addClient ids => addClient h ids c
  | .removeClient ids => removeClient ids c
  | .updateLevel level => updateLevel level c

/-! ### The grants as a set -/

/-- What the configuration is for: a set of granted clients, and a level. -/
structure Grants where
  granted : Finset ClientId
  level : ℤ

def Grants.apply (g : Grants) : Op → Grants
  | .addClient ids => { g with granted := g.granted ∪ ids.toFinset }
  | .removeClient ids => { g with granted := g.granted \ ids.toFinset }
  | .updateLevel level => { g with level := level }

def GlobalConfig.grants (config : GlobalConfig) : Grants :=
  ⟨config.grantClients.toFinset, config.level⟩

/-- There is one document, and it holds these grants. -/
def Holds (c : GlobalConfigs) (g : Grants) : Prop := ∃ d, c.docs = [d] ∧ d.body.grants = g

/-- A revoking call names the granted clients and no others. -/
def Exact (g : Grants) : Op → Prop
  | .removeClient ids => ids.toFinset = g.granted
  | _ => True

instance (g : Grants) : (op : Op) → Decidable (Exact g op)
  | .addClient _ => inferInstanceAs (Decidable True)
  | .removeClient ids => inferInstanceAs (Decidable (ids.toFinset = g.granted))
  | .updateLevel _ => inferInstanceAs (Decidable True)

/-! ### One document -/

variable {c : GlobalConfigs} {d : Document ObjectId GlobalConfig}

lemma findOne_single (h : c.docs = [d]) : (c.findOne fun _ => true) = some d := by
  simp [Collection.findOne, h]

lemma read_single (h : c.docs = [d]) : read c = d.entity := by
  rw [read, findOne_single h]

/-- Saving over the one document leaves one document, under its id. -/
lemma docs_save_single (h : c.docs = [d]) (config : Entity ObjectId GlobalConfig) :
    (save c config).docs = [⟨d.id, config.body⟩] := by
  rw [save, findOne_single h]
  simp [Collection.save, Collection.idFor, h, put]

/-- A first save makes the one document. -/
lemma docs_save_empty (h : c.docs = []) (config : Entity ObjectId GlobalConfig) :
    ∃ i, (save c config).docs = [⟨i, config.body⟩] := by
  refine ⟨c.idFor config, ?_⟩
  have hnone : (c.findOne fun _ => true) = none := by simp [Collection.findOne, h]
  rw [save, hnone]
  simp [Collection.save, h, put]

/-- Whatever is called on a repository with no document, there is one document afterwards. -/
theorem one_document_of_empty (h : HashSet) (hc : c.docs = []) (op : Op) :
    ∃ d, (apply h c op).docs = [d] := by
  cases op with
  | addClient ids => exact (docs_save_empty hc _).imp' _ fun _ hd => hd
  | removeClient ids => exact (docs_save_empty hc _).imp' _ fun _ hd => hd
  | updateLevel level => exact (docs_save_empty hc _).imp' _ fun _ hd => hd

lemma holds_save (h : c.docs = [d]) (config : Entity ObjectId GlobalConfig) (g : Grants) :
    Holds (save c config) g ↔ config.body.grants = g := by
  simp [Holds, docs_save_single h config]

/-! ### One operation -/

/-- The elements kept by the filter of `removeClient` are the difference of sets exactly when
there are none on either side. -/
lemma filter_notMem_eq_sdiff (original ids : List ClientId) :
    (ids.filter fun item => !original.contains item).toFinset =
      original.toFinset \ ids.toFinset ↔ ids.toFinset = original.toFinset := by
  have hmem : ∀ x, x ∈ (ids.filter fun item => !original.contains item).toFinset ↔
      x ∈ ids ∧ x ∉ original := by
    intro x
    simp
  constructor
  · intro h
    ext x
    have hx := hmem x
    rw [h, Finset.mem_sdiff, List.mem_toFinset, List.mem_toFinset] at hx
    rw [List.mem_toFinset, List.mem_toFinset]
    -- an id on one side alone would be kept by one of the two and not by the other
    tauto
  · intro h
    ext x
    have hx : x ∈ ids ↔ x ∈ original := by
      rw [← List.mem_toFinset, h, List.mem_toFinset]
    simp [hx]

/-- **One operation on the grants.** It keeps the document in step with the set exactly when
it is not a revoking call, or one that names the granted clients and no others. -/
theorem apply_holds_iff (h : HashSet) {g : Grants} (hc : Holds c g) (op : Op) :
    Holds (apply h c op) (g.apply op) ↔ Exact g op := by
  obtain ⟨d, hd, rfl⟩ := hc
  cases op with
  | addClient ids =>
    have hset : (h.toList (d.body.grantClients ++ ids)).toFinset =
        d.body.grantClients.toFinset ∪ ids.toFinset := by
      ext x
      simp [h.mem_toList]
    simp only [apply, addClient, holds_save hd, read_single hd]
    simp [setGrantClients, GlobalConfig.grants, Grants.apply, Exact, hset]
  | removeClient ids =>
    have hset := filter_notMem_eq_sdiff d.body.grantClients ids
    simp only [apply, removeClient, holds_save hd, read_single hd]
    simp only [setGrantClients, GlobalConfig.grants, Grants.apply, Exact, Document.entity_body,
      Grants.mk.injEq, and_true]
    exact hset
  | updateLevel level =>
    simp only [apply, updateLevel, holds_save hd, read_single hd]
    simp [setLevel, GlobalConfig.grants, Grants.apply, Exact]

/-! ### Runs -/

/-- The grants after a run of operations, as sets. -/
def Grants.run (g : Grants) (ops : List Op) : Grants := ops.foldl Grants.apply g

/-- The collection after a run of operations. -/
def run (h : HashSet) (c : GlobalConfigs) (ops : List Op) : GlobalConfigs :=
  ops.foldl (apply h) c

/-- **The grant list behaves as a set exactly as far as revoking is exact.** From a stored
configuration, the one document holds the grants of the run after every initial part of it
if and only if every revoking call names the clients that are granted then, and no others. -/
theorem run_holds_iff (h : HashSet) (c : GlobalConfigs) (d : Document ObjectId GlobalConfig)
    (hc : c.docs = [d]) (ops : List Op) :
    (∀ p, p <+: ops → Holds (run h c p) (d.body.grants.run p)) ↔
      StepsMeet Grants.apply Exact d.body.grants ops :=
  related_iff_stepsMeet (R := Holds) (f := apply h) (g := Grants.apply)
    (fun _ _ op hs => apply_holds_iff h hs op) ⟨d, hc, rfl⟩ ops

/-- The `HashSet` that iterates in the order of the last insertions. -/
def lastInsertions : HashSet where
  toList := List.dedup
  nodup := List.nodup_dedup
  mem_toList := fun _ _ => List.mem_dedup

/-- Two granted clients. -/
def twoGranted : Document ObjectId GlobalConfig := ⟨1, 100, [some "a", some "b"]⟩

def stored (d : Document ObjectId GlobalConfig) : GlobalConfigs := ⟨[d], by simp⟩

/-- Granting `c`, revoking all three and granting `a` again. -/
def regrantA : List Op :=
  [.addClient [some "c"], .removeClient [some "c", some "a", some "b"], .addClient [some "a"],
    .updateLevel 7]

theorem run_holds_iff_regrantA :
    Holds (run lastInsertions (stored twoGranted) regrantA) (twoGranted.body.grants.run regrantA) :=
  (run_holds_iff lastInsertions (stored twoGranted) twoGranted rfl regrantA).mpr
    ⟨trivial, by decide, trivial, trivial, trivial⟩ regrantA (List.prefix_refl _)

/-- Revoking is not the difference of sets: of `a` and `b`, revoking `a` leaves nobody
granted. -/
theorem not_removeClient_sdiff :
    (run lastInsertions (stored twoGranted) [.removeClient [some "a"]]).docs =
        [⟨1, 100, []⟩] ∧
      (twoGranted.body.grants.run [.removeClient [some "a"]]).granted = {some "b"} ∧
      ¬ Holds (run lastInsertions (stored twoGranted) [.removeClient [some "a"]])
        (twoGranted.body.grants.run [.removeClient [some "a"]]) := by
  refine ⟨by decide, by decide, ?_⟩
  intro h
  have hstored : Holds (stored twoGranted) twoGranted.body.grants := ⟨twoGranted, rfl, rfl⟩
  have hex := (apply_holds_iff lastInsertions hstored (.removeClient [some "a"])).mp h
  exact absurd hex (by decide)

end Logful.GlobalConfigRepository
