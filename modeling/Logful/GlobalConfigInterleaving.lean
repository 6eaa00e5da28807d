import Logful.GlobalConfigRepository

/-!
Requests on the global configuration, interleaved.

Granting clients and setting the level are three operations on the database each: the document
is read, it is looked up again for its id, and it is written as a whole. Nothing keeps the
operations of two requests apart. What a request adds is in the document in the end unless
another one, which had read the document before, wrote it afterwards; and the document stays
the only one unless there was none and two requests had looked for it before the first write.
-/

namespace Logful.GlobalConfigInterleaving

open Logful.Documents Logful.Runs Logful.GlobalConfigRepository

/-- A configuration in memory. -/
abbrev Config := Entity ObjectId GlobalConfig

/-- A call of `addClient`, or of `updateLevel` with the level of its payload. -/
inductive Request
  | addClient (ids : List ClientId)
  | updateLevel (level : ℤ)
  deriving DecidableEq

/-- What a request makes of the configuration it has read. -/
def Request.change (h : HashSet) (config : Config) : Request → Config
  | .addClient ids => setGrantClients config (h.toList (config.body.grantClients ++ ids))
  | .updateLevel level => setLevel config level

/-- What `save` does to the configuration before it writes it. -/
def lookUp (c : GlobalConfigs) (config : Config) : Config :=
  match c.findOne fun _ => true with
  | some exist => { config with id := some exist.id }
  | none => config

/-- How far a request has come, with the configuration it holds. -/
inductive Point
  | start
  | changed (config : Config)
  | found (config : Config)
  | done
  deriving DecidableEq

structure Thread where
  request : Request
  point : Point
  deriving DecidableEq

structure State where
  configs : GlobalConfigs
  threads : List Thread

/-- The next operation of the thread with the number. -/
inductive Event
  | read (i : ℕ)
  | find (i : ℕ)
  | save (i : ℕ)
  deriving DecidableEq

def step (h : HashSet) (s : State) : Event → Option State
  | .read i =>
    match s.threads[i]? with
    | some ⟨r, .start⟩ =>
      some { s with threads := s.threads.set i ⟨r, .changed (r.change h (read s.configs))⟩ }
    | _ => none
  | .find i =>
    match s.threads[i]? with
    | some ⟨r, .changed config⟩ =>
      some { s with threads := s.threads.set i ⟨r, .found (lookUp s.configs config)⟩ }
    | _ => none
  | .save i =>
    match s.threads[i]? with
    | some ⟨r, .found config⟩ => some ⟨s.configs.save config, s.threads.set i ⟨r, .done⟩⟩
    | _ => none

def start (c : GlobalConfigs) (rs : List Request) : State := ⟨c, rs.map fun r => ⟨r, .start⟩⟩

def State.Finished (s : State) : Prop := ∀ t ∈ s.threads, t.point = .done

instance (s : State) : Decidable s.Finished :=
  inferInstanceAs (Decidable (∀ t ∈ s.threads, t.point = .done))

/-! ### What the order of the operations decides -/

/-- Another request had read the document before this one wrote it, and wrote it later. -/
def Overwritten (l : List Event) (i : ℕ) : Prop :=
  ∃ j, j ≠ i ∧ List.Sublist [.read j, .save i, .save j] l

/-- Another request than the first to write had looked for the document before that. -/
def Raced (l : List Event) : Prop :=
  ∃ i j l₁ l₂, l = l₁ ++ .save i :: l₂ ∧ (∀ k, .save k ∉ l₁) ∧ j ≠ i ∧ .find j ∈ l₁

/-- No client has lost its grant, and the level is the old one or one that was written. -/
def Keeps (old : GlobalConfig) (rs : List Request) (b : GlobalConfig) : Prop :=
  old.grantClients ⊆ b.grantClients ∧ (b.level = old.level ∨ .updateLevel b.level ∈ rs)

/-- What a request is for: its clients are granted, the level is one that was written. -/
def Effect (rs : List Request) (b : GlobalConfig) : Request → Prop
  | .addClient ids => ids ⊆ b.grantClients
  | .updateLevel _ => .updateLevel b.level ∈ rs

/-! ### The parts of a request -/

variable {h : HashSet} {c : GlobalConfigs} {rs : List Request} {l : List Event} {s t : State}
variable {old : GlobalConfig} {config : Config} {r q : Request} {i j k : ℕ}

lemma save_eq (c : GlobalConfigs) (config : Config) :
    GlobalConfigRepository.save c config = c.save (lookUp c config) := by
  unfold GlobalConfigRepository.save lookUp
  cases c.findOne fun _ => true <;> rfl

/-- A request that is not interrupted is the operation of the repository. -/
theorem run_alone (h : HashSet) (c : GlobalConfigs) (r : Request) :
    ((run (step h) (start c [r]) [.read 0, .find 0, .save 0]).map State.configs) =
      some (match r with
        | .addClient ids => addClient h ids c
        | .updateLevel level => updateLevel level c) := by
  cases r with
  | addClient ids => exact congrArg some (save_eq c _).symm
  | updateLevel level => exact congrArg some (save_eq c _).symm

@[simp] lemma change_id : (r.change h config).id = config.id := by
  cases r <;> rfl

@[simp] lemma lookUp_body : (lookUp c config).body = config.body := by
  unfold lookUp
  cases c.findOne fun _ => true <;> rfl

lemma lookUp_single {d : Document ObjectId GlobalConfig} (hd : c.docs = [d]) :
    (lookUp c config).id = some d.id := by
  rw [lookUp, findOne_single hd]

lemma findOne_nil (hc : c.docs = []) : (c.findOne fun _ => true) = none := by
  simp [Collection.findOne, hc]

lemma lookUp_nil (hc : c.docs = []) : lookUp c config = config := by
  rw [lookUp, findOne_nil hc]

lemma keeps_change (hr : r ∈ rs) (hk : Keeps old rs config.body) :
    Keeps old rs (r.change h config).body := by
  obtain ⟨hold, hlevel⟩ := hk
  cases r with
  | addClient ids =>
    refine ⟨fun x hx => ?_, hlevel⟩
    exact (h.mem_toList _ x).mpr (List.mem_append_left _ (hold hx))
  | updateLevel level => exact ⟨hold, .inr hr⟩

/-- A change has the effect of its request, and keeps that of the others. -/
lemma effect_change_self (hr : r ∈ rs) : Effect rs (r.change h config).body r := by
  cases r with
  | addClient ids =>
    intro x hx
    exact (h.mem_toList _ x).mpr (List.mem_append_right _ hx)
  | updateLevel level => exact hr

lemma effect_change (hr : r ∈ rs) (hq : Effect rs config.body q) :
    Effect rs (r.change h config).body q := by
  cases r with
  | addClient ids =>
    cases q with
    | addClient ids' =>
      intro x hx
      exact (h.mem_toList _ x).mpr (List.mem_append_left _ (hq hx))
    | updateLevel level => exact hq
  | updateLevel level =>
    cases q with
    | addClient ids' => exact hq
    | updateLevel level' => exact hr

/-! ### The order of the operations, one more at a time -/

lemma Overwritten.append (ho : Overwritten l i) (l' : List Event) : Overwritten (l ++ l') i := by
  obtain ⟨j, hne, hsub⟩ := ho
  exact ⟨j, hne, hsub.trans (List.sublist_append_left _ _)⟩

lemma overwritten_of_save (hne : j ≠ i) (hsub : List.Sublist [.read j, .save i] l) :
    Overwritten (l ++ [.save j]) i :=
  ⟨j, hne, hsub.append (List.Sublist.refl [Event.save j])⟩

lemma raced_append {a : Event} : Raced (l ++ [a]) ↔
    Raced l ∨ ∃ i j, a = .save i ∧ (∀ k, .save k ∉ l) ∧ j ≠ i ∧ .find j ∈ l := by
  constructor
  · rintro ⟨i, j, l₁, l₂, heq, hfirst, hne, hfind⟩
    rcases List.eq_nil_or_concat l₂ with rfl | ⟨l₂, b, rfl⟩
    · obtain ⟨rfl, ha⟩ := List.append_inj' heq rfl
      exact .inr ⟨i, j, List.singleton_inj.mp ha, hfirst, hne, hfind⟩
    · have heq' : l ++ [a] = (l₁ ++ .save i :: l₂) ++ [b] := by simpa using heq
      exact .inl ⟨i, j, l₁, l₂, (List.append_inj' heq' rfl).1, hfirst, hne, hfind⟩
  · rintro (⟨i, j, l₁, l₂, rfl, hfirst, hne, hfind⟩ | ⟨i, j, rfl, hfirst, hne, hfind⟩)
    · exact ⟨i, j, l₁, l₂ ++ [a], by simp, hfirst, hne, hfind⟩
    · exact ⟨i, j, l, [], rfl, hfirst, hne, hfind⟩

lemma not_raced_append {a : Event} (hs : .save i ∈ l) (hl : ¬ Raced l) : ¬ Raced (l ++ [a]) := by
  rw [raced_append]
  rintro (hr | ⟨_, _, _, hfirst, _⟩)
  · exact hl hr
  · exact hfirst i hs

/-! ### One operation -/

/-- An operation moves one thread on; only `save` writes the document. -/
lemma step_cases {e : Event} (hs : step h s e = some t) :
    (∃ i r, e = .read i ∧ s.threads[i]? = some ⟨r, .start⟩ ∧
      t = ⟨s.configs, s.threads.set i ⟨r, .changed (r.change h (read s.configs))⟩⟩) ∨
    (∃ i r config, e = .find i ∧ s.threads[i]? = some ⟨r, .changed config⟩ ∧
      t = ⟨s.configs, s.threads.set i ⟨r, .found (lookUp s.configs config)⟩⟩) ∨
    ∃ i r config, e = .save i ∧ s.threads[i]? = some ⟨r, .found config⟩ ∧
      t = ⟨s.configs.save config, s.threads.set i ⟨r, .done⟩⟩ := by
  cases e with
  | read i =>
    simp only [step] at hs
    split at hs
    · next r hi => exact .inl ⟨i, r, rfl, hi, by simpa using hs.symm⟩
    · cases hs
  | find i =>
    simp only [step] at hs
    split at hs
    · next r config hi => exact .inr (.inl ⟨i, r, config, rfl, hi, by simpa using hs.symm⟩)
    · cases hs
  | save i =>
    simp only [step] at hs
    split at hs
    · next r config hi => exact .inr (.inr ⟨i, r, config, rfl, hi, by simpa using hs.symm⟩)
    · cases hs

/-- The threads after one has been moved on: that one, and the others as they were. -/
lemma getElem?_set_cases {ts : List Thread} {u v : Thread} (hv : (ts.set i u)[k]? = some v) :
    (k = i ∧ v = u) ∨ (k ≠ i ∧ ts[k]? = some v) := by
  rw [List.getElem?_set] at hv
  split_ifs at hv with hik hlt
  · exact .inl ⟨hik.symm, (Option.some_inj.mp hv).symm⟩
  · exact .inr ⟨Ne.symm hik, hv⟩

lemma getElem?_set_of_ne {ts : List Thread} {u v : Thread} (hne : k ≠ i)
    (hv : ts[k]? = some v) : (ts.set i u)[k]? = some v := by
  rw [List.getElem?_set, if_neg (Ne.symm hne)]
  exact hv

lemma requests_set {ts : List Thread} {p p' : Point} (hi : ts[i]? = some ⟨r, p⟩) :
    (ts.set i ⟨r, p'⟩).map Thread.request = ts.map Thread.request := by
  have hr : ((ts.map Thread.request)[i]?) = some r := by rw [List.getElem?_map, hi]; rfl
  obtain ⟨hlt, hr⟩ := List.getElem?_eq_some_iff.mp hr
  rw [List.map_set, ← hr, List.set_getElem_self]

/-! ### What is written, and what is still to be written -/

/-- The configuration that a thread has still to write. -/
def Point.pending : Point → Option Config
  | .changed config => some config
  | .found config => some config
  | _ => none

structure Contents (old : GlobalConfig) (rs : List Request) (l : List Event) (s : State) :
    Prop where
  requests : s.threads.map Thread.request = rs
  keeps : Keeps old rs (read s.configs).body
  pending : ∀ {i u config}, s.threads[i]? = some u → u.point.pending = some config →
    Keeps old rs config.body ∧ Effect rs config.body u.request ∧ .read i ∈ l
  written : ∀ {i u}, s.threads[i]? = some u → u.point = .done →
    Effect rs (read s.configs).body u.request ∨ Overwritten l i
  -- what a finished request wrote is in what another has still to write, or was written after
  -- that one had read
  between : ∀ {i u j v config}, s.threads[i]? = some u → u.point = .done →
    s.threads[j]? = some v → v.point.pending = some config →
    Effect rs config.body u.request ∨ Overwritten l i ∨ List.Sublist [.read j, .save i] l

lemma Contents.mem (hc : Contents old rs l s) {u : Thread} (hu : s.threads[i]? = some u) :
    u.request ∈ rs := by
  rw [← hc.requests]
  exact List.mem_map_of_mem (List.mem_of_getElem? hu)

lemma Contents.read (hc : Contents old rs l s) (hi : s.threads[i]? = some ⟨r, .start⟩) :
    Contents old rs (l ++ [.read i])
      ⟨s.configs, s.threads.set i ⟨r, .changed (r.change h (read s.configs))⟩⟩ where
  requests := (requests_set hi).trans hc.requests
  keeps := hc.keeps
  pending := by
    intro k u config hk' hu
    rcases getElem?_set_cases hk' with ⟨rfl, rfl⟩ | ⟨-, hk⟩
    · cases hu
      exact ⟨keeps_change (hc.mem hi) hc.keeps, effect_change_self (hc.mem hi), by simp⟩
    · obtain ⟨hkeeps, heffect, hread⟩ := hc.pending hk hu
      exact ⟨hkeeps, heffect, List.mem_append_left _ hread⟩
  written := by
    intro k u hk' hu
    rcases getElem?_set_cases hk' with ⟨rfl, rfl⟩ | ⟨-, hk⟩
    · cases hu
    · exact (hc.written hk hu).imp_right fun ho => ho.append _
  between := by
    intro k u j v config hk' hu hj' hv
    rcases getElem?_set_cases hk' with ⟨rfl, rfl⟩ | ⟨-, hk⟩
    · cases hu
    rcases getElem?_set_cases hj' with ⟨rfl, rfl⟩ | ⟨-, hj⟩
    · -- what is read now has the effect of every request that is finished, or it is lost
      cases hv
      rcases hc.written hk hu with heffect | ho
      · exact .inl (effect_change (hc.mem hi) heffect)
      · exact .inr (.inl (ho.append _))
    · rcases hc.between hk hu hj hv with heffect | ho | hsub
      · exact .inl heffect
      · exact .inr (.inl (ho.append _))
      · exact .inr (.inr (hsub.trans (List.sublist_append_left _ _)))

lemma Contents.find (hc : Contents old rs l s)
    (hi : s.threads[i]? = some ⟨r, .changed config⟩) :
    Contents old rs (l ++ [.find i])
      ⟨s.configs, s.threads.set i ⟨r, .found (lookUp s.configs config)⟩⟩ where
  requests := (requests_set hi).trans hc.requests
  keeps := hc.keeps
  pending := by
    intro k u config' hk' hu
    rcases getElem?_set_cases hk' with ⟨rfl, rfl⟩ | ⟨-, hk⟩
    · cases hu
      obtain ⟨hkeeps, heffect, hread⟩ := hc.pending hi rfl
      rw [lookUp_body]
      exact ⟨hkeeps, heffect, List.mem_append_left _ hread⟩
    · obtain ⟨hkeeps, heffect, hread⟩ := hc.pending hk hu
      exact ⟨hkeeps, heffect, List.mem_append_left _ hread⟩
  written := by
    intro k u hk' hu
    rcases getElem?_set_cases hk' with ⟨rfl, rfl⟩ | ⟨-, hk⟩
    · cases hu
    · exact (hc.written hk hu).imp_right fun ho => ho.append _
  between := by
    intro k u j v config' hk' hu hj' hv
    rcases getElem?_set_cases hk' with ⟨rfl, rfl⟩ | ⟨-, hk⟩
    · cases hu
    have hbetween : Effect rs config'.body u.request ∨ Overwritten l k ∨
        List.Sublist [.read j, .save k] l := by
      rcases getElem?_set_cases hj' with ⟨rfl, rfl⟩ | ⟨-, hj⟩
      · cases hv
        rw [lookUp_body]
        exact hc.between hk hu hi rfl
      · exact hc.between hk hu hj hv
    rcases hbetween with heffect | ho | hsub
    · exact .inl heffect
    · exact .inr (.inl (ho.append _))
    · exact .inr (.inr (hsub.trans (List.sublist_append_left _ _)))

lemma Contents.save (hc : Contents old rs l s) (hi : s.threads[i]? = some ⟨r, .found config⟩)
    (hread : (GlobalConfigRepository.read (s.configs.save config)).body = config.body) :
    Contents old rs (l ++ [.save i]) ⟨s.configs.save config, s.threads.set i ⟨r, .done⟩⟩ where
  requests := (requests_set hi).trans hc.requests
  keeps := by
    rw [hread]
    exact (hc.pending hi rfl).1
  pending := by
    intro k u config' hk' hu
    rcases getElem?_set_cases hk' with ⟨rfl, rfl⟩ | ⟨-, hk⟩
    · cases hu
    · obtain ⟨hkeeps, heffect, hread⟩ := hc.pending hk hu
      exact ⟨hkeeps, heffect, List.mem_append_left _ hread⟩
  written := by
    intro k u hk' hu
    rw [hread]
    rcases getElem?_set_cases hk' with ⟨rfl, rfl⟩ | ⟨hne, hk⟩
    · exact .inl (hc.pending hi rfl).2.1
    · rcases hc.between hk hu hi rfl with heffect | ho | hsub
      · exact .inl heffect
      · exact .inr (ho.append _)
      · exact .inr (overwritten_of_save (Ne.symm hne) hsub)
  between := by
    intro k u j v config' hk' hu hj' hv
    rcases getElem?_set_cases hj' with ⟨rfl, rfl⟩ | ⟨-, hj⟩
    · cases hv
    rcases getElem?_set_cases hk' with ⟨rfl, rfl⟩ | ⟨-, hk⟩
    · have hread := (hc.pending hj hv).2.2
      have hsave := List.Sublist.refl [Event.save k]
      exact .inr (.inr ((List.singleton_sublist.mpr hread).append hsave))
    · rcases hc.between hk hu hj hv with heffect | ho | hsub
      · exact .inl heffect
      · exact .inr (.inl (ho.append _))
      · exact .inr (.inr (hsub.trans (List.sublist_append_left _ _)))

/-! ### How many documents there are -/

/-- There was no document, and there is none yet. -/
structure Unwritten (c : GlobalConfigs) (l : List Event) (s : State) : Prop where
  empty : c.docs = []
  docs : s.configs.docs = []
  noSave : ∀ k, .save k ∉ l
  noDone : ∀ {i : ℕ} {u : Thread}, s.threads[i]? = some u → u.point ≠ .done
  fresh : ∀ {i : ℕ} {u : Thread} {config : Config}, s.threads[i]? = some u →
    u.point.pending = some config → config.id = none
  finding : ∀ k, .find k ∈ l ↔ ∃ r config, s.threads[k]? = some ⟨r, .found config⟩

/-- There is one document, and every request that has looked for it writes over it. -/
structure OneDocument (c : GlobalConfigs) (l : List Event) (s : State) : Prop where
  docs : ∃ d, s.configs.docs = [d] ∧
    ∀ {i : ℕ} {r : Request} {config : Config}, s.threads[i]? = some ⟨r, .found config⟩ →
      config.id = some d.id
  somebody : c.docs = [] → s.threads ≠ []
  unraced : c.docs = [] → ¬ Raced l ∧ ∃ i, .save i ∈ l

/-- There was no document, and there is more than one, or a request will make another. -/
structure ManyDocuments (c : GlobalConfigs) (l : List Event) (s : State) : Prop where
  empty : c.docs = []
  raced : Raced l
  many : 2 ≤ s.configs.docs.length ∨ (s.configs.docs ≠ [] ∧
    ∃ (i : ℕ) (r : Request) (config : Config), s.threads[i]? = some ⟨r, .found config⟩ ∧
      config.id = none)

lemma Unwritten.read (hw : Unwritten c l s) (hi : s.threads[i]? = some ⟨r, .start⟩) :
    Unwritten c (l ++ [.read i])
      ⟨s.configs, s.threads.set i ⟨r, .changed (r.change h (read s.configs))⟩⟩ where
  empty := hw.empty
  docs := hw.docs
  noSave := fun k => by simpa using hw.noSave k
  noDone := by
    intro k u hk'
    rcases getElem?_set_cases hk' with ⟨rfl, rfl⟩ | ⟨-, hk⟩
    · exact Point.noConfusion
    · exact hw.noDone hk
  fresh := by
    intro k u config hk' hu
    rcases getElem?_set_cases hk' with ⟨rfl, rfl⟩ | ⟨-, hk⟩
    · cases hu
      rw [change_id, GlobalConfigRepository.read, findOne_nil hw.docs]
      rfl
    · exact hw.fresh hk hu
  finding := by
    intro k
    have hfind : .find k ∈ l ++ [.read i] ↔ .find k ∈ l := by simp
    rw [hfind, hw.finding k]
    refine exists_congr fun q => exists_congr fun config => ⟨fun hk => ?_, fun hk' => ?_⟩
    · refine getElem?_set_of_ne (fun hki => ?_) hk
      rw [hki, hi] at hk
      cases hk
    · rcases getElem?_set_cases hk' with ⟨rfl, hu⟩ | ⟨-, hk⟩
      · cases hu
      · exact hk

lemma Unwritten.find (hw : Unwritten c l s) (hi : s.threads[i]? = some ⟨r, .changed config⟩) :
    Unwritten c (l ++ [.find i])
      ⟨s.configs, s.threads.set i ⟨r, .found (lookUp s.configs config)⟩⟩ where
  empty := hw.empty
  docs := hw.docs
  noSave := fun k => by simpa using hw.noSave k
  noDone := by
    intro k u hk'
    rcases getElem?_set_cases hk' with ⟨rfl, rfl⟩ | ⟨-, hk⟩
    · exact Point.noConfusion
    · exact hw.noDone hk
  fresh := by
    intro k u config' hk' hu
    rcases getElem?_set_cases hk' with ⟨rfl, rfl⟩ | ⟨-, hk⟩
    · cases hu
      rw [lookUp_nil hw.docs]
      exact hw.fresh hi rfl
    · exact hw.fresh hk hu
  finding := by
    intro k
    rw [List.mem_append, List.mem_singleton, Event.find.injEq, hw.finding k]
    constructor
    · by_cases hki : k = i
      · subst hki
        exact fun _ => ⟨_, _, by rw [List.getElem?_set_self' , hi]; rfl⟩
      · rintro (⟨q, config', hk⟩ | rfl)
        · exact ⟨q, config', getElem?_set_of_ne hki hk⟩
        · exact absurd rfl hki
    · rintro ⟨q, config', hk'⟩
      rcases getElem?_set_cases hk' with ⟨rfl, -⟩ | ⟨-, hk⟩
      · exact .inr rfl
      · exact .inl ⟨q, config', hk⟩

/-- The first write makes the one document, if no other request has looked for it before. -/
lemma Unwritten.save (hw : Unwritten c l s) (hi : s.threads[i]? = some ⟨r, .found config⟩)
    (hnone : ∀ j, j ≠ i → .find j ∉ l) :
    OneDocument c (l ++ [.save i]) ⟨s.configs.save config, s.threads.set i ⟨r, .done⟩⟩ where
  docs := by
    refine ⟨_, (Collection.docs_save_new (hw.fresh hi rfl)).trans (by rw [hw.docs]; rfl), ?_⟩
    intro k q config' hk'
    rcases getElem?_set_cases hk' with ⟨rfl, hu⟩ | ⟨hne, hk⟩
    · cases hu
    · exact absurd ((hw.finding k).mpr ⟨q, config', hk⟩) (hnone k hne)
  somebody := by
    have hne : s.threads ≠ [] := List.ne_nil_of_mem (List.mem_of_getElem? hi)
    exact fun _ => mt (List.set_eq_nil_iff _ _).mp hne
  unraced := by
    refine fun _ => ⟨?_, i, by simp⟩
    rw [raced_append]
    rintro (⟨k, _, l₁, l₂, rfl, -⟩ | ⟨i', j, hi', -, hne, hfind⟩)
    · exact hw.noSave k (by simp)
    · cases hi'
      exact hnone j hne hfind

lemma Unwritten.save_raced (hw : Unwritten c l s)
    (hi : s.threads[i]? = some ⟨r, .found config⟩) (hne : j ≠ i) (hfind : .find j ∈ l) :
    ManyDocuments c (l ++ [.save i]) ⟨s.configs.save config, s.threads.set i ⟨r, .done⟩⟩ where
  empty := hw.empty
  raced := raced_append.mpr (.inr ⟨i, j, rfl, hw.noSave, hne, hfind⟩)
  many := by
    obtain ⟨q, config', hj⟩ := (hw.finding j).mp hfind
    refine .inr ⟨?_, j, q, config', getElem?_set_of_ne hne hj, hw.fresh hj rfl⟩
    rw [Collection.docs_save_new (hw.fresh hi rfl)]
    exact List.concat_ne_nil _ _

lemma OneDocument.unraced_append (ho : OneDocument c l s) (a : Event) :
    c.docs = [] → ¬ Raced (l ++ [a]) ∧ ∃ i, .save i ∈ l ++ [a] := by
  intro hc
  obtain ⟨hl, i, hs⟩ := ho.unraced hc
  exact ⟨not_raced_append hs hl, i, List.mem_append_left _ hs⟩

lemma OneDocument.read (ho : OneDocument c l s) {config : Config} :
    OneDocument c (l ++ [.read i]) ⟨s.configs, s.threads.set i ⟨r, .changed config⟩⟩ where
  docs := by
    obtain ⟨d, hd, hfound⟩ := ho.docs
    refine ⟨d, hd, fun {k q config'} hk' => ?_⟩
    rcases getElem?_set_cases hk' with ⟨rfl, hu⟩ | ⟨-, hk⟩
    · cases hu
    · exact hfound hk
  somebody := fun hc => mt (List.set_eq_nil_iff _ _).mp (ho.somebody hc)
  unraced := ho.unraced_append _

lemma OneDocument.find (ho : OneDocument c l s) :
    OneDocument c (l ++ [.find i])
      ⟨s.configs, s.threads.set i ⟨r, .found (lookUp s.configs config)⟩⟩ where
  docs := by
    obtain ⟨d, hd, hfound⟩ := ho.docs
    refine ⟨d, hd, fun {k q config'} hk' => ?_⟩
    rcases getElem?_set_cases hk' with ⟨rfl, hu⟩ | ⟨-, hk⟩
    · cases hu
      exact lookUp_single hd
    · exact hfound hk
  somebody := fun hc => mt (List.set_eq_nil_iff _ _).mp (ho.somebody hc)
  unraced := ho.unraced_append _

/-- A write over the one document leaves it the only one. -/
lemma docs_save_over {d : Document ObjectId GlobalConfig} (hd : c.docs = [d])
    (hid : config.id = some d.id) : (c.save config).docs = [⟨d.id, config.body⟩] := by
  simp [Collection.save, Collection.idFor, hd, hid, put]

lemma OneDocument.save (ho : OneDocument c l s)
    (hi : s.threads[i]? = some ⟨r, .found config⟩) :
    OneDocument c (l ++ [.save i]) ⟨s.configs.save config, s.threads.set i ⟨r, .done⟩⟩ where
  docs := by
    obtain ⟨d, hd, hfound⟩ := ho.docs
    refine ⟨_, docs_save_over hd (hfound hi), fun {k q config'} hk' => ?_⟩
    rcases getElem?_set_cases hk' with ⟨rfl, hu⟩ | ⟨-, hk⟩
    · cases hu
    · exact hfound hk
  somebody := fun hc => mt (List.set_eq_nil_iff _ _).mp (ho.somebody hc)
  unraced := ho.unraced_append _

/-- Once two requests have not found a document, there will be two. -/
lemma ManyDocuments.step {e : Event} (hm : ManyDocuments c l s) (hs : step h s e = some t) :
    ManyDocuments c (l ++ [e]) t where
  empty := hm.empty
  raced := raced_append.mpr (.inl hm.raced)
  many := by
    rcases step_cases hs with ⟨i, r, -, hi, rfl⟩ | ⟨i, r, config, -, hi, rfl⟩ |
      ⟨i, r, config, -, hi, rfl⟩
    · refine hm.many.imp_right fun ⟨hne, j, q, config', hj, hid⟩ => ⟨hne, j, q, config', ?_, hid⟩
      refine getElem?_set_of_ne (fun hji => ?_) hj
      rw [hji, hi] at hj
      cases hj
    · refine hm.many.imp_right fun ⟨hne, j, q, config', hj, hid⟩ => ⟨hne, j, q, config', ?_, hid⟩
      refine getElem?_set_of_ne (fun hji => ?_) hj
      rw [hji, hi] at hj
      cases hj
    · have hle : s.configs.docs.length ≤ (s.configs.save config).docs.length := length_le_put
      rcases hm.many with hlen | ⟨hne, j, q, config', hj, hid⟩
      · exact .inl (hlen.trans hle)
      have hpos : 1 ≤ s.configs.docs.length := List.length_pos_iff.mpr hne
      by_cases hji : j = i
      · left
        rw [hji, hi] at hj
        cases hj
        simp only [Collection.docs_save_new hid, List.length_append, List.length_singleton]
        omega
      · refine .inr ⟨?_, j, q, config', getElem?_set_of_ne hji hj, hid⟩
        exact List.length_pos_iff.mp (hpos.trans hle)

/-! ### Runs -/

/-- What the document is while it is the only one, and whether it will be. -/
def Progress (c : GlobalConfigs) (rs : List Request) (l : List Event) (s : State) : Prop :=
  (Unwritten c l s ∧ Contents (read c).body rs l s) ∨
    (OneDocument c l s ∧ Contents (read c).body rs l s) ∨ ManyDocuments c l s

lemma getElem?_start {u : Thread} (hu : (start c rs).threads[i]? = some u) :
    u.point = .start := by
  rw [start, List.getElem?_map, Option.map_eq_some_iff] at hu
  obtain ⟨r, -, rfl⟩ := hu
  rfl

lemma contents_start (c : GlobalConfigs) (rs : List Request) :
    Contents (read c).body rs [] (start c rs) where
  requests := by simp [start, Function.comp_def]
  keeps := ⟨List.Subset.refl _, .inl rfl⟩
  pending := fun hu hp => by
    rw [getElem?_start hu] at hp
    cases hp
  written := fun hu hp => by
    rw [getElem?_start hu] at hp
    cases hp
  between := fun hu hp => by
    rw [getElem?_start hu] at hp
    cases hp

lemma progress_start (hc : c.docs.length ≤ 1) : Progress c rs [] (start c rs) := by
  match hd : c.docs, hc with
  | [], _ =>
    refine .inl ⟨⟨hd, hd, by simp, fun hu => ?_, fun hu hp => ?_, fun k => ?_⟩,
      contents_start c rs⟩
    · rw [getElem?_start hu]
      exact Point.noConfusion
    · rw [getElem?_start hu] at hp
      cases hp
    · refine iff_of_false List.not_mem_nil ?_
      rintro ⟨r, config, hu⟩
      cases getElem?_start hu
  | [d], _ =>
    have hne : c.docs ≠ [] := by simp [hd]
    refine .inr (.inl ⟨⟨⟨d, hd, fun hu => ?_⟩, fun hnil => absurd hnil hne,
      fun hnil => absurd hnil hne⟩, contents_start c rs⟩)
    cases getElem?_start hu

lemma Progress.step {e : Event} (hp : Progress c rs l s) (hs : step h s e = some t) :
    Progress c rs (l ++ [e]) t := by
  rcases hp with ⟨hw, hcon⟩ | ⟨ho, hcon⟩ | hm
  · rcases step_cases hs with ⟨i, r, rfl, hi, rfl⟩ | ⟨i, r, config, rfl, hi, rfl⟩ |
      ⟨i, r, config, rfl, hi, rfl⟩
    · exact .inl ⟨hw.read hi, hcon.read hi⟩
    · exact .inl ⟨hw.find hi, hcon.find hi⟩
    · by_cases hrace : ∃ j, j ≠ i ∧ .find j ∈ l
      · obtain ⟨j, hne, hfind⟩ := hrace
        exact .inr (.inr (hw.save_raced hi hne hfind))
      · push Not at hrace
        refine .inr (.inl ⟨hw.save hi hrace, hcon.save hi ?_⟩)
        have hd := Collection.docs_save_new (c := s.configs) (hw.fresh hi rfl)
        rw [hw.docs] at hd
        rw [read_single hd]
        rfl
  · rcases step_cases hs with ⟨i, r, rfl, hi, rfl⟩ | ⟨i, r, config, rfl, hi, rfl⟩ |
      ⟨i, r, config, rfl, hi, rfl⟩
    · exact .inr (.inl ⟨ho.read, hcon.read hi⟩)
    · exact .inr (.inl ⟨ho.find, hcon.find hi⟩)
    · refine .inr (.inl ⟨ho.save hi, hcon.save hi ?_⟩)
      obtain ⟨d, hd, hfound⟩ := ho.docs
      rw [read_single (docs_save_over hd (hfound hi))]
      rfl
  · exact .inr (.inr (hm.step hs))

/-- **What concurrent requests leave.** Once all have finished, there is one document exactly
unless there was none before and two requests had looked for it before the first write. It
keeps every grant, its level is the old one or one that was written, and it has the effect of
every request but those that another one, which had read before them, overwrote. -/
theorem finished_of_interleaved (h : HashSet) (c : GlobalConfigs) (hc : c.docs.length ≤ 1)
    (rs : List Request) (l : List Event) (s : State)
    (hrun : run (step h) (start c rs) l = some s) (hdone : s.Finished) :
    ((∃ d, s.configs.docs = [d]) ↔ (c.docs = [] → rs ≠ [] ∧ ¬ Raced l)) ∧
      ∀ d, s.configs.docs = [d] → Keeps (read c).body rs d.body ∧
        ∀ i r, rs[i]? = some r → Effect rs d.body r ∨ Overwritten l i := by
  have hp : Progress c rs l s :=
    run_log_invariant (I := Progress c rs) (fun l s e t hp hs => hp.step hs)
      (progress_start hc) hrun
  rcases hp with ⟨hw, hcon⟩ | ⟨ho, hcon⟩ | hm
  · -- nobody has written, so there is nobody
    have hrs : rs = [] := by
      rw [← hcon.requests]
      cases hts : s.threads with
      | nil => rfl
      | cons u ts =>
        refine absurd (hdone u (by simp [hts])) (hw.noDone (i := 0) ?_)
        rw [hts]
        rfl
    refine ⟨iff_of_false ?_ (fun hall => (hall hw.empty).1 hrs), fun d hd => ?_⟩
    · rintro ⟨d, hd⟩
      rw [hw.docs] at hd
      cases hd
    · rw [hw.docs] at hd
      cases hd
  · obtain ⟨d, hd, -⟩ := ho.docs
    refine ⟨iff_of_true ⟨d, hd⟩ fun hnil => ⟨?_, (ho.unraced hnil).1⟩, ?_⟩
    · rw [← hcon.requests]
      exact List.map_eq_nil_iff.not.mpr (ho.somebody hnil)
    · intro d' hd'
      have hread : (read s.configs).body = d'.body := by rw [read_single hd']; rfl
      rw [← hread]
      refine ⟨hcon.keeps, fun i r hr => ?_⟩
      rw [← hcon.requests, List.getElem?_map, Option.map_eq_some_iff] at hr
      obtain ⟨u, hu, rfl⟩ := hr
      exact hcon.written hu (hdone u (List.mem_of_getElem? hu))
  · have hlen : ∀ d, s.configs.docs ≠ [d] := by
      intro d hd
      rcases hm.many with hlen | ⟨-, i, r, config, hi, -⟩
      · rw [hd] at hlen
        simp at hlen
      · cases hdone _ (List.mem_of_getElem? hi)
    refine ⟨iff_of_false (fun ⟨d, hd⟩ => hlen d hd) fun hall => (hall hm.empty).2 hm.raced, ?_⟩
    exact fun d hd => absurd hd (hlen d)

/-- Two requests at once, each for a client of its own. -/
def grantCAndD : List Request := [.addClient [some "c"], .addClient [some "d"]]

/-- The second request begins when the first has read and looked up, and finishes after it. -/
def overlap : List Event := [.read 0, .find 0, .read 1, .save 0, .find 1, .save 1]

theorem finished_of_interleaved_overlap :
    ∃ s, run (step lastInsertions) (start (stored twoGranted) grantCAndD) overlap = some s ∧
      ∃ d, s.configs.docs = [d] ∧ [some "a", some "b"] ⊆ d.body.grantClients ∧
        some "d" ∈ d.body.grantClients := by
  obtain ⟨s, hs⟩ := Option.isSome_iff_exists.mp (show (run (step lastInsertions)
    (start (stored twoGranted) grantCAndD) overlap).isSome by decide)
  refine ⟨s, hs, ?_⟩
  have hdone : s.Finished :=
    of_decide_eq_true (eq_of_map_run hs (fun s => decide s.Finished) true (by decide))
  obtain ⟨hone, hkept⟩ := finished_of_interleaved lastInsertions (stored twoGranted) (by decide)
    grantCAndD overlap s hs hdone
  obtain ⟨d, hd⟩ := hone.mpr fun hnil => absurd hnil (List.cons_ne_nil _ _)
  obtain ⟨hkeeps, heffect⟩ := hkept d hd
  refine ⟨d, hd, hkeeps.1, ?_⟩
  rcases heffect 1 _ rfl with hd | ⟨j, hne, hsub⟩
  · exact hd (List.mem_singleton_self _)
  · -- nothing is saved after the second request
    have hlast : List.Sublist [.save 1, .save j] overlap := (List.sublist_cons_self _ _).trans hsub
    have hsave : j = 0 ∨ j = 1 := by
      have hmem : Event.save j ∈ overlap :=
        hlast.subset (List.mem_cons_of_mem _ (List.mem_singleton_self _))
      simpa [overlap] using hmem
    rcases hsave with rfl | rfl
    · exact absurd hlast (by decide)
    · exact absurd hlast (by decide)

/-- What is left of the requests if none is to be lost. -/
def Kept (c : GlobalConfigs) (rs : List Request) (s : State) : Prop :=
  ∃ d, s.configs.docs = [d] ∧ Keeps (read c).body rs d.body ∧ ∀ r ∈ rs, Effect rs d.body r

/-- Updates are lost. Both requests read before one of them writes, and the first grant is gone;
both look for a document before one is written, and there are two. -/
theorem not_kept_of_overlap :
    (∃ s, run (step lastInsertions) (start (stored twoGranted) grantCAndD)
        [.read 0, .read 1, .find 0, .save 0, .find 1, .save 1] = some s ∧
      s.Finished ∧ s.configs.docs = [⟨1, 100, [some "a", some "b", some "d"]⟩] ∧
      ¬ Kept (stored twoGranted) grantCAndD s) ∧
    ∃ s, run (step lastInsertions) (start .empty grantCAndD)
        [.read 0, .read 1, .find 0, .find 1, .save 0, .save 1] = some s ∧
      s.Finished ∧ s.configs.docs.length = 2 ∧ ¬ Kept .empty grantCAndD s := by
  constructor
  · obtain ⟨s, hs⟩ := Option.isSome_iff_exists.mp (show (run (step lastInsertions)
      (start (stored twoGranted) grantCAndD)
      [.read 0, .read 1, .find 0, .save 0, .find 1, .save 1]).isSome by decide)
    have hdone := eq_of_map_run hs (fun s => decide s.Finished) true (by decide)
    have hdocs := eq_of_map_run hs (fun s => s.configs.docs)
      [⟨1, 100, [some "a", some "b", some "d"]⟩] (by decide)
    refine ⟨s, hs, of_decide_eq_true hdone, hdocs, ?_⟩
    rintro ⟨d, hd, -, heffect⟩
    obtain rfl := List.singleton_inj.mp (hdocs.symm.trans hd)
    have hc : [some "c"] ⊆ [some "a", some "b", some "d"] :=
      heffect (.addClient [some "c"]) (by decide)
    exact absurd hc (by decide)
  · obtain ⟨s, hs⟩ := Option.isSome_iff_exists.mp (show (run (step lastInsertions)
      (start .empty grantCAndD)
      [.read 0, .read 1, .find 0, .find 1, .save 0, .save 1]).isSome by decide)
    have hdone := eq_of_map_run hs (fun s => decide s.Finished) true (by decide)
    have htwo := eq_of_map_run hs (fun s => s.configs.docs.length) 2 (by decide)
    refine ⟨s, hs, of_decide_eq_true hdone, htwo, ?_⟩
    rintro ⟨d, hd, -⟩
    rw [hd] at htwo
    cases htwo

end Logful.GlobalConfigInterleaving
