import Logful.Settings
import Logful.SimpleClientDetailService
import Logful.StringUtil

/-!
`AppRestController.updateApp`, with `ApplicationRepository.update`.

An application is a document of the collection of clients, and a request to update one has two ids
for it: that of the path, and that of the payload. The document that is updated is the one of the
payload.
-/

namespace Logful.AppRestController

open Logful.Documents Logful.Settings Logful.SimpleClientDetailService Logful.StringUtil

variable {Info : Type}

/-! ### Applications -/

/-- A document of the collection `oauth2_client`, with the fields that do not come from client
details. -/
structure Application (Info : Type) extends SimpleClientDetails Info where
  name : Option String
  description : Option String
  packageName : Option String
  bundleId : Option String
  getuiAppId : Option String
  getuiAppKey : Option String
  getuiMasterSecret : Option String
  createDate : Option ℤ
  updateDate : Option ℤ

abbrev Applications (Info : Type) := Collection ObjectId (Application Info)

/-- The constructor, with the validities of a new `BaseClientDetails`. -/
def newApplication [EmptyCollection Info] : Entity ObjectId (Application Info) where
  id := none
  body :=
    { clientId := none
      resourceIds := some ∅
      secretRequired := false
      clientSecret := none
      isScoped := false
      scope := some ∅
      authorizedGrantTypes := some ∅
      registeredRedirectUri := some ∅
      authorities := []
      accessTokenValiditySeconds := none
      refreshTokenValiditySeconds := none
      autoApprove := false
      additionalInformation := some ∅
      name := none
      description := none
      packageName := none
      bundleId := none
      getuiAppId := none
      getuiAppKey := none
      getuiMasterSecret := none
      createDate := none
      updateDate := none }

/-- A member of a payload, as the setter that is called for it; there is none for the members that
are ignored. -/
inductive Setting
  | id (s : Option ObjectId)
  | name (s : Option String)
  | description (s : Option String)
  | packageName (s : Option String)
  | bundleId (s : Option String)
  | getuiAppId (s : Option String)
  | getuiAppKey (s : Option String)
  | getuiMasterSecret (s : Option String)
  | createDate (d : Option ℤ)
  | updateDate (d : Option ℤ)
  | clientId (s : Option String)
  | clientSecret (s : Option String)
  | ignored
  deriving DecidableEq

/-- The setter. -/
def set (a : Entity ObjectId (Application Info)) : Setting → Entity ObjectId (Application Info)
  | .id s => { a with id := s }
  | .name s => { a with body.name := s }
  | .description s => { a with body.description := s }
  | .packageName s => { a with body.packageName := s }
  | .bundleId s => { a with body.bundleId := s }
  | .getuiAppId s => { a with body.getuiAppId := s }
  | .getuiAppKey s => { a with body.getuiAppKey := s }
  | .getuiMasterSecret s => { a with body.getuiMasterSecret := s }
  | .createDate d => { a with body.createDate := d }
  | .updateDate d => { a with body.updateDate := d }
  | .clientId s => { a with body.clientId := s }
  | .clientSecret s => { a with body.clientSecret := s }
  | .ignored => a

/-- `readValue`, for a payload that can be bound. -/
def readValue [EmptyCollection Info] (settings : List Setting) :
    Entity ObjectId (Application Info) :=
  settings.foldl set newApplication

/-! ### ApplicationRepository.update -/

/-- A document with the eight fields of an update. -/
def withFields (client old : Application Info) : Application Info :=
  { old with
    name := client.name
    description := client.description
    packageName := client.packageName
    bundleId := client.bundleId
    getuiAppId := client.getuiAppId
    getuiAppKey := client.getuiAppKey
    getuiMasterSecret := client.getuiMasterSecret
    updateDate := client.updateDate }

/-- `update`, and whether it found the document. No document has the id null. -/
def update (applications : Applications Info) (client : Entity ObjectId (Application Info)) :
    Applications Info × Bool :=
  match client.id.bind applications.findById with
  | some old => (applications.save ⟨some old.id, withFields client.body old.body⟩, true)
  | none => (applications, false)

/-! ### AppRestController.updateApp -/

inductive Answer (Info : Type)
  | created (a : Entity ObjectId (Application Info))
  | notAcceptable

/-- `updateApp`: every exception of it becomes a `NotAcceptableException`. -/
def updateApp [EmptyCollection Info] (_id : ObjectId) (payload : Option (List Setting)) (now : ℤ)
    (applications : Applications Info) : Applications Info × Answer Info :=
  match payload with
  | none => (applications, .notAcceptable)
  | some settings =>
    let temp : Entity ObjectId (Application Info) := readValue settings
    if isEmpty temp.body.name then (applications, .notAcceptable)
    else
      let temp := { temp with body.updateDate := some now }
      match update applications temp with
      | (applications, true) => (applications, .created temp)
      | (applications, false) => (applications, .notAcceptable)

/-! ### What an update may change -/

/-- The fields that an update has to leave alone. -/
structure Keeps (old new : Application Info) : Prop where
  clientId : new.clientId = old.clientId
  clientSecret : new.clientSecret = old.clientSecret
  keyPair : new.additionalInformation = old.additionalInformation
  authorizedGrantTypes : new.authorizedGrantTypes = old.authorizedGrantTypes
  scope : new.scope = old.scope
  createDate : new.createDate = old.createDate

/-- Of the documents, at most the one with the id has changed, and it keeps its fields; where there
is none, or the request was refused, nothing has. -/
structure OnlyOf (id : ObjectId) (old new : Applications Info) (answer : Answer Info) : Prop where
  others : ∀ d : Document ObjectId (Application Info), d.id ≠ id → (d ∈ new.docs ↔ d ∈ old.docs)
  keeps : ∀ d ∈ old.docs, d.id = id → ∃ d' ∈ new.docs, d'.id = id ∧ Keeps d.body d'.body
  missing : id ∉ old.ids → new = old
  refused : answer = .notAcceptable → new = old

variable {id : ObjectId} {old new : Applications Info}

lemma Keeps.refl (a : Application Info) : Keeps a a := ⟨rfl, rfl, rfl, rfl, rfl, rfl⟩

lemma keeps_withFields (client a : Application Info) : Keeps a (withFields client a) :=
  ⟨rfl, rfl, rfl, rfl, rfl, rfl⟩

lemma onlyOf_refl (answer : Answer Info) : OnlyOf id old old answer where
  others := fun _ _ => Iff.rfl
  keeps := fun d hd hid => ⟨d, hd, hid, .refl d.body⟩
  missing := fun _ => rfl
  refused := fun _ => rfl

section Update

variable [EmptyCollection Info]

variable (Info) in
/-- The application of a payload, as it is handed to the repository. -/
def requested (settings : List Setting) (now : ℤ) : Entity ObjectId (Application Info) :=
  let temp : Entity ObjectId (Application Info) := readValue settings
  { temp with body.updateDate := some now }

/-- The payload is bound, has a name, and names the document by its own id. -/
def Names (payload : Option (List Setting)) (now : ℤ) (settings : List Setting)
    (d : Document ObjectId (Application Info)) : Prop :=
  payload = some settings ∧
    isEmpty (requested Info settings now).body.name = false ∧
    (requested Info settings now).id = some d.id

/-- A request updates the document that its payload names, or is refused. -/
lemma updateApp_cases (id : ObjectId) (payload : Option (List Setting)) (now : ℤ)
    (old : Applications Info) :
    (∃ settings, ∃ d ∈ old.docs, Names payload now settings d ∧
      updateApp id payload now old =
        (old.save ⟨some d.id, withFields (requested Info settings now).body d.body⟩,
          .created (requested Info settings now))) ∨
    ((∀ settings, ∀ d ∈ old.docs, ¬ Names payload now settings d) ∧
      updateApp id payload now old = (old, .notAcceptable)) := by
  cases payload with
  | none =>
    refine .inr ⟨fun settings d _ hnames => ?_, rfl⟩
    cases hnames.1
  | some settings =>
    by_cases hname : isEmpty (requested Info settings now).body.name = true
    · refine .inr ⟨fun settings' d _ hnames => ?_, if_pos hname⟩
      obtain ⟨hpayload, hnonempty, -⟩ := hnames
      cases hpayload
      rw [hname] at hnonempty
      cases hnonempty
    · have hupdate : updateApp id (some settings) now old =
          match update old (requested Info settings now) with
          | (applications, true) => (applications, .created (requested Info settings now))
          | (applications, false) => (applications, .notAcceptable) := if_neg hname
      rw [Bool.not_eq_true] at hname
      rw [hupdate]
      cases hfound : (requested Info settings now).id.bind old.findById with
      | some d =>
        obtain ⟨k, hk, hd⟩ := Option.bind_eq_some_iff.mp hfound
        obtain ⟨hmem, rfl⟩ := Collection.findById_eq_some.mp hd
        refine .inl ⟨settings, d, hmem, ⟨rfl, hname, hk⟩, ?_⟩
        simp only [update, hfound]
      | none =>
        refine .inr ⟨fun settings' d hd hnames => ?_, ?_⟩
        · obtain ⟨hpayload, -, hid⟩ := hnames
          cases hpayload
          rw [hid, Option.bind_some, Collection.findById_eq_none] at hfound
          exact hfound (List.mem_map_of_mem hd)
        · simp only [update, hfound]

/-- **When an update changes only the application of its path.** It does so exactly when the
document that the payload names, if it is bound and has a name, and there is such a document, is
the one of the path, or has already the values of the payload and the current time. -/
theorem onlyOf_iff (id : ObjectId) (payload : Option (List Setting)) (now : ℤ)
    (old : Applications Info) :
    OnlyOf id old (updateApp id payload now old).1 (updateApp id payload now old).2 ↔
      ∀ settings, ∀ d ∈ old.docs, Names payload now settings d →
        d.id = id ∨ withFields (requested Info settings now).body d.body = d.body := by
  rcases updateApp_cases id payload now old with ⟨settings, d, hd, hnames, heq⟩ | ⟨hnone, heq⟩
  · rw [heq]
    constructor
    · intro honly settings' e he hnames'
      obtain ⟨hpayload, -, hid⟩ := hnames
      obtain ⟨hpayload', -, hid'⟩ := hnames'
      rw [hpayload, Option.some_inj] at hpayload'
      subst hpayload'
      rw [hid, Option.some_inj] at hid'
      have hsame : d = e := List.inj_on_of_nodup_map old.nodup hd he hid'
      subst hsame
      by_contra hother
      rw [not_or] at hother
      let saved : Document ObjectId (Application Info) :=
        ⟨d.id, withFields (requested Info settings now).body d.body⟩
      have hmem : saved ∈ old.docs :=
        (honly.others saved hother.1).mp (Collection.mem_save.mpr (.inl rfl))
      exact hother.2 (congrArg Document.body (List.inj_on_of_nodup_map old.nodup hmem hd rfl))
    · intro h
      rcases h settings d hd hnames with rfl | hvalues
      · refine ⟨fun e he => ?_, fun e _ hid => ?_, fun hmissing => ?_, fun hanswer => ?_⟩
        · rw [Collection.mem_save]
          constructor
          · rintro (rfl | ⟨hmem, -⟩)
            · exact absurd rfl he
            · exact hmem
          · exact fun hmem => .inr ⟨hmem, he⟩
        · have hsame : e = d := List.inj_on_of_nodup_map old.nodup ‹_› hd hid
          subst hsame
          exact ⟨_, Collection.mem_save.mpr (.inl rfl), rfl, keeps_withFields _ _⟩
        · exact absurd (List.mem_map_of_mem hd) hmissing
        · cases hanswer
      · rw [hvalues]
        have hsave : old.save ⟨some d.id, d.body⟩ = old := Collection.save_entity hd
        rw [hsave]
        exact onlyOf_refl _
  · rw [heq]
    exact iff_of_true (onlyOf_refl _) fun settings d hd hnames =>
      absurd hnames (hnone settings d hd)

end Update

/-! ### Concrete applications -/

/-- An application with a name. -/
def named (name : String) : Application (List Unit) :=
  let a : Entity ObjectId (Application (List Unit)) := newApplication
  { a.body with name := some name, clientId := some name }

def twoApplications : Applications (List Unit) := ⟨[⟨1, named "a"⟩, ⟨2, named "b"⟩], by decide⟩

/-- A request for the application 1 whose payload has the id 2: it is accepted, and renames the
application 2. -/
theorem not_onlyOf_otherId :
    ((updateApp 1 (some [.id (some 2), .name (some "x")]) 5 twoApplications).1.findById 2).map
        (fun d => d.body.name) = some (some "x") ∧
      ¬ OnlyOf 1 twoApplications
        (updateApp 1 (some [.id (some 2), .name (some "x")]) 5 twoApplications).1
        (updateApp 1 (some [.id (some 2), .name (some "x")]) 5 twoApplications).2 := by
  refine ⟨by decide, fun honly => ?_⟩
  have hkept := (honly.others ⟨2, named "b"⟩ (by decide)).mpr
    (List.mem_cons_of_mem _ (List.mem_singleton_self _))
  have hname := List.mem_map_of_mem (f := fun d => d.body.name) hkept
  revert hname
  decide

end Logful.AppRestController
