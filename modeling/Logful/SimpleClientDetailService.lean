import Logful.Documents
import Logful.Runs
import Mathlib.Data.Finset.Card

/-!
`SimpleClientDetailService`, and the map from client ids to client details it stands for.

Details are copied field by field into a document and back into a `BaseClientDetails`, which
answers some of its getters from other fields and others from their initial values. A call
returns or throws, and the collection it leaves is given in both cases.
-/

namespace Logful.SimpleClientDetailService

open Logful.Documents Logful.Runs

/-- A client id, which may be null. -/
abbrev ClientId := Option String

/-- A set of strings, which may be null. -/
abbrev StringSet := Option (Finset String)

variable {Info : Type}

/-- What the getters of a `ClientDetails` return. -/
structure ClientDetails (Info : Type) where
  clientId : ClientId
  resourceIds : StringSet
  secretRequired : Bool
  clientSecret : Option String
  isScoped : Bool
  scope : StringSet
  authorizedGrantTypes : StringSet
  registeredRedirectUri : StringSet
  authorities : List String
  accessTokenValiditySeconds : Option ℤ
  refreshTokenValiditySeconds : Option ℤ
  autoApprove : String → Bool
  additionalInformation : Option Info

/-- How a `BaseClientDetails` answers the getters that none of the setters called here has a
field for: from the secret, from the scope, or as it does when it is new. -/
structure BaseClientDetails where
  isSecretRequired : Option String → Bool
  isScoped : StringSet → Bool
  authorities : List String
  isAutoApprove : String → Bool

/-- The fields of a document that come from client details. -/
structure SimpleClientDetails (Info : Type) where
  clientId : ClientId
  resourceIds : StringSet
  secretRequired : Bool
  clientSecret : Option String
  isScoped : Bool
  scope : StringSet
  authorizedGrantTypes : StringSet
  registeredRedirectUri : StringSet
  authorities : List String
  accessTokenValiditySeconds : Option ℤ
  refreshTokenValiditySeconds : Option ℤ
  autoApprove : Bool
  additionalInformation : Option Info

/-- The constructor `SimpleClientDetails(ClientDetails)`: it has no part for the authorities
and for the automatic approval, which keep their initial values. -/
def SimpleClientDetails.new (clientDetails : ClientDetails Info) : SimpleClientDetails Info where
  accessTokenValiditySeconds := clientDetails.accessTokenValiditySeconds
  additionalInformation := clientDetails.additionalInformation
  authorizedGrantTypes := clientDetails.authorizedGrantTypes
  clientId := clientDetails.clientId
  clientSecret := clientDetails.clientSecret
  refreshTokenValiditySeconds := clientDetails.refreshTokenValiditySeconds
  registeredRedirectUri := clientDetails.registeredRedirectUri
  resourceIds := clientDetails.resourceIds
  scope := clientDetails.scope
  isScoped := clientDetails.isScoped
  secretRequired := clientDetails.secretRequired
  authorities := []
  autoApprove := false

/-- A set field as it is read: null is not stored, and the field keeps its initial empty set. -/
def readSet (s : StringSet) : StringSet := some (s.getD ∅)

/-- A document as it is read into an object. -/
def SimpleClientDetails.read [EmptyCollection Info] (s : SimpleClientDetails Info) :
    SimpleClientDetails Info :=
  { s with
    resourceIds := readSet s.resourceIds
    scope := readSet s.scope
    authorizedGrantTypes := readSet s.authorizedGrantTypes
    registeredRedirectUri := readSet s.registeredRedirectUri
    additionalInformation := some (s.additionalInformation.getD ∅) }

abbrev Clients (Info : Type) := Collection ObjectId (SimpleClientDetails Info)

/-! ### The service -/

section Service

variable [EmptyCollection Info]

/-- The oldest document of a client. -/
def findByClientId (c : Clients Info) (clientId : ClientId) :
    Option (Entity ObjectId (SimpleClientDetails Info)) :=
  (c.findOne fun b => b.clientId = clientId).map fun d => ⟨some d.id, d.body.read⟩

def getClientFromSimpleClientDetail (base : BaseClientDetails) (s : SimpleClientDetails Info) :
    ClientDetails Info where
  accessTokenValiditySeconds := s.accessTokenValiditySeconds
  authorizedGrantTypes := s.authorizedGrantTypes
  clientId := s.clientId
  clientSecret := s.clientSecret
  refreshTokenValiditySeconds := s.refreshTokenValiditySeconds
  registeredRedirectUri := s.registeredRedirectUri
  resourceIds := s.resourceIds
  scope := s.scope
  additionalInformation := s.additionalInformation
  secretRequired := base.isSecretRequired s.clientSecret
  isScoped := base.isScoped s.scope
  authorities := base.authorities
  autoApprove := base.isAutoApprove

inductive Thrown
  | clientRegistration | clientAlreadyExists | noSuchClient
  deriving DecidableEq

def loadClientByClientId (base : BaseClientDetails) (c : Clients Info) (clientId : ClientId) :
    Except Thrown (ClientDetails Info) :=
  match findByClientId c clientId with
  | none => .error .clientRegistration
  | some e => .ok (getClientFromSimpleClientDetail base e.body)

def addClientDetails (c : Clients Info) (clientDetails : ClientDetails Info) :
    Clients Info × Option Thrown :=
  (c.save ⟨none, .new clientDetails⟩, none)

def updateClientDetails (c : Clients Info) (clientDetails : ClientDetails Info) :
    Clients Info × Option Thrown :=
  match findByClientId c clientDetails.clientId with
  | none => (c, some .noSuchClient)
  | some _ => (c.save ⟨none, .new clientDetails⟩, none)

def updateClientSecret (c : Clients Info) (clientId : ClientId) (secret : Option String) :
    Clients Info × Option Thrown :=
  match findByClientId c clientId with
  | none => (c, some .noSuchClient)
  | some e => (c.save { e with body := { e.body with clientSecret := secret } }, none)

/-- The document that is deleted is named by its id. -/
def removeClientDetails (c : Clients Info) (clientId : ClientId) :
    Clients Info × Option Thrown :=
  match findByClientId c clientId with
  | none => (c, some .noSuchClient)
  | some e => (c.remove fun d => some d.id = e.id, none)

def listClientDetails (base : BaseClientDetails) (c : Clients Info) : List (ClientDetails Info) :=
  c.docs.map fun d => getClientFromSimpleClientDetail base d.body.read

end Service

inductive Op (Info : Type)
  | add (d : ClientDetails Info)
  | update (d : ClientDetails Info)
  | updateSecret (clientId : ClientId) (secret : Option String)
  | remove (clientId : ClientId)

def call [EmptyCollection Info] (c : Clients Info) : Op Info → Clients Info × Option Thrown
  | .add d => addClientDetails c d
  | .update d => updateClientDetails c d
  | .updateSecret clientId secret => updateClientSecret c clientId secret
  | .remove clientId => removeClientDetails c clientId

/-- The collection after a call, whether it returned or threw. -/
def apply [EmptyCollection Info] (c : Clients Info) (op : Op Info) : Clients Info := (call c op).1

/-! ### The map -/

/-- What the service is for: the details registered under each client id. -/
abbrev Registry (Info : Type) := ClientId → Option (ClientDetails Info)

/-- A call on the map: one that is to throw changes nothing. -/
def Registry.apply (r : Registry Info) : Op Info → Registry Info
  | .add d => if (r d.clientId).isSome then r else Function.update r d.clientId (some d)
  | .update d => if (r d.clientId).isSome then Function.update r d.clientId (some d) else r
  | .updateSecret clientId secret =>
    Function.update r clientId ((r clientId).map fun d => { d with clientSecret := secret })
  | .remove clientId => Function.update r clientId none

variable [EmptyCollection Info]

/-- The collection stands for the map: one document a client at most, the details of the map
are loaded, and listed once each. -/
structure Refines (base : BaseClientDetails) (c : Clients Info) (r : Registry Info) : Prop where
  onePer : c.OnePer SimpleClientDetails.clientId
  load : ∀ k, (loadClientByClientId base c k).toOption = r k
  list_nodup : ((listClientDetails base c).map ClientDetails.clientId).Nodup
  mem_list : ∀ d, d ∈ listClientDetails base c ↔ r d.clientId = some d

/-- Details that survive the copy into a document and back. -/
structure Lossless (base : BaseClientDetails) (d : ClientDetails Info) : Prop where
  authorities : d.authorities = base.authorities
  autoApprove : d.autoApprove = base.isAutoApprove
  secretRequired : d.secretRequired = base.isSecretRequired d.clientSecret
  isScoped : d.isScoped = base.isScoped d.scope
  resourceIds : d.resourceIds.isSome
  scope : d.scope.isSome
  authorizedGrantTypes : d.authorizedGrantTypes.isSome
  registeredRedirectUri : d.registeredRedirectUri.isSome
  additionalInformation : d.additionalInformation.isSome

/-- The calls that the collection follows: a new client with lossless details, an update of
a client that is not there, a secret that is required as before, any removal. -/
def Followed (base : BaseClientDetails) (r : Registry Info) : Op Info → Prop
  | .add d => r d.clientId = none ∧ Lossless base d
  | .update d => r d.clientId = none
  | .updateSecret clientId secret =>
    ∀ d, r clientId = some d → d.secretRequired = base.isSecretRequired secret
  | .remove _ => True

/-! ### The two conversions -/

lemma readSet_eq_iff {s : StringSet} : readSet s = s ↔ s.isSome := by
  cases s <;> simp [readSet]

/-- **The round trip of the conversions** gives back exactly the lossless details. -/
theorem roundTrip_iff (base : BaseClientDetails) (d : ClientDetails Info) :
    getClientFromSimpleClientDetail base (SimpleClientDetails.new d).read = d ↔
      Lossless base d := by
  have hinfo : some (d.additionalInformation.getD ∅) = d.additionalInformation ↔
      d.additionalInformation.isSome := by
    cases d.additionalInformation <;> simp
  constructor
  · intro h
    have hscope := congrArg ClientDetails.scope h
    have hscoped := congrArg ClientDetails.isScoped h
    refine ⟨?_, ?_, ?_, ?_, ?_, ?_, ?_, ?_, ?_⟩
    · exact (congrArg ClientDetails.authorities h).symm
    · exact (congrArg ClientDetails.autoApprove h).symm
    · exact (congrArg ClientDetails.secretRequired h).symm
    · rw [← hscope]
      exact hscoped.symm
    · exact readSet_eq_iff.mp (congrArg ClientDetails.resourceIds h)
    · exact readSet_eq_iff.mp hscope
    · exact readSet_eq_iff.mp (congrArg ClientDetails.authorizedGrantTypes h)
    · exact readSet_eq_iff.mp (congrArg ClientDetails.registeredRedirectUri h)
    · exact hinfo.mp (congrArg ClientDetails.additionalInformation h)
  · intro h
    have h1 := readSet_eq_iff.mpr h.resourceIds
    have h2 := readSet_eq_iff.mpr h.scope
    have h3 := readSet_eq_iff.mpr h.authorizedGrantTypes
    have h4 := readSet_eq_iff.mpr h.registeredRedirectUri
    have h5 := hinfo.mpr h.additionalInformation
    simp only [getClientFromSimpleClientDetail, SimpleClientDetails.read,
      SimpleClientDetails.new, h1, h2, h3, h4, h5]
    rw [← h.authorities, ← h.autoApprove, ← h.secretRequired, ← h.isScoped]

/-! ### Loading and listing -/

variable {base : BaseClientDetails} {c : Clients Info} {r : Registry Info}

lemma loadClientByClientId_eq (k : ClientId) :
    (loadClientByClientId base c k).toOption =
      (c.findOne fun b => b.clientId = k).map fun d =>
        getClientFromSimpleClientDetail base d.body.read := by
  unfold loadClientByClientId findByClientId
  cases c.findOne fun b => b.clientId = k <;> rfl

/-- With one document a client, the details that are loaded are those of a document. -/
lemma load_eq_some (base : BaseClientDetails) (h : c.OnePer SimpleClientDetails.clientId)
    {k : ClientId} {d : ClientDetails Info} : (loadClientByClientId base c k).toOption = some d ↔
      ∃ e ∈ c.docs, e.body.clientId = k ∧
        getClientFromSimpleClientDetail base e.body.read = d := by
  rw [loadClientByClientId_eq, Option.map_eq_some_iff]
  constructor
  · rintro ⟨e, he, rfl⟩
    obtain ⟨he, hk⟩ := h.findOne.mp he
    exact ⟨e, he, hk, rfl⟩
  · rintro ⟨e, he, hk, rfl⟩
    exact ⟨e, h.findOne.mpr ⟨he, hk⟩, rfl⟩

/-- A client is found exactly when it is loaded. -/
lemma findByClientId_eq_none (base : BaseClientDetails) {k : ClientId} :
    findByClientId c k = none ↔ (loadClientByClientId base c k).toOption = none := by
  rw [loadClientByClientId_eq, findByClientId, Option.map_eq_none_iff, Option.map_eq_none_iff]

/-- The list is as it is to be as soon as there is one document a client and loading is. -/
lemma refines_iff : Refines base c r ↔ c.OnePer SimpleClientDetails.clientId ∧
    ∀ k, (loadClientByClientId base c k).toOption = r k := by
  refine ⟨fun h => ⟨h.onePer, h.load⟩, fun ⟨h, hload⟩ => ⟨h, hload, ?_, fun d => ?_⟩⟩
  · rw [listClientDetails, List.map_map]
    exact h.nodup
  · rw [← hload, load_eq_some base h, listClientDetails, List.mem_map]
    constructor
    · rintro ⟨e, he, rfl⟩
      exact ⟨e, he, rfl, rfl⟩
    · rintro ⟨e, he, -, hd⟩
      exact ⟨e, he, hd⟩

lemma refines_empty (base : BaseClientDetails) :
    Refines base (Collection.empty : Clients Info) fun _ => none := by
  refine refines_iff.mpr ⟨Collection.onePer_empty, fun k => ?_⟩
  rw [loadClientByClientId_eq]
  rfl

/-- The document of a client that the map knows. -/
lemma Refines.doc (h : Refines base c r) {k : ClientId} {d : ClientDetails Info}
    (hd : r k = some d) : ∃ e ∈ c.docs, e.body.clientId = k ∧
      getClientFromSimpleClientDetail base e.body.read = d ∧
      findByClientId c k = some ⟨some e.id, e.body.read⟩ := by
  obtain ⟨e, he, hk, hed⟩ := (load_eq_some base h.onePer).mp ((h.load k).trans hd)
  refine ⟨e, he, hk, hed, ?_⟩
  rw [findByClientId, h.onePer.findOne.mpr ⟨he, hk⟩]
  rfl

lemma Refines.find_none (h : Refines base c r) {k : ClientId} (hk : r k = none) :
    findByClientId c k = none :=
  (findByClientId_eq_none base).mpr ((h.load k).trans hk)

/-- No document belongs to a client that the map does not know. -/
lemma Refines.clientId_ne (h : Refines base c r) {k : ClientId} (hk : r k = none)
    {e : Document ObjectId (SimpleClientDetails Info)} (he : e ∈ c.docs) :
    e.body.clientId ≠ k := by
  rintro rfl
  have hsome := (load_eq_some base h.onePer).mpr ⟨e, he, rfl, rfl⟩
  rw [h.load, hk] at hsome
  cases hsome

/-! ### One call -/

/-- Inserting the details of a client: the map is followed exactly when the client is new and
the details are lossless. -/
lemma insert_refines_iff (h : Refines base c r) (d : ClientDetails Info) {r' : Registry Info}
    (hr : r d.clientId = none → r' = Function.update r d.clientId (some d)) :
    Refines base (c.save ⟨none, .new d⟩) r' ↔ r d.clientId = none ∧ Lossless base d := by
  have hdocs : ∀ e, e ∈ (c.save ⟨none, SimpleClientDetails.new d⟩).docs ↔
      e ∈ c.docs ∨ e = ⟨Supply.fresh c.ids, .new d⟩ := by
    intro e
    rw [Collection.docs_save_new rfl, List.mem_append, List.mem_singleton]
  constructor
  · intro h'
    obtain ⟨-, hnew⟩ := (Collection.onePer_save_new rfl).mp h'.onePer
    have hnone : r d.clientId = none := by
      rw [Option.eq_none_iff_forall_ne_some]
      intro d' hd'
      obtain ⟨e, he, hk, -⟩ := h.doc hd'
      exact hnew e he hk
    have hload := h'.load d.clientId
    rw [hr hnone, Function.update_self, load_eq_some base h'.onePer] at hload
    obtain ⟨e, he, hk, hed⟩ := hload
    rcases (hdocs e).mp he with he | rfl
    · exact absurd hk (hnew e he)
    · exact ⟨hnone, (roundTrip_iff base d).mp hed⟩
  · rintro ⟨hnone, hd⟩
    have hone : (c.save ⟨none, .new d⟩).OnePer SimpleClientDetails.clientId :=
      (Collection.onePer_save_new rfl).mpr ⟨h.onePer, fun e he => h.clientId_ne hnone he⟩
    refine refines_iff.mpr ⟨hone, fun k => ?_⟩
    rw [hr hnone]
    by_cases hk : k = d.clientId
    · subst hk
      rw [Function.update_self, load_eq_some base hone]
      exact ⟨_, (hdocs _).mpr (.inr rfl), rfl, (roundTrip_iff base d).mpr hd⟩
    · rw [Function.update_of_ne hk, ← h.load]
      refine Option.ext fun d' => ?_
      rw [load_eq_some base hone, load_eq_some base h.onePer]
      constructor
      · rintro ⟨e, he, rfl, hed⟩
        rcases (hdocs e).mp he with he | rfl
        · exact ⟨e, he, rfl, hed⟩
        · exact absurd rfl hk
      · rintro ⟨e, he, hek, hed⟩
        exact ⟨e, (hdocs e).mpr (.inl he), hek, hed⟩

/-- Saving another secret into the document of a client. -/
lemma updateSecret_refines_iff (h : Refines base c r) {k : ClientId} {d : ClientDetails Info}
    (hd : r k = some d) (secret : Option String) :
    Refines base (updateClientSecret c k secret).1
        (Function.update r k (some { d with clientSecret := secret })) ↔
      d.secretRequired = base.isSecretRequired secret := by
  obtain ⟨e, he, rfl, rfl, hfind⟩ := h.doc hd
  set body := { e.body.read with clientSecret := secret } with hbody
  have hsave : (updateClientSecret c e.body.clientId secret).1 = c.save ⟨some e.id, body⟩ := by
    rw [updateClientSecret, hfind]
  have hdocs : ∀ f, f ∈ (c.save ⟨some e.id, body⟩).docs ↔
      f = ⟨e.id, body⟩ ∨ (f ∈ c.docs ∧ f.id ≠ e.id) := fun f => Collection.mem_save
  have hone : (c.save ⟨some e.id, body⟩).OnePer SimpleClientDetails.clientId :=
    h.onePer.save he rfl
  -- of the details of the client, only the two that depend on the secret are new
  have hget : getClientFromSimpleClientDetail base body.read =
      { getClientFromSimpleClientDetail base e.body.read with
        clientSecret := secret
        secretRequired := base.isSecretRequired secret } := rfl
  have hload : (loadClientByClientId base (c.save ⟨some e.id, body⟩)
      e.body.clientId).toOption = some (getClientFromSimpleClientDetail base body.read) :=
    (load_eq_some base hone).mpr ⟨_, (hdocs _).mpr (.inl rfl), rfl, rfl⟩
  rw [hsave]
  constructor
  · intro h'
    have hnew := h'.load e.body.clientId
    rw [hload, Function.update_self, hget, Option.some_inj] at hnew
    exact (congrArg ClientDetails.secretRequired hnew).symm
  · intro hreq
    refine refines_iff.mpr ⟨hone, fun k => ?_⟩
    by_cases hk : k = e.body.clientId
    · rw [hk, hload, Function.update_self, hget, ← hreq]
    · rw [Function.update_of_ne hk, ← h.load]
      refine Option.ext fun d' => ?_
      rw [load_eq_some base hone, load_eq_some base h.onePer]
      constructor
      · rintro ⟨f, hf, hfk, hfd⟩
        rcases (hdocs f).mp hf with rfl | ⟨hf, -⟩
        · exact absurd hfk.symm hk
        · exact ⟨f, hf, hfk, hfd⟩
      · rintro ⟨f, hf, hfk, hfd⟩
        refine ⟨f, (hdocs f).mpr (.inr ⟨hf, fun hid => hk ?_⟩), hfk, hfd⟩
        rw [← hfk, List.inj_on_of_nodup_map c.nodup hf he hid]

lemma remove_refines (h : Refines base c r) (k : ClientId) :
    Refines base (removeClientDetails c k).1 (Function.update r k none) := by
  cases hk : r k with
  | none =>
    rw [removeClientDetails, h.find_none hk, ← hk, Function.update_eq_self]
    exact h
  | some d =>
    obtain ⟨e, he, rfl, -, hfind⟩ := h.doc hk
    rw [removeClientDetails, hfind]
    have hdocs : ∀ f, f ∈ (c.remove fun d => some d.id = some e.id).docs ↔
        f ∈ c.docs ∧ f.id ≠ e.id := by
      intro f
      rw [Collection.mem_remove]
      simp
    have hone := h.onePer.remove fun d => decide (some d.id = some e.id)
    refine refines_iff.mpr ⟨hone, fun k => ?_⟩
    by_cases hek : k = e.body.clientId
    · rw [hek, Function.update_self, Option.eq_none_iff_forall_ne_some]
      intro d' hd'
      obtain ⟨f, hf, hfk, -⟩ := (load_eq_some base hone).mp hd'
      obtain ⟨hf, hne⟩ := (hdocs f).mp hf
      exact hne (congrArg Document.id (h.onePer f hf e he hfk))
    · rw [Function.update_of_ne hek, ← h.load]
      refine Option.ext fun d' => ?_
      rw [load_eq_some base hone, load_eq_some base h.onePer]
      constructor
      · rintro ⟨f, hf, hfk, hfd⟩
        exact ⟨f, ((hdocs f).mp hf).1, hfk, hfd⟩
      · rintro ⟨f, hf, hfk, hfd⟩
        refine ⟨f, (hdocs f).mpr ⟨hf, fun hid => hek ?_⟩, hfk, hfd⟩
        rw [← hfk, List.inj_on_of_nodup_map c.nodup hf he hid]

/-- **One call.** The collection goes on standing for the map exactly when the call is one
of those it follows. -/
theorem apply_refines_iff (h : Refines base c r) (op : Op Info) :
    Refines base (apply c op) (r.apply op) ↔ Followed base r op := by
  cases op with
  | add d =>
    refine insert_refines_iff h d fun hnone => ?_
    simp [Registry.apply, hnone]
  | update d =>
    cases hd : r d.clientId with
    | none =>
      have hr : r.apply (.update d) = r := by simp [Registry.apply, hd]
      rw [apply, call, updateClientDetails, h.find_none hd, hr]
      exact ⟨fun _ => hd, fun _ => h⟩
    | some d' =>
      obtain ⟨e, -, -, -, hfind⟩ := h.doc hd
      rw [apply, call, updateClientDetails, hfind]
      have hins : Refines base (c.save ⟨none, .new d⟩) (r.apply (.update d)) ↔
          r d.clientId = none ∧ Lossless base d := insert_refines_iff h d fun hnone => by
        rw [hd] at hnone
        cases hnone
      rw [hins]
      simp [Followed, hd]
  | updateSecret k secret =>
    cases hd : r k with
    | none =>
      have hr : r.apply (.updateSecret k secret) = r := by
        rw [Registry.apply, hd, Option.map_none, ← hd, Function.update_eq_self]
      rw [apply, call, updateClientSecret, h.find_none hd, hr]
      refine ⟨fun _ d hd' => ?_, fun _ => h⟩
      rw [hd] at hd'
      cases hd'
    | some d =>
      have hr : r.apply (.updateSecret k secret) =
          Function.update r k (some { d with clientSecret := secret }) := by
        rw [Registry.apply, hd, Option.map_some]
      rw [apply, call, hr, updateSecret_refines_iff h hd]
      simp [Followed, hd]
  | remove k => exact iff_of_true (remove_refines h k) trivial

/-- **A call that throws changes nothing.** -/
theorem unchanged_of_thrown (c : Clients Info) (op : Op Info) {e : Thrown}
    (h : (call c op).2 = some e) : apply c op = c := by
  cases op with
  | add d => cases h
  | update d =>
    simp only [apply, call, updateClientDetails] at h ⊢
    cases hf : findByClientId c d.clientId with
    | none => rfl
    | some _ => simp [hf] at h
  | updateSecret k secret =>
    simp only [apply, call, updateClientSecret] at h ⊢
    cases hf : findByClientId c k with
    | none => rfl
    | some _ => simp [hf] at h
  | remove k =>
    simp only [apply, call, removeClientDetails] at h ⊢
    cases hf : findByClientId c k with
    | none => rfl
    | some _ => simp [hf] at h

/-! ### Runs -/

/-- The collection after calls on an empty one. -/
def run (ops : List (Op Info)) : Clients Info := ops.foldl apply Collection.empty

/-- The map after the same calls on an empty one. -/
def registered (ops : List (Op Info)) : Registry Info := ops.foldl Registry.apply fun _ => none

/-- **The service refines the map exactly as far as it is called so.** From an empty
collection, it stands for the map after every initial part of a sequence of calls if and
only if every call is one that it follows; and a call that throws never changes it. -/
theorem run_refines_iff (base : BaseClientDetails) (ops : List (Op Info)) :
    ((∀ p, p <+: ops → Refines base (run p) (registered p)) ↔
        StepsMeet Registry.apply (Followed base) (fun _ => none) ops) ∧
      ∀ (c : Clients Info) (op : Op Info) (e : Thrown), (call c op).2 = some e →
        apply c op = c :=
  ⟨related_iff_stepsMeet (R := Refines base) (f := apply) (g := Registry.apply)
    (fun _ _ op h => apply_refines_iff h op) (refines_empty base) ops,
    fun c op _ h => unchanged_of_thrown c op h⟩

/-- A `BaseClientDetails` that wants a secret when it has one and a scope when it has one. -/
def plainBase : BaseClientDetails where
  isSecretRequired := Option.isSome
  isScoped := fun s => s.any fun s => s.card != 0
  authorities := []
  isAutoApprove := fun _ => false

/-- A client with a secret, one scope and the given authorities. -/
def clientA (authorities : List String) : ClientDetails (List String) where
  clientId := some "a"
  resourceIds := some ∅
  secretRequired := true
  clientSecret := some "s"
  isScoped := true
  scope := some {"client"}
  authorizedGrantTypes := some {"client_credentials"}
  registeredRedirectUri := some ∅
  authorities := authorities
  accessTokenValiditySeconds := none
  refreshTokenValiditySeconds := none
  autoApprove := fun _ => false
  additionalInformation := some []

lemma clientA_lossless : Lossless plainBase (clientA []) :=
  ⟨rfl, rfl, rfl, rfl, rfl, rfl, rfl, rfl, rfl⟩

/-- Registering a client, giving it another secret and removing it. -/
def registerA : List (Op (List String)) :=
  [.add (clientA []), .updateSecret (some "a") (some "t"), .remove (some "a")]

theorem run_refines_iff_registerA :
    Refines plainBase (run registerA) (registered registerA) := by
  refine (run_refines_iff plainBase registerA).1.mpr ?_ registerA (List.prefix_refl _)
  refine ⟨⟨rfl, clientA_lossless⟩, fun d hd => ?_, trivial, trivial⟩
  obtain rfl : clientA [] = d := by simpa [Registry.apply, clientA] using hd
  rfl

/-- The service does not refine the map: updating a client leaves two documents of it, and the
authorities of a client are lost. -/
theorem not_run_refines :
    ¬ Refines plainBase (run [.add (clientA []), .update (clientA [])])
        (registered [.add (clientA []), .update (clientA [])]) ∧
      ¬ Refines plainBase (run [.add (clientA ["ROLE_CLIENT"])])
        (registered [.add (clientA ["ROLE_CLIENT"])]) := by
  constructor
  · intro h
    have hnodup := h.list_nodup
    exact absurd hnodup (by decide)
  · intro h
    have hmem := (h.mem_list (clientA ["ROLE_CLIENT"])).mpr (by simp [registered, Registry.apply])
    have hauth := List.mem_map_of_mem (f := ClientDetails.authorities) hmem
    exact absurd hauth (by decide)

end Logful.SimpleClientDetailService
