import Logful.SimpleClientDetailService
import Mathlib.Data.List.Infix

/-!
`ApplicationKeyPairManager`, and the key pairs of the clients in the registry.

The manager keeps the key pair of a client from the first look-up that found one. Clients are
created and deleted elsewhere, and nobody tells the manager.
-/

namespace Logful.ApplicationKeyPairManager

open Logful.Documents Logful.SimpleClientDetailService

/-- The keys of the library, how they are stored in a map of objects, and how they are read from
one, which may throw. -/
structure Security where
  PublicKey : Type
  PrivateKey : Type
  Object : Type
  encodedPublic : PublicKey → Object
  encodedPrivate : PrivateKey → Object
  generatePublic : Option Object → Option PublicKey
  generatePrivate : Option Object → Option PrivateKey
  /-- A key as it is written into a PEM file. -/
  pem : PublicKey → Option String
  generatePublic_encoded : ∀ k, generatePublic (some (encodedPublic k)) = some k
  generatePrivate_encoded : ∀ k, generatePrivate (some (encodedPrivate k)) = some k

variable {security : Security}

structure KeyPair (security : Security) where
  publicKey : security.PublicKey
  privateKey : security.PrivateKey

/-- The additional information of a client. -/
structure AdditionalInformation (security : Security) where
  get : String → Option security.Object

instance : EmptyCollection (AdditionalInformation security) := ⟨⟨fun _ => none⟩⟩

abbrev Client (security : Security) := SimpleClientDetails (AdditionalInformation security)

/-! ### SimpleClientDetails -/

def AdditionalInformation.put (map : AdditionalInformation security) (name : String)
    (object : security.Object) : AdditionalInformation security :=
  ⟨Function.update map.get name (some object)⟩

/-- `addKeyPair`. -/
def addKeyPair (keyPair : KeyPair security) (map : AdditionalInformation security) :
    AdditionalInformation security :=
  (map.put "public" (security.encodedPublic keyPair.publicKey)).put "private"
    (security.encodedPrivate keyPair.privateKey)

/-- `keyPair`: null when the map is null or one of the keys cannot be read. -/
def keyPair (client : Client security) : Option (KeyPair security) := do
  let map ← client.additionalInformation
  let publicKey ← security.generatePublic (map.get "public")
  let privateKey ← security.generatePrivate (map.get "private")
  return ⟨publicKey, privateKey⟩

/-! ### AppRestController -/

/-- The validity of the tokens, as it is configured. -/
structure ServerProperties where
  accessTokenValiditySeconds : ℤ
  refreshTokenValiditySeconds : ℤ

/-- The client that is created, with the id, the secret and the key pair generated for it. -/
def newClient (serverProperties : ServerProperties) (key secret : String)
    (keyPair : KeyPair security) : Client security where
  clientId := some key
  resourceIds := some ∅
  secretRequired := false
  clientSecret := some secret
  isScoped := false
  scope := some {"client"}
  authorizedGrantTypes := some {"refresh_token", "client_credentials"}
  registeredRedirectUri := some ∅
  authorities := ["logful_client"]
  accessTokenValiditySeconds := some serverProperties.accessTokenValiditySeconds
  refreshTokenValiditySeconds := some serverProperties.refreshTokenValiditySeconds
  autoApprove := false
  additionalInformation := some (addKeyPair keyPair ∅)

/-- `createApp`. A request without a name is refused. -/
def createApp (serverProperties : ServerProperties) (name key secret : String)
    (keyPair : KeyPair security) (clients : Clients (AdditionalInformation security)) :
    Clients (AdditionalInformation security) :=
  if name = "" then clients
  else clients.save ⟨none, newClient serverProperties key secret keyPair⟩

/-- `deleteApp`, which answers with an error when there is no such document. -/
def deleteApp (id : ObjectId) (clients : Clients (AdditionalInformation security)) :
    Clients (AdditionalInformation security) :=
  clients.remove fun d => d.id = id

/-! ### The manager -/

/-- A key pair with its public key in the text format. -/
structure ClientKeyPair (security : Security) where
  publicKey : security.PublicKey
  privateKey : security.PrivateKey
  pemPublicKey : Option String

def ClientKeyPair.new (keyPair : KeyPair security) : ClientKeyPair security :=
  ⟨keyPair.publicKey, keyPair.privateKey, security.pem keyPair.publicKey⟩

/-- The registry, and what the manager has found in it. -/
structure State (security : Security) where
  clients : Clients (AdditionalInformation security)
  keyPairMap : ClientId → Option (ClientKeyPair security)

/-- The key pair that is stored for a client: null without a client, or when it has none. -/
def storedKeyPair (clients : Clients (AdditionalInformation security)) (clientId : ClientId) :
    Option (ClientKeyPair security) := do
  let client ← findByClientId clients clientId
  let keyPair ← keyPair client.body
  return .new keyPair

def getKeyPair (clientId : ClientId) (s : State security) :
    State security × Option (ClientKeyPair security) :=
  match s.keyPairMap clientId with
  | some clientKeyPair => (s, some clientKeyPair)
  | none =>
    match findByClientId s.clients clientId with
    | none => (s, none)
    | some simpleClientDetails =>
      match keyPair simpleClientDetails.body with
      | none => (s, none)
      | some keyPair =>
        let clientKeyPair := ClientKeyPair.new keyPair
        ({ s with keyPairMap := Function.update s.keyPairMap clientId (some clientKeyPair) },
          some clientKeyPair)

inductive Request (security : Security)
  | createApp (name key secret : String) (keyPair : KeyPair security)
  | deleteApp (id : ObjectId)
  | service (op : Op (AdditionalInformation security))
  | getKeyPair (clientId : ClientId)

def handle (serverProperties : ServerProperties) (s : State security) :
    Request security → State security
  | .createApp name key secret keyPair =>
    { s with clients := createApp serverProperties name key secret keyPair s.clients }
  | .deleteApp id => { s with clients := deleteApp id s.clients }
  | .service op => { s with clients := apply s.clients op }
  | .getKeyPair clientId => (getKeyPair clientId s).1

/-- The state behind requests to a server that was just started. -/
def after (serverProperties : ServerProperties) (clients : Clients (AdditionalInformation security))
    (requests : List (Request security)) : State security :=
  requests.foldl (handle serverProperties) ⟨clients, fun _ => none⟩

/-! ### What is asked of the manager -/

/-- Every look-up answers with the key pair that is stored when it is made. -/
def FollowsRegistry (serverProperties : ServerProperties)
    (clients : Clients (AdditionalInformation security)) (requests : List (Request security)) :
    Prop :=
  ∀ p clientId, p ++ [.getKeyPair clientId] <+: requests →
    (getKeyPair clientId (after serverProperties clients p)).2 =
      storedKeyPair (after serverProperties clients p).clients clientId

/-- The key pair that is stored for a client when it is looked up is still stored when it is
looked up again. -/
def KeptBetweenLookups (serverProperties : ServerProperties)
    (clients : Clients (AdditionalInformation security)) (requests : List (Request security)) :
    Prop :=
  ∀ p q clientId found, p ++ .getKeyPair clientId :: (q ++ [.getKeyPair clientId]) <+: requests →
    storedKeyPair (after serverProperties clients p).clients clientId = some found →
      storedKeyPair (after serverProperties clients (p ++ .getKeyPair clientId :: q)).clients
        clientId = some found

/-! ### One look-up -/

variable {serverProperties : ServerProperties} {clients : Clients (AdditionalInformation security)}
  {requests : List (Request security)} {s : State security} {clientId : ClientId}

/-- A look-up answers from the map, or else from the registry, and keeps in the map what it has
found. -/
lemma getKeyPair_eq (clientId : ClientId) (s : State security) :
    getKeyPair clientId s =
      (⟨s.clients, Function.update s.keyPairMap clientId
        ((s.keyPairMap clientId).or (storedKeyPair s.clients clientId))⟩,
        (s.keyPairMap clientId).or (storedKeyPair s.clients clientId)) := by
  have hsame : ∀ answer, s.keyPairMap clientId = answer →
      Function.update s.keyPairMap clientId answer = s.keyPairMap := by
    rintro _ rfl
    exact Function.update_eq_self clientId s.keyPairMap
  unfold getKeyPair storedKeyPair
  cases hcached : s.keyPairMap clientId with
  | some clientKeyPair => simp [hsame _ hcached]
  | none =>
    cases hclient : findByClientId s.clients clientId with
    | none => simp [hsame _ hcached]
    | some client => cases hpair : keyPair client.body <;> simp [hpair, hsame _ hcached]

/-- The key pair of a client that was just created is the one generated for it. -/
lemma keyPair_newClient (key secret : String) (pair : KeyPair security) :
    keyPair (newClient serverProperties key secret pair).read = some pair := by
  simp [keyPair, newClient, SimpleClientDetails.read, addKeyPair, AdditionalInformation.put,
    security.generatePublic_encoded, security.generatePrivate_encoded]

lemma after_append (p q : List (Request security)) :
    after serverProperties clients (p ++ q) =
      q.foldl (handle serverProperties) (after serverProperties clients p) :=
  List.foldl_append

/-! ### The map of the manager -/

/-- What is in the map stays there. -/
lemma keyPairMap_foldl {found : ClientKeyPair security} (h : s.keyPairMap clientId = some found) :
    (requests.foldl (handle serverProperties) s).keyPairMap clientId = some found := by
  induction requests generalizing s with
  | nil => exact h
  | cons request requests ih =>
    refine ih ?_
    cases request with
    | createApp name key secret keyPair => exact h
    | deleteApp id => exact h
    | service op => exact h
    | getKeyPair other =>
      rw [handle, getKeyPair_eq]
      by_cases hother : clientId = other
      · subst hother
        simp [h]
      · simpa [Function.update_of_ne hother] using h

/-- What is in the map was stored when the client was looked up. -/
lemma looked_up {found : ClientKeyPair security}
    (h : (after serverProperties clients requests).keyPairMap clientId = some found) :
    ∃ p q, requests = p ++ .getKeyPair clientId :: q ∧
      storedKeyPair (after serverProperties clients p).clients clientId = some found := by
  induction requests using List.reverseRecOn with
  | nil => simp [after] at h
  | append_singleton p request ih =>
    have hlater : (after serverProperties clients p).keyPairMap clientId = some found →
        ∃ p' q, p ++ [request] = p' ++ .getKeyPair clientId :: q ∧
          storedKeyPair (after serverProperties clients p').clients clientId = some found := by
      intro hbefore
      obtain ⟨p', q, rfl, hstored⟩ := ih hbefore
      exact ⟨p', q ++ [request], by simp, hstored⟩
    rw [after_append, List.foldl_cons, List.foldl_nil] at h
    cases request with
    | createApp name key secret keyPair => exact hlater h
    | deleteApp id => exact hlater h
    | service op => exact hlater h
    | getKeyPair other =>
      rw [handle, getKeyPair_eq] at h
      simp only at h
      by_cases hother : clientId = other
      · subst hother
        rw [Function.update_self] at h
        cases hcached : (after serverProperties clients p).keyPairMap clientId with
        | some cached =>
          rw [hcached] at h
          exact hlater (hcached.trans h)
        | none =>
          rw [hcached] at h
          exact ⟨p, [], rfl, h⟩
      · rw [Function.update_of_ne hother] at h
        exact hlater h

/-! ### Any sequence of requests -/

/-- **The map and the registry.** Every look-up of a sequence of requests answers with the key
pair that is stored then exactly when no key pair changes between two look-ups of its client. -/
theorem followsRegistry_iff_kept (serverProperties : ServerProperties)
    (clients : Clients (AdditionalInformation security)) (requests : List (Request security)) :
    FollowsRegistry serverProperties clients requests ↔
      KeptBetweenLookups serverProperties clients requests := by
  constructor
  · intro hfollows p q clientId found hprefix hstored
    have hfirst : p ++ [.getKeyPair clientId] <+: requests :=
      List.IsPrefix.trans ⟨q ++ [.getKeyPair clientId], by simp⟩ hprefix
    have hanswer := hfollows p clientId hfirst
    have hcached : (after serverProperties clients
        (p ++ .getKeyPair clientId :: q)).keyPairMap clientId = some found := by
      rw [after_append, List.foldl_cons]
      refine keyPairMap_foldl ?_
      rw [getKeyPair_eq, hstored] at hanswer
      rw [handle, getKeyPair_eq, hstored]
      exact (Function.update_self ..).trans hanswer
    have hagain := hfollows (p ++ .getKeyPair clientId :: q) clientId (by simpa using hprefix)
    rw [getKeyPair_eq, hcached] at hagain
    exact hagain.symm
  · intro hkept p clientId hprefix
    rw [getKeyPair_eq]
    cases hcached : (after serverProperties clients p).keyPairMap clientId with
    | none => rfl
    | some found =>
      obtain ⟨p', q, rfl, hstored⟩ := looked_up hcached
      exact (hkept p' q clientId found (by simpa using hprefix) hstored).symm

/-! ### A deleted client -/

/-- Keys are numbers, stored as they are. -/
def plainSecurity : Security where
  PublicKey := ℕ
  PrivateKey := ℕ
  Object := ℕ
  encodedPublic := id
  encodedPrivate := id
  generatePublic := id
  generatePrivate := id
  pem := fun _ => none
  generatePublic_encoded := fun _ => rfl
  generatePrivate_encoded := fun _ => rfl

def onePair : KeyPair plainSecurity where
  publicKey := (1 : ℕ)
  privateKey := (2 : ℕ)

/-- A client is created, looked up, deleted, and looked up once more. -/
theorem not_followsRegistry_deleted :
    ¬ ∀ (security : Security) serverProperties (clients : Clients (AdditionalInformation security))
      requests, FollowsRegistry serverProperties clients requests := by
  intro h
  have hfollows := h plainSecurity ⟨0, 0⟩ .empty
    [.createApp "app" "a" "s" onePair, .getKeyPair (some "a"), .deleteApp 1,
      .getKeyPair (some "a")]
    [.createApp "app" "a" "s" onePair, .getKeyPair (some "a"), .deleteApp 1] (some "a")
    (List.prefix_refl _)
  have hanswer := congrArg Option.isSome hfollows
  revert hanswer
  decide

end Logful.ApplicationKeyPairManager
