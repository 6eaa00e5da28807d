import Logful.ApplicationKeyPairManager
import Logful.ClientUserReport

/-!
`SystemRestController`: which clients are granted, over requests that register clients and
delete them, grant and revoke, and set the level.

Granting asks whether as many clients are registered as ids are named; revoking asks nothing.
Nobody tells the grants that a client was deleted.
-/

namespace Logful.SystemRestController

open Logful.ApplicationKeyPairManager Logful.Documents Logful.GlobalConfigRepository
open Logful.Settings Logful.StringUtil
open Logful.ClientUserReport (ClientUsers Encoding clientUserReport genClientUser)
open Logful.SimpleClientDetailService (Clients)

variable {security : Security}

abbrev Registry (security : Security) := Clients (AdditionalInformation security)

/-- The registry of clients, and the configuration. -/
structure State (security : Security) where
  clients : Registry security
  configs : GlobalConfigs

/-! ### The routes -/

/-- `ApplicationRepository.findByClientIds`. -/
def findByClientIds (clients : Registry security) (ids : List ClientId) :
    List (Document ObjectId (Client security)) :=
  clients.docs.filter fun d => ids.contains d.body.clientId

/-- `addGrantClient`, for a payload that is an array of strings, and whether it answers with
something else than a `BadRequestException`. -/
def addGrantClient (h : HashSet) (payload : Option (List ClientId))
    (s : State security) : State security × Bool :=
  match payload with
  | none => (s, false)
  | some ids =>
    if ids.length = 0 then (s, false)
    else
      let records := findByClientIds s.clients ids
      if records.length = ids.length then
        ({ s with configs := addClient h ids s.configs }, true)
      else (s, false)

def removeGrantClient (payload : Option (List ClientId))
    (s : State security) : State security × Bool :=
  match payload with
  | none => (s, false)
  | some ids =>
    if ids.length = 0 then (s, false)
    else ({ s with configs := removeClient ids s.configs }, true)

/-- A request. A level is missing where the payload has none. -/
inductive Request (security : Security)
  | createApp (name key secret : String) (keyPair : KeyPair security)
  | deleteApp (id : ObjectId)
  | addGrantClient (payload : Option (List ClientId))
  | removeGrantClient (payload : Option (List ClientId))
  | updateLevel (level : Option ℤ)

variable (serverProperties : ServerProperties) (h : HashSet)

def handle (s : State security) : Request security → State security
  | .createApp name key secret keyPair =>
    { s with clients := createApp serverProperties name key secret keyPair s.clients }
  | .deleteApp id => { s with clients := deleteApp id s.clients }
  | .addGrantClient payload => (addGrantClient h payload s).1
  | .removeGrantClient payload => (removeGrantClient payload s).1
  | .updateLevel none => s
  | .updateLevel (some level) => { s with configs := updateLevel level s.configs }

/-- The state behind requests to a server with empty collections. -/
def after (requests : List (Request security)) : State security :=
  requests.foldl (handle serverProperties h) ⟨.empty, .empty⟩

/-! ### What makes a client granted -/

def granted (s : State security) : List ClientId :=
  (read s.configs).body.grantClients

def Registered (s : State security) (clientId : ClientId) : Prop :=
  ∃ d ∈ s.clients.docs, d.body.clientId = clientId

/-- The request makes a client granted: one to grant registered clients, each named once, him
among them; or one to revoke, which names him while he is not granted. -/
def Gives (clientId : ClientId) (s : State security) :
    Request security → Prop
  | .addGrantClient (some ids) =>
    clientId ∈ ids ∧ ids.Nodup ∧ ∀ i ∈ ids, Registered s i
  | .removeGrantClient (some ids) => clientId ∈ ids ∧ clientId ∉ granted s
  | _ => False

/-- A request to revoke that is not refused, after which no client is granted that was granted
before. -/
def Revokes (request : Request security) : Prop :=
  ∃ ids ≠ [], request = .removeGrantClient (some ids)

/-- The level that a request sets. -/
def levelOf : Request security → Option ℤ
  | .updateLevel level => level
  | _ => none

/-- Keys are drawn that no registered client has. -/
def FreshKeys (requests : List (Request security)) : Prop :=
  ∀ p name key secret keyPair, p ++ [.createApp name key secret keyPair] <+: requests →
    ¬ Registered (after serverProperties h p) (some key)

/-! ### One request -/

variable {serverProperties h} {s : State security} {clientId : ClientId}

/-- What is saved is what is read next. -/
lemma body_read_save (c : GlobalConfigs) (config : Entity ObjectId GlobalConfig) :
    (read (save c config)).body = config.body := by
  rcases hdocs : c.docs with _ | ⟨d, docs⟩
  · obtain ⟨i, hi⟩ := docs_save_empty hdocs config
    rw [read_single hi]
    rfl
  · have hfound : (c.findOne fun _ => true) = some d := by simp [Collection.findOne, hdocs]
    have hsaved : (save c config).docs = ⟨d.id, config.body⟩ :: docs := by
      rw [save, hfound]
      simp [Collection.save, Collection.idFor, hdocs, put]
    simp [GlobalConfigRepository.read, Collection.findOne, hsaved]

/-- The clients with as many ids as there are clients with one of them. -/
lemma length_findByClientIds (hs : s.clients.OnePer fun b => b.clientId)
    (ids : List ClientId) :
    (findByClientIds s.clients ids).length = ids.length ↔
      ids.Nodup ∧ ∀ i ∈ ids, Registered s i := by
  set found := (findByClientIds s.clients ids).map fun d => d.body.clientId with hfound
  have hlength : found.length = (findByClientIds s.clients ids).length := List.length_map _
  have hnodup : found.Nodup :=
    hs.nodup.sublist (List.Sublist.map _ List.filter_sublist)
  have hmem : ∀ i, i ∈ found ↔ i ∈ ids ∧ Registered s i := by
    intro i
    simp only [hfound, findByClientIds, List.mem_map, List.mem_filter, List.contains_iff_mem,
      Registered]
    constructor
    · rintro ⟨d, ⟨hd, hids⟩, rfl⟩
      exact ⟨hids, d, hd, rfl⟩
    · rintro ⟨hids, d, hd, rfl⟩
      exact ⟨d, ⟨hd, hids⟩, rfl⟩
  rw [← hlength]
  constructor
  · intro heq
    have hsub := hnodup.subperm fun i hi => ((hmem i).mp hi).1
    have hperm := hsub.perm_of_length_le heq.ge
    exact ⟨hperm.nodup_iff.mp hnodup, fun i hi => ((hmem i).mp (hperm.mem_iff.mpr hi)).2⟩
  · rintro ⟨hids, hall⟩
    refine ((List.perm_ext_iff_of_nodup hnodup hids).mpr fun i => ?_).length_eq
    rw [hmem]
    exact and_iff_left_of_imp (hall i)

/-- **Who is granted after a request**: the clients that it gives, and those that were granted
before if it does not revoke. -/
lemma mem_granted_handle (hs : s.clients.OnePer fun b => b.clientId)
    (request : Request security) :
    clientId ∈ granted (handle serverProperties h s request) ↔
      Gives clientId s request ∨ (clientId ∈ granted s ∧ ¬ Revokes request) := by
  have hquiet : ∀ request : Request security, (∀ ids, request ≠ .removeGrantClient (some ids)) →
      ¬ Revokes request := fun _ hne hrevokes => let ⟨ids, _, heq⟩ := hrevokes; hne ids heq
  cases request with
  | createApp name key secret keyPair =>
    have hnot := hquiet (.createApp name key secret keyPair) (by simp)
    simp [handle, granted, Gives, hnot]
  | deleteApp id =>
    have hnot := hquiet (.deleteApp id) (by simp)
    simp [handle, granted, Gives, hnot]
  | updateLevel level =>
    have hnot := hquiet (.updateLevel level) (by simp)
    cases level with
    | none => simp [handle, Gives, hnot]
    | some level =>
      simp [handle, granted, Gives, hnot, updateLevel, body_read_save, setLevel]
  | addGrantClient payload =>
    have hnot := hquiet (.addGrantClient payload) (by simp)
    cases payload with
    | none => simp [handle, addGrantClient, Gives, hnot]
    | some ids =>
      have hfound := length_findByClientIds hs ids
      simp only [handle, addGrantClient]
      split_ifs with hempty hlength
      · rw [List.length_eq_zero_iff] at hempty
        simp [Gives, hempty, hempty ▸ hnot]
      · have hgives : Gives clientId s (.addGrantClient (some ids)) ↔ clientId ∈ ids :=
          and_iff_left_of_imp fun _ => hfound.mp hlength
        rw [hgives, and_iff_left hnot]
        simp [granted, addClient, body_read_save, setGrantClients, h.mem_toList, or_comm]
      · have hgives : ¬ Gives clientId s (.addGrantClient (some ids)) :=
          fun hgives => hlength (hfound.mpr hgives.2)
        simp [hgives, hnot]
  | removeGrantClient payload =>
    cases payload with
    | none =>
      have hnot : ¬ Revokes (.removeGrantClient none : Request security) := by
        simp [Revokes]
      simp [handle, removeGrantClient, Gives, hnot]
    | some ids =>
      rw [handle, removeGrantClient]
      split_ifs with hempty
      · rw [List.length_eq_zero_iff] at hempty
        simp [Gives, Revokes, hempty]
      · have hrevokes : Revokes (.removeGrantClient (some ids) : Request security) :=
          ⟨ids, fun hnil => hempty (by rw [hnil]; rfl), rfl⟩
        simp [Gives, hrevokes, granted, removeClient, body_read_save, setGrantClients]

/-- The level after a request. -/
lemma level_handle (s : State security) (request : Request security) :
    (read (handle serverProperties h s request).configs).body.level =
      (levelOf request).getD (read s.configs).body.level := by
  cases request with
  | createApp | deleteApp => rfl
  | updateLevel level =>
    cases level with
    | none => rfl
    | some level => simp [handle, levelOf, updateLevel, body_read_save, setLevel]
  | addGrantClient payload =>
    cases payload with
    | none => rfl
    | some ids =>
      simp only [handle, addGrantClient]
      split_ifs <;> simp [levelOf, addClient, body_read_save, setGrantClients]
  | removeGrantClient payload =>
    cases payload with
    | none => rfl
    | some ids =>
      rw [handle, removeGrantClient]
      split_ifs <;> simp [levelOf, removeClient, body_read_save, setGrantClients]

/-! ### Every sequence of requests -/

lemma after_concat (p : List (Request security)) (request : Request security) :
    after serverProperties h (p ++ [request]) =
      handle serverProperties h (after serverProperties h p) request := by
  rw [after, List.foldl_append]
  rfl

/-- As long as keys are fresh, no two clients have the same id. -/
lemma onePer_after {requests : List (Request security)}
    (hfresh : FreshKeys serverProperties h requests) {p : List (Request security)}
    (hp : p <+: requests) :
    (after serverProperties h p).clients.OnePer fun b => b.clientId := by
  induction p using List.reverseRecOn with
  | nil => exact Collection.onePer_empty
  | append_singleton p request ih =>
    have hbefore := ih ((List.prefix_append p [request]).trans hp)
    rw [after_concat]
    cases request with
    | createApp name key secret keyPair =>
      simp only [handle, createApp]
      split_ifs
      · exact hbefore
      · refine (Collection.onePer_save_new rfl).mpr ⟨hbefore, fun d hd hkey => ?_⟩
        exact hfresh p name key secret keyPair hp ⟨d, hd, hkey⟩
    | deleteApp id => exact hbefore.remove _
    | addGrantClient payload =>
      rcases payload with _ | ids
      · exact hbefore
      · simp only [handle, addGrantClient]
        split_ifs <;> exact hbefore
    | removeGrantClient payload =>
      rcases payload with _ | ids
      · exact hbefore
      · simp only [handle, removeGrantClient]
        split_ifs <;> exact hbefore
    | updateLevel level => cases level <;> exact hbefore

lemma level_after (requests : List (Request security)) :
    (read (after serverProperties h requests).configs).body.level =
      lastOf levelOf DEFAULT_GRAY_LEVEL requests :=
  @foldl_eq_lastOf _ _ levelOf _ _ (fun s : State security => (read s.configs).body.level)
    level_handle ⟨.empty, .empty⟩ requests

/-- **Who is granted.** After any requests that draw fresh keys, the report of a user is granted
exactly if his level is below the one that was set last, and a request gave his client, with no
revoking one since then. -/
theorem granted_iff_given (getBytes : Encoding) (serverProperties : ServerProperties)
    (h : HashSet) (requests : List (Request security))
    (hfresh : FreshKeys serverProperties h requests) (clientId : ClientId)
    (hclient : isEmpty clientId = false) (settings : List ClientUserReport.Setting)
    (users : ClientUsers) :
    (clientUserReport getBytes (some settings) clientId users
        (after serverProperties h requests).configs).2 = .granted true ↔
      (genClientUser getBytes settings).body.level < lastOf levelOf DEFAULT_GRAY_LEVEL requests ∧
      ∃ p request q, requests = p ++ request :: q ∧
        Gives clientId (after serverProperties h p) request ∧ ∀ x ∈ q, ¬ Revokes x := by
  have hsince : clientId ∈ granted (after serverProperties h requests) ↔
      ∃ p request q, requests = p ++ request :: q ∧
        Gives clientId (after serverProperties h p) request ∧ ∀ x ∈ q, ¬ Revokes x := by
    refine @holds_iff_since _ _ _ (fun s => clientId ∈ granted s) (Gives clientId) Revokes _
      List.not_mem_nil _ fun p request hp => ?_
    exact mem_granted_handle (onePer_after hfresh ((List.prefix_append p [request]).trans hp))
      request
  have hlevel : (read (after serverProperties h requests).configs).body.level =
      lastOf levelOf DEFAULT_GRAY_LEVEL requests := level_after requests
  rw [← hsince, ← hlevel]
  simp [clientUserReport, hclient, ClientUserReport.v1ClientUserReport, granted, and_comm]

/-- A client that was never registered is granted by a request to revoke it. -/
theorem granted_iff_given_unregistered :
    (clientUserReport ClientUserReport.asciiBytes (some [.level 7]) (some "b") .empty
      (after ⟨0, 0⟩ lastInsertions
        ([.createApp "app" "a" "s" onePair, .addGrantClient (some [some "a"]),
          .removeGrantClient (some [some "b"])] : List (Request plainSecurity))).configs).2 =
      .granted true := by
  refine (granted_iff_given ClientUserReport.asciiBytes ⟨0, 0⟩ lastInsertions _ ?_ (some "b") rfl
    [.level 7] .empty).mpr ⟨by decide, [.createApp "app" "a" "s" onePair,
      .addGrantClient (some [some "a"])], _, [], rfl, ⟨List.mem_cons_self, by decide⟩, by simp⟩
  intro p name key secret keyPair hp
  have hnil : p = [] := by
    rcases p with _ | ⟨x, _ | ⟨y, _ | ⟨z, p⟩⟩⟩
    · rfl
    all_goals simp at hp
  subst hnil
  rintro ⟨d, hd, -⟩
  cases hd

end Logful.SystemRestController
