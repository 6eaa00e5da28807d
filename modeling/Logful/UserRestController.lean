import Logful.ClientUserReport
import Logful.Upserts

/-!
What has become of the reports of client users, and how `UserRestController` shows a user.

A report writes over the document of its uid and its application. A user is shown with the
fields of the oldest of his documents, and one object for each of his applications. A find without
a sort is taken to return the documents in the order in which they were inserted.
-/

namespace Logful.UserRestController

open Logful.ClientUserReport Logful.Documents Logful.GlobalConfigRepository Logful.StringUtil
open Logful.Upserts

/-! ### The reports -/

/-- A request to report: what was decrypted of it, the client that is logged in, and the
configuration then. -/
structure Report where
  content : Option (List Setting)
  clientId : Option String
  configs : GlobalConfigs

variable (getBytes : Encoding)

/-- The users after a number of reports. -/
def after (reports : List Report) : ClientUsers :=
  reports.foldl (fun users r =>
    (clientUserReport getBytes r.content r.clientId users r.configs).1) .empty

/-- What is saved for a report, unless it is refused. -/
def accepted (r : Report) : Option ClientUser :=
  r.content.bind fun settings =>
    if isEmpty r.clientId then none
    else some { (genClientUser getBytes settings).body with clientId := r.clientId }

/-- The document that a user is saved in. -/
def target (user : ClientUser) : Option String × Option String := (user.uid, user.appId)

/-! ### UserRestController -/

structure AppObject where
  appId : Option String
  version : ℤ
  versionString : Option String
  recordOn : Bool
  deriving DecidableEq

def appObject (user : ClientUser) : AppObject :=
  ⟨user.appId, user.version, user.versionString, user.recordOn⟩

structure BaseObject where
  platform : String
  uid : Option String
  userAlias : Option String
  model : Option String
  imei : Option String
  macAddress : Option String
  osVersion : Option String
  clientId : Option String
  level : ℤ
  deriving DecidableEq

def baseObject (user : ClientUser) : BaseObject where
  platform := platformString user.platform
  uid := user.uid
  userAlias := user.userAlias
  model := user.model
  imei := user.imei
  macAddress := user.macAddress
  osVersion := user.osVersion
  clientId := user.clientId
  level := user.level

/-- What is shown of a user. -/
structure View where
  object : BaseObject
  apps : List AppObject
  deriving DecidableEq

/-- `viewUser`, or nothing for a `NotFoundException`. -/
def viewUser (uid : String) (users : ClientUsers) : Option View :=
  let users := (users.docs.filter fun d => d.body.uid = some uid).map Document.body
  match users with
  | [] => none
  | user :: _ => some ⟨baseObject user, users.map appObject⟩

/-! ### The documents -/

variable {getBytes}

lemma users_clientUserReport (r : Report) (users : ClientUsers) :
    (clientUserReport getBytes r.content r.clientId users r.configs).1 =
      ((accepted getBytes r).map fun user => users.upsert target user).getD users := by
  cases hcontent : r.content with
  | none => simp [clientUserReport, accepted, hcontent]
  | some settings =>
    simp only [clientUserReport, accepted, hcontent, Option.bind_some]
    split_ifs <;> rfl

lemma after_eq (reports : List Report) : after getBytes reports =
    (reports.filterMap (accepted getBytes)).foldl (fun users user => users.upsert target user)
      .empty := by
  have hfold : ∀ users : ClientUsers, reports.foldl (fun users r =>
      (clientUserReport getBytes r.content r.clientId users r.configs).1) users =
      (reports.filterMap (accepted getBytes)).foldl (fun users user => users.upsert target user)
        users := by
    induction reports with
    | nil => exact fun _ => rfl
    | cons r reports ih =>
      intro users
      rw [List.foldl_cons, ih, users_clientUserReport]
      cases h : accepted getBytes r with
      | none => rw [List.filterMap_cons_none h]; rfl
      | some user => rw [List.filterMap_cons_some h]; rfl
  exact hfold .empty

/-- **One document for each uid and application.** After any reports the documents are those of
the pairs that were reported, in the order in which they came for the first time, each with the
fields of the last report of the pair. -/
theorem bodies_after (getBytes : Encoding) (reports : List Report) :
    let users := reports.filterMap (accepted getBytes)
    (after getBytes reports).docs.map Document.body =
      (firsts (users.map target)).filterMap (last target users) := by
  rw [after_eq, (bodies_upserts target _).2, upserts_eq]

/-! ### The view -/

/-- The reports of a uid that were accepted. -/
def reportsOf (getBytes : Encoding) (uid : String) (reports : List Report) : List ClientUser :=
  (reports.filterMap (accepted getBytes)).filter fun user => user.uid = some uid

lemma bodies_of_uid (uid : String) (reports : List Report) :
    ((after getBytes reports).docs.filter fun d => d.body.uid = some uid).map Document.body =
      upserts ClientUser.appId (reportsOf getBytes uid reports) := by
  have hfilter : ((after getBytes reports).docs.filter fun d =>
      d.body.uid = some uid).map Document.body =
      ((after getBytes reports).docs.map Document.body).filter fun u => u.uid = some uid := by
    rw [List.filter_map]
    rfl
  have huid : ∀ a b : ClientUser, target a = target b →
      decide (a.uid = some uid) = decide (b.uid = some uid) := by
    intro a b h
    rw [(Prod.mk.inj h).1]
  rw [hfilter, after_eq, (bodies_upserts target _).2, filter_upserts huid]
  refine upserts_congr fun a ha b hb => ?_
  have ha : a.uid = some uid := by simpa using (List.mem_filter.mp ha).2
  have hb : b.uid = some uid := by simpa using (List.mem_filter.mp hb).2
  simp [target, ha, hb]

/-- What is shown of reports: one object for each application, in the order of their first
reports, with what the last report of the application says; and the fields of the user as they are
in the last report of the application that came first. -/
structure Shows (users : List ClientUser) (view : View) : Prop where
  apps : view.apps = (firsts (users.map ClientUser.appId)).filterMap fun appId =>
    (last ClientUser.appId users appId).map appObject
  once : view.apps.map AppObject.appId = firsts (users.map ClientUser.appId)
  object : ∃ first user, users.head? = some first ∧
    last ClientUser.appId users first.appId = some user ∧ view.object = baseObject user

lemma head?_firsts (ks : List (Option String)) : (firsts ks).head? = ks.head? := by
  induction ks using List.reverseRecOn with
  | nil => rfl
  | append_singleton ks k ih =>
    rw [firsts_concat]
    cases ks with
    | nil => rfl
    | cons k' ks =>
      split_ifs
      · exact ih
      · rw [List.head?_append, ih]
        rfl

/-- **A user as he is shown.** After any reports a user is found exactly if one of his was
accepted, and then he is shown as his reports say. -/
theorem viewUser_after (getBytes : Encoding) (reports : List Report) (uid : String) :
    (viewUser uid (after getBytes reports) = none ↔ reportsOf getBytes uid reports = []) ∧
      ∀ view, viewUser uid (after getBytes reports) = some view →
        Shows (reportsOf getBytes uid reports) view := by
  set users := reportsOf getBytes uid reports with husers
  have hkeys : (upserts ClientUser.appId users).map ClientUser.appId =
      firsts (users.map ClientUser.appId) := keys_upserts users
  have heq := upserts_eq ClientUser.appId users
  unfold viewUser
  simp only [bodies_of_uid, ← husers]
  cases hup : upserts ClientUser.appId users with
  | nil =>
    refine ⟨iff_of_true rfl ?_, fun view h => absurd h (Option.some_ne_none view).symm⟩
    rw [hup] at hkeys
    cases husers' : users with
    | nil => rfl
    | cons user rest =>
      have hmem : user.appId ∈ firsts (users.map ClientUser.appId) :=
        mem_firsts.mpr (by rw [husers']; exact List.mem_cons_self)
      rw [← hkeys] at hmem
      cases hmem
  | cons user rest =>
    rw [hup] at hkeys heq
    constructor
    · refine iff_of_false (Option.some_ne_none _) fun hnil => ?_
      rw [hnil] at hkeys
      cases hkeys
    · intro view hview
      obtain rfl := Option.some_inj.mp hview
      refine ⟨?_, ?_, ?_⟩
      · rw [← List.map_filterMap, ← heq]
      · rw [← hkeys, List.map_map]
        rfl
      · have hhead := congrArg List.head? hkeys
        rw [head?_firsts, List.map_cons, List.head?_cons, List.head?_map] at hhead
        obtain ⟨first, hfirst, happ⟩ := Option.map_eq_some_iff.mp hhead.symm
        refine ⟨first, user, hfirst, ?_, rfl⟩
        have hmem : user ∈ (firsts (users.map ClientUser.appId)).filterMap
            (last ClientUser.appId users) := heq ▸ List.mem_cons_self
        obtain ⟨k, -, hk⟩ := List.mem_filterMap.mp hmem
        rw [happ, (last_eq_some hk).2]
        exact hk

end Logful.UserRestController
