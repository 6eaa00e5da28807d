import Logful.BigEndian
import Logful.GlobalConfigRepository
import Logful.Settings
import Mathlib.Data.List.DropRight

/-!
The report of a client user, and whether it is granted.

Two setters of `ClientUser` write the level: `setUid`, which makes it of the checksum of the uid,
and `setLevel`. What Jackson does with a report is the list of the setters that it calls, in the
order of the members.
-/

namespace Logful.ClientUserReport

open Logful.BigEndian Logful.Documents Logful.GlobalConfigRepository Logful.Settings
open Logful.StringUtil

/-! ### CRC32 -/

/-- One bit of the register, for the reversed polynomial. -/
def crcBit (crc : BitVec 32) : BitVec 32 :=
  if crc.getLsbD 0 then (crc >>> 1) ^^^ 0xEDB88320#32 else crc >>> 1

def crcByte (crc : BitVec 32) (b : UInt8) : BitVec 32 :=
  Nat.iterate crcBit 8 (crc ^^^ b.toBitVec.setWidth 32)

/-- `CRC32.getValue` after an update with the bytes. -/
def crc32 (bytes : Bytes) : ℕ :=
  (bytes.foldl crcByte 0xFFFFFFFF#32 ^^^ 0xFFFFFFFF#32).toNat

/-- The check value of the checksum, of the digits from 1 to 9. -/
example : crc32 [49, 50, 51, 52, 53, 54, 55, 56, 57] = 0xCBF43926 := by decide +kernel

/-- The level that `setUid` sets, for the bytes of the uid. -/
def bucket (uid : Bytes) : ℤ := (crc32 uid % 100 : ℕ)

lemma bucket_range (uid : Bytes) : 0 ≤ bucket uid ∧ bucket uid ≤ 99 := by
  have hmod : crc32 uid % 100 < 100 := Nat.mod_lt _ (by norm_num)
  unfold bucket
  omega

/-! ### ClientUser -/

structure ClientUser where
  platform : ℤ
  clientId : Option String
  uid : Option String
  deviceId : Option String
  userAlias : Option String
  model : Option String
  imei : Option String
  macAddress : Option String
  osVersion : Option String
  appId : Option String
  version : ℤ
  versionString : Option String
  level : ℤ
  recordOn : Bool
  deriving DecidableEq

/-- A member of a report, as the setter that is called for it. -/
inductive Setting
  | id (s : Option ObjectId)
  | platform (n : ℤ)
  | clientId (s : Option String)
  | uid (s : Option String)
  | deviceId (s : Option String)
  | userAlias (s : Option String)
  | model (s : Option String)
  | imei (s : Option String)
  | macAddress (s : Option String)
  | osVersion (s : Option String)
  | appId (s : Option String)
  | version (n : ℤ)
  | versionString (s : Option String)
  | level (n : ℤ)
  | recordOn (b : Bool)
  deriving DecidableEq

def newClientUser : Entity ObjectId ClientUser where
  id := none
  body :=
    { platform := 0
      clientId := none
      uid := none
      deviceId := none
      userAlias := none
      model := none
      imei := none
      macAddress := none
      osVersion := none
      appId := none
      version := 0
      versionString := none
      level := 0
      recordOn := false }

/-- How a text is encoded, by the default charset of the server. -/
abbrev Encoding := String → Bytes

variable (getBytes : Encoding)

/-- `setUid`, which sets the level of a user whose uid is not empty. -/
def setUid (user : ClientUser) (uid : Option String) : ClientUser :=
  let user := { user with uid := uid }
  if isEmpty uid then user else { user with level := bucket (getBytes (valueOf uid)) }

/-- The setter. -/
def set (user : Entity ObjectId ClientUser) : Setting → Entity ObjectId ClientUser
  | .id s => { user with id := s }
  | .platform n => { user with body.platform := n }
  | .clientId s => { user with body.clientId := s }
  | .uid s => { user with body := setUid getBytes user.body s }
  | .deviceId s => { user with body.deviceId := s }
  | .userAlias s => { user with body.userAlias := s }
  | .model s => { user with body.model := s }
  | .imei s => { user with body.imei := s }
  | .macAddress s => { user with body.macAddress := s }
  | .osVersion s => { user with body.osVersion := s }
  | .appId s => { user with body.appId := s }
  | .version n => { user with body.version := n }
  | .versionString s => { user with body.versionString := s }
  | .level n => { user with body.level := n }
  | .recordOn b => { user with body.recordOn := b }

/-- `genClientUser`, for a report that can be bound. -/
def genClientUser (settings : List Setting) : Entity ObjectId ClientUser :=
  settings.foldl (set getBytes) newClientUser

/-! ### The route -/

abbrev ClientUsers := Collection ObjectId ClientUser

/-- `ClientUserRepository.save`: the fields are written into the document of the uid and the
application, if there is one, and else into a new one. -/
def save (users : ClientUsers) (user : ClientUser) : ClientUsers :=
  users.upsert (fun u => (u.uid, u.appId)) user

/-- `v1ClientUserReport`, with the answer `granted`. -/
def v1ClientUserReport (clientUser : Entity ObjectId ClientUser) (users : ClientUsers)
    (configs : GlobalConfigs) : ClientUsers × Bool :=
  let config := (read configs).body
  (save users clientUser.body,
    config.grantClients.contains clientUser.body.clientId &&
      decide (clientUser.body.level < config.level))

inductive Answer
  | granted (b : Bool)
  | badRequest
  | internalServerError
  deriving DecidableEq

/-- `clientUserReport`, for the content that was decrypted, if it can be bound, and the client
that is logged in. -/
def clientUserReport (content : Option (List Setting)) (clientId : Option String)
    (users : ClientUsers) (configs : GlobalConfigs) : ClientUsers × Answer :=
  match content with
  | none => (users, .badRequest)
  | some settings =>
    let clientUser := genClientUser getBytes settings
    if isEmpty clientId then (users, .internalServerError)
    else
      let clientUser := { clientUser with body.clientId := clientId }
      let (users, granted) := v1ClientUserReport clientUser users configs
      (users, .granted granted)

/-! ### What is behind the last uid -/

def uidSetting : Setting → Option (Option String)
  | .uid s => some s
  | _ => none

def levelSetting : Setting → Option ℤ
  | .level n => some n
  | _ => none

/-- The members behind the last uid of a report. -/
def behindUid (settings : List Setting) : List Setting :=
  settings.rtakeWhile fun x => (uidSetting x).isNone

lemma genClientUser_concat (settings : List Setting) (x : Setting) :
    genClientUser getBytes (settings ++ [x]) =
      set getBytes (genClientUser getBytes settings) x := by
  rw [genClientUser, List.foldl_append]
  rfl

/-- A setter of another field leaves the uid and the level alone. -/
lemma set_other (user : Entity ObjectId ClientUser) {x : Setting} (huid : uidSetting x = none) :
    (set getBytes user x).body.uid = user.body.uid ∧
      (set getBytes user x).body.level = (levelSetting x).getD user.body.level := by
  cases x with
  | uid s => cases huid
  | _ => exact ⟨rfl, rfl⟩

/-- The level of a user with a uid: that of the last setter behind the last uid, if there is one,
and else the one that came with this uid. -/
lemma genClientUser_level {settings : List Setting} {uid : String}
    (h : (genClientUser getBytes settings).body.uid = some uid) (hne : uid ≠ "") :
    (genClientUser getBytes settings).body.level =
      lastOf levelSetting (bucket (getBytes uid)) (behindUid settings) := by
  induction settings using List.reverseRecOn with
  | nil => cases h
  | append_singleton settings x ih =>
    rw [genClientUser_concat] at h ⊢
    cases hx : uidSetting x with
    | some s =>
      -- the uid is set here, and its level with it
      cases x with
      | uid s' =>
        have hs : s' = some uid := by
          simp only [set, setUid] at h
          split_ifs at h <;> exact h
        subst hs
        have hempty : isEmpty (some uid) = false := by simp [isEmpty, hne]
        have hbehind : behindUid (settings ++ [.uid (some uid)]) = [] := by
          rw [behindUid, List.rtakeWhile_concat_neg]
          simp [uidSetting]
        rw [hbehind, lastOf_nil]
        simp [set, setUid, hempty, valueOf]
      | _ => cases hx
    | none =>
      obtain ⟨huid, hlevel⟩ := set_other getBytes (genClientUser getBytes settings) hx
      have hbehind : behindUid (settings ++ [x]) = behindUid settings ++ [x] := by
        rw [behindUid, List.rtakeWhile_concat_pos]
        · rfl
        · simp [hx]
      rw [huid] at h
      rw [hlevel, ih h, hbehind, lastOf_append]
      rfl

/-! ### Whether the uid decides -/

/-- The level is that of the uid, in its bounds; and with it, whatever else a report has and
whichever users there are, the answer is that of the client, the uid and the configuration. -/
structure FixedByUid (settings : List Setting) (uid : String) : Prop where
  level : (genClientUser getBytes settings).body.level = bucket (getBytes uid)
  bounds : 0 ≤ (genClientUser getBytes settings).body.level ∧
    (genClientUser getBytes settings).body.level ≤ 99
  answer : ∀ clientId users configs, isEmpty clientId = false →
    (clientUserReport getBytes (some settings) clientId users configs).2 =
      .granted ((read configs).body.grantClients.contains clientId &&
        decide (bucket (getBytes uid) < (read configs).body.level))

/-- **When the level is fixed by the uid.** The level of a report that binds with a uid, and the
answer to it, are those of the uid exactly when the last level behind the last uid in the report,
if there is one, is the level of the uid. -/
theorem fixedByUid_iff (getBytes : Encoding) (settings : List Setting) (uid : String)
    (huid : (genClientUser getBytes settings).body.uid = some uid) (hne : uid ≠ "") :
    FixedByUid getBytes settings uid ↔
      ∀ n ∈ ((behindUid settings).filterMap levelSetting).getLast?,
        n = bucket (getBytes uid) := by
  have hgen := genClientUser_level getBytes huid hne
  rw [lastOf_eq_getLast?] at hgen
  constructor
  · intro h n hn
    rw [h.level, hn, Option.getD_some] at hgen
    exact hgen.symm
  · intro h
    have hlevel : (genClientUser getBytes settings).body.level = bucket (getBytes uid) := by
      rw [hgen]
      cases hlast : ((behindUid settings).filterMap levelSetting).getLast? with
      | none => rfl
      | some n => exact h n hlast
    refine ⟨hlevel, hlevel ▸ bucket_range (getBytes uid), fun clientId users configs hclient => ?_⟩
    simp [clientUserReport, hclient, v1ClientUserReport, hlevel]

/-! ### Concrete reports -/

/-- The encoding of ASCII texts. -/
def asciiBytes : Encoding := fun s => s.toList.map fun ch => UInt8.ofNat ch.toNat

theorem fixedByUid_iff_levelFirst :
    FixedByUid asciiBytes [.level 0, .uid (some "u"), .appId (some "app")] "u" :=
  (fixedByUid_iff asciiBytes [.level 0, .uid (some "u"), .appId (some "app")] "u" rfl
    (by decide)).mpr (by decide)

/-- The client is granted, to users with a level below 50. -/
def halfGranted : GlobalConfigs := ⟨[⟨1, ⟨50, [some "client"]⟩⟩], by simp⟩

/-- A level behind the uid takes the place of the one that came with it, and the user is granted
what the same uid is not granted by itself. -/
theorem not_fixedByUid_levelBehind :
    (genClientUser asciiBytes [.uid (some "u"), .level 0]).body.uid = some "u" ∧
      (clientUserReport asciiBytes (some [.uid (some "u"), .level 0]) (some "client") .empty
        halfGranted).2 = .granted true ∧
      (clientUserReport asciiBytes (some [.uid (some "u")]) (some "client") .empty
        halfGranted).2 = .granted false ∧
      ¬ FixedByUid asciiBytes [.uid (some "u"), .level 0] "u" := by
  have hbucket : bucket (asciiBytes "u") = 94 := by decide +kernel
  refine ⟨rfl, rfl, ?_, fun h => ?_⟩
  · have hanswer : (clientUserReport asciiBytes (some [.uid (some "u")]) (some "client") .empty
        halfGranted).2 = .granted (decide (bucket (asciiBytes "u") < 50)) := rfl
    rw [hanswer, hbucket]
    rfl
  · have hlevel := h.level
    rw [hbucket] at hlevel
    exact absurd hlevel (by decide)

end Logful.ClientUserReport
