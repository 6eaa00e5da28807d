import Logful.LogFileParseTask
import Logful.Paths
import Mathlib.Logic.Equiv.Basic

/-!
What `StringUtil.attachmentKey` keeps apart.

The key is a digest of four fields with dashes between them, and nothing keeps a dash out of the
fields. The platform is read back from the text that is digested. Behind it only the parts between
all dashes are, and not which of them belong to which field.
-/

namespace Logful.AttachmentKeys

open Logful.ClientRestController Logful.Entity Logful.JavaText
open Logful.LogFileParseTask Logful.LogFileParser Logful.Paths Logful.Properties
open Logful.StringUtil

/-! ### References to attachments -/

/-- `StringUtil.platformNumber`. -/
def platformNumber (platformString : String) : ℤ :=
  if equalsIgnoreCase platformString "android" then PLATFORM_ANDROID
  else if equalsIgnoreCase platformString "iOS" then PLATFORM_IOS
  else 0

/-- What an attachment is named by: the owner, the application, and the id it has there. -/
structure Reference where
  platform : ℤ
  uid : String
  appId : String
  attachmentId : String
  deriving DecidableEq

/-- The reference of an upload, of the parameters of its request. -/
def Reference.ofUpload (platform uid appId attachmentId : String) : Reference :=
  ⟨platformNumber platform, uid, appId, attachmentId⟩

/-- The reference in a record of a log file. -/
def Reference.ofRecord (p : LogFileProperties) (r : LogRecord) : Reference :=
  ⟨p.platform, valueOf p.uid, valueOf p.appId, toString r.attachmentId⟩

def Reference.key (md5Hex toLowerCase : String → String) (r : Reference) : String :=
  attachmentKey md5Hex toLowerCase r.platform r.uid r.appId r.attachmentId

/-- An upload is stored under the key of its reference. -/
lemma key_of_upload {env : Env} {load : Load} {platform uid appId attachmentId : String}
    {fileSum : Option String} {file : MultipartFile} {d : Disk} {m : WeedFSMeta}
    (h : (v1UploadAttachment env load (platformNumber platform) uid appId fileSum attachmentId file
      d).2 = .write m) :
    m.key = some ((Reference.ofUpload platform uid appId attachmentId).key env.library.md5Hex
      env.library.toLowerCase) := by
  unfold v1UploadAttachment at h
  simp only at h
  split_ifs at h
  cases receive_eq_write h
  rfl

/-- A line of a log file links to the key of the reference in its record. -/
lemma key_of_record (sv : Services) (t : Task) (r : LogRecord) (h : r.attachmentId ≠ -1) :
    (logMessage sv t r).attachment =
      some ((Reference.ofRecord t.properties r).key sv.md5Hex sv.toLowerCase) := by
  simp [logMessage, LogMessage.create, h, Reference.ofRecord, Reference.key]

/-! ### The parts between the dashes -/

/-- The parts of the fields that follow the platform. -/
def Reference.parts (toLowerCase : String → String) (r : Reference) : List String :=
  pieces '-' r.uid ++ pieces '-' (toLowerCase r.appId) ++ pieces '-' r.attachmentId

/-- The two agree in all four fields, the case of the application id apart. -/
def Same (toLowerCase : String → String) (r s : Reference) : Prop :=
  r.platform = s.platform ∧ r.uid = s.uid ∧ toLowerCase r.appId = toLowerCase s.appId ∧
    r.attachmentId = s.attachmentId

/-- On one platform, the same parts between all dashes, but with other numbers of them in the user
or in the application id. -/
def Shifted (toLowerCase : String → String) (r s : Reference) : Prop :=
  r.platform = s.platform ∧ r.parts toLowerCase = s.parts toLowerCase ∧
    ((pieces '-' r.uid).length ≠ (pieces '-' s.uid).length ∨
      (pieces '-' (toLowerCase r.appId)).length ≠ (pieces '-' (toLowerCase s.appId)).length)

variable (toLowerCase : String → String)

instance (r s : Reference) : Decidable (Same toLowerCase r s) :=
  inferInstanceAs (Decidable (_ ∧ _))

instance (r s : Reference) : Decidable (Shifted toLowerCase r s) :=
  inferInstanceAs (Decidable (_ ∧ _))

lemma dash_notMem_toDigits (n : ℕ) : '-' ∉ Nat.toDigits 10 n := by
  intro h
  have hdigit := Nat.isDigit_of_mem_toDigits (by decide) (by decide) h
  exact absurd hdigit (by decide)

/-- A number begins with a part that is empty exactly when it is negative. -/
lemma pieces_toString (n : ℤ) : pieces '-' (toString n) =
    if 0 ≤ n then [toString n] else ["", (-n).toNat.repr] := by
  rw [Int.toString_eq_repr, Int.repr_eq_if]
  have hnone (k : ℕ) : '-' ∉ k.repr.toList := by
    rw [Nat.toList_repr]
    exact dash_notMem_toDigits k
  split_ifs with hn
  · exact pieces_eq_singleton (hnone _)
  · have happend := pieces_append '-' "" (-n).toNat.repr
    have hempty : pieces '-' "" = [""] := by decide
    rw [hempty, pieces_eq_singleton (hnone _), String.empty_append] at happend
    exact happend

/-- The platform is read back from the parts, and the others are what is left. -/
lemma platform_of_parts {p q : ℤ} {l m : List String}
    (h : pieces '-' (toString p) ++ l = pieces '-' (toString q) ++ m) : p = q ∧ l = m := by
  have hne (n : ℤ) (hn : 0 ≤ n) : toString n ≠ "" := by
    intro hempty
    have hread := signedDigits_toString n
    rw [hempty] at hread
    cases hread
  have hinj (n k : ℤ) (hnk : toString n = toString k) : n = k := by
    have hn := signedDigits_toString n
    rw [hnk, signedDigits_toString k] at hn
    exact (Option.some_inj.mp hn).symm
  rw [pieces_toString, pieces_toString] at h
  split_ifs at h with hp hq hq
  · obtain ⟨hhead, htail⟩ := List.cons_eq_cons.mp h
    exact ⟨hinj p q hhead, htail⟩
  · obtain ⟨hhead, -⟩ := List.cons_eq_cons.mp h
    exact absurd hhead (hne p hp)
  · obtain ⟨hhead, -⟩ := List.cons_eq_cons.mp h
    exact absurd hhead.symm (hne q hq)
  · obtain ⟨-, htail⟩ := List.cons_eq_cons.mp h
    obtain ⟨hhead, htail⟩ := List.cons_eq_cons.mp htail
    have hdigits : Nat.toDigits 10 (-p).toNat = Nat.toDigits 10 (-q).toNat := by
      rw [← Nat.toList_repr, ← Nat.toList_repr, hhead]
    have hnat := digits_toDigits (-p).toNat
    rw [hdigits, digits_toDigits, Option.some_inj] at hnat
    exact ⟨by omega, htail⟩

/-- The texts that are digested are the same exactly when the platforms and the parts are. -/
lemma key_eq_iff {md5Hex : String → String} (hinj : Function.Injective md5Hex) (r s : Reference) :
    r.key md5Hex toLowerCase = s.key md5Hex toLowerCase ↔
      r.platform = s.platform ∧ r.parts toLowerCase = s.parts toLowerCase := by
  have hpieces (x : Reference) : pieces '-' (toString x.platform ++ "-" ++ x.uid ++ "-" ++
      toLowerCase x.appId ++ "-" ++ x.attachmentId) =
        pieces '-' (toString x.platform) ++ x.parts toLowerCase := by
    have hdash : "-" = String.singleton '-' := rfl
    rw [hdash, pieces_append, pieces_append, pieces_append]
    simp [Reference.parts]
  unfold Reference.key attachmentKey
  rw [hinj.eq_iff, ← (pieces_injective '-').eq_iff, hpieces, hpieces]
  constructor
  · exact platform_of_parts
  · rintro ⟨hplatform, hparts⟩
    rw [hplatform, hparts]

/-- Where the dashes are in the same fields, the same parts are the same fields. -/
lemma same_of_parts {r s : Reference} (hplatform : r.platform = s.platform)
    (hparts : r.parts toLowerCase = s.parts toLowerCase)
    (huid : (pieces '-' r.uid).length = (pieces '-' s.uid).length)
    (happ : (pieces '-' (toLowerCase r.appId)).length =
      (pieces '-' (toLowerCase s.appId)).length) : Same toLowerCase r s := by
  unfold Reference.parts at hparts
  have hboth : (pieces '-' r.uid ++ pieces '-' (toLowerCase r.appId)).length =
      (pieces '-' s.uid ++ pieces '-' (toLowerCase s.appId)).length := by
    rw [List.length_append, List.length_append]
    omega
  obtain ⟨hfront, hid⟩ := List.append_inj hparts hboth
  obtain ⟨hu, ha⟩ := List.append_inj hfront huid
  exact ⟨hplatform, pieces_injective '-' hu, pieces_injective '-' ha, pieces_injective '-' hid⟩

/-- **Which keys collide.** For a digest that is injective, two references that differ have
different keys exactly when they are not shifted: when it is not so that all parts between the
dashes agree, and some of them are in other fields. -/
theorem key_ne_iff_not_shifted (md5Hex : String → String) (hinj : Function.Injective md5Hex)
    (toLowerCase : String → String) (r s : Reference) :
    (¬ Same toLowerCase r s → r.key md5Hex toLowerCase ≠ s.key md5Hex toLowerCase) ↔
      ¬ Shifted toLowerCase r s := by
  rw [Ne, key_eq_iff toLowerCase hinj r s]
  constructor
  · rintro h ⟨hplatform, hparts, hlength⟩
    refine h ?_ ⟨hplatform, hparts⟩
    rintro ⟨-, huid, happ, -⟩
    rw [huid, happ] at hlength
    simp at hlength
  · rintro hshifted hdiffer ⟨hplatform, hparts⟩
    refine hshifted ⟨hplatform, hparts, ?_⟩
    by_contra hlength
    rw [not_or, not_not, not_not] at hlength
    exact hdiffer (same_of_parts toLowerCase hplatform hparts hlength.1 hlength.2)

/-! ### Concrete references -/

/-- The digests of three texts; any other text takes the place of a digest. -/
def threeDigests : Equiv.Perm String :=
  (Equiv.swap "1-u-app-7" "b9d32566d9604f8945aefce071bebd29").trans <|
    (Equiv.swap "1-u-app-8" "6883e42b82738a7b41265c3e3cd9c6e7").trans
      (Equiv.swap "1-a-b-c-7" "a455ccb98e94f430b3daed49929ac892")

def asciiLowerCase (s : String) : String := .ofList (s.toList.map Char.toLower)

theorem key_ne_iff_not_shifted_twoIds :
    ¬ Shifted asciiLowerCase ⟨1, "u", "App", "7"⟩ ⟨1, "u", "app", "8"⟩ ∧
      Reference.key threeDigests asciiLowerCase ⟨1, "u", "App", "7"⟩ ≠
        Reference.key threeDigests asciiLowerCase ⟨1, "u", "app", "8"⟩ := by
  have hshifted : ¬ Shifted asciiLowerCase ⟨1, "u", "App", "7"⟩ ⟨1, "u", "app", "8"⟩ := by decide
  exact ⟨hshifted, (key_ne_iff_not_shifted threeDigests threeDigests.injective asciiLowerCase
    ⟨1, "u", "App", "7"⟩ ⟨1, "u", "app", "8"⟩).mpr hshifted (by decide)⟩

/-- The user `a-b` of the application `c` has the key of the user `a` of the application `b-c`. -/
theorem not_key_ne_dashes :
    ¬ ∀ r s, ¬ Same asciiLowerCase r s →
      Reference.key threeDigests asciiLowerCase r ≠
        Reference.key threeDigests asciiLowerCase s := by
  intro h
  exact h (.ofUpload "android" "a-b" "c" "7") (.ofUpload "android" "a" "b-c" "7") (by decide) rfl

end Logful.AttachmentKeys
