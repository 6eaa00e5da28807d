import Logful.ClientRestController
import Logful.Paths

/-!
The paths that the three upload routes of `ClientRestController` use.

A log upload uses the names of its properties, a crash upload a drawn key, an attachment
upload a digest. Only the key and the extension of the properties are not overwritten after
a payload was bound, and they make the path of the text file.
-/

namespace Logful.UploadPaths

open Logful.BigEndian Logful.ClientRestController Logful.JavaText Logful.Paths Logful.Properties
open Logful.StringUtil

inductive Upload
  | log (payload : List Setting) (originalFilename : Option String) (security : Option Bytes)
  | crash (originalFilename : Option String)
  | attachment (platform : ℤ) (uid appId attachmentId : String)
      (originalFilename : Option String)

/-- A path used for an upload, with the directory it belongs to and, if it is to be the path
of this upload only, what was drawn for it. -/
structure Use where
  dir : String
  path : String
  own : Option Uid

/-- `weedDir() + "/" + key + "." + extension`, unless there is no extension. -/
def storedUse (env : Env) (key : String) (originalFilename : Option String) :
    Option (List Use) :=
  let extension := env.library.getExtension originalFilename
  if isEmpty (some key) || isEmpty extension then none
  else some [⟨env.weedDir, storedPath env key extension, none⟩]

/-- The paths of an upload that is accepted: the cache file, the text file and the cache file
in the error directory of a log upload, the stored file of the other two. -/
def uses (env : Env) (d : Draws) : Upload → Option (List Use)
  | .log payload originalFilename security =>
    (genProperties env.toContext d.key d.filename payload originalFilename security).map fun p =>
      [⟨env.tempDir, p.cacheFilePath, some d.filename⟩,
        ⟨env.weedDir, p.outFilePath, some d.key⟩,
        ⟨env.errorDir p.platform, p.errorPath ++ "/" ++ valueOf p.filename, none⟩]
  | .crash originalFilename => storedUse env d.key.val originalFilename
  | .attachment platform uid appId attachmentId originalFilename =>
    storedUse env
      (attachmentKey env.library.md5Hex env.library.toLowerCase platform uid appId attachmentId)
      originalFilename

/-- No file is meant whose name does not begin with what was drawn. -/
def Fresh (uid : Uid) (path : String) : Prop :=
  ∀ other, ¬ NameStartsWith uid.val other → file other ≠ file path

/-- Whatever is drawn for the upload, its files lie directly in their directories, and its
own are fresh. -/
def Safe (env : Env) (u : Upload) : Prop :=
  ∀ d us, uses env d u = some us → ∀ x ∈ us,
    DirectChild x.dir x.path ∧ ∀ uid ∈ x.own, Fresh uid x.path

def Accepted (env : Env) (u : Upload) : Prop := ∃ d, (uses env d u).isSome

/-- The payload of a log upload has no member `key`, and its extension, if it has one, no
separator but at the end. -/
def KeepsName : Upload → Prop
  | .log payload _ _ => (∀ x ∈ payload, keySetting x = none) ∧
      ∀ s ∈ (pieces '/' (valueOf
        (lastOf extensionSetting (some LOG_FILE_EXTENSION) payload))).tail, s = ""
  | _ => True

/-! ### Names made of hexadecimal digits -/

lemma slash_notMem_hex {s : String} (h : ∀ ch ∈ s.toList, ch ∈ hexDigits) : '/' ∉ s.toList :=
  fun hs => absurd (h '/' hs) (by decide)

lemma toList_ne_nil_of_uid (uid : Uid) : uid.val ≠ "" := by
  intro h
  have hlen := uid.length
  rw [h] at hlen
  simp at hlen

lemma fresh_iff {uid : Uid} {path : String} : Fresh uid path ↔ NameStartsWith uid.val path := by
  constructor
  · intro h
    by_contra hn
    exact h path hn rfl
  · intro h other ho
    exact file_ne_of_nameStartsWith h ho

/-! ### The paths of accepted uploads -/

lemma uid_noSlash (uid : Uid) : '/' ∉ uid.val.toList := slash_notMem_hex uid.hex

lemma names_uid (uid : Uid) : (file uid.val).names = [uid.val] :=
  file_names_of_noSlash (toList_ne_nil_of_uid uid) (uid_noSlash uid)

lemma proper_uid (uid : Uid) : Proper uid.val :=
  proper_of_length (by rw [uid.length]; omega)

lemma weedDir_ne (env : Env) : env.weedDir ≠ "" := by simp [Env.weedDir, WEED_TEMP_DIR]

lemma tempDir_ne (env : Env) : env.tempDir ≠ "" := by simp [Env.tempDir, LOG_FILE_TEMP_DIR]

lemma errorDir_ne (env : Env) (platform : ℤ) : env.errorDir platform ≠ "" := by
  simp [Env.errorDir, ERROR_DIR]

/-- The path of the text file, by what the payload leaves in the two fields. -/
def textPath (env : Env) (payload : List Setting) (key : Uid) : String :=
  env.weedDir ++ "/" ++ (valueOf (lastOf keySetting (some key.val) payload) ++ "." ++
    valueOf (lastOf extensionSetting (some LOG_FILE_EXTENSION) payload))

lemma uses_log {env : Env} {d : Draws} {payload : List Setting}
    {originalFilename : Option String} {security : Option Bytes} {us : List Use}
    (h : uses env d (.log payload originalFilename security) = some us) :
    ∃ platform, us =
      [⟨env.tempDir, env.tempDir ++ "/" ++ d.filename.val, some d.filename⟩,
        ⟨env.weedDir, textPath env payload d.key, some d.key⟩,
        ⟨env.errorDir platform, env.errorDir platform ++ "/" ++ d.filename.val, none⟩] := by
  obtain ⟨p, hp, rfl⟩ := Option.map_eq_some_iff.mp h
  obtain ⟨hw, hf, hk, he⟩ := genProperties_spec hp
  refine ⟨p.platform, ?_⟩
  simp only [LogFileProperties.cacheFilePath, LogFileProperties.tempPath,
    LogFileProperties.outFilePath, LogFileProperties.errorPath, hw, hf, hk, he]
  rfl

/-- A drawn name lies directly in the directory it is joined to, and is fresh. -/
lemma drawn_safe {dir : String} (hdir : dir ≠ "") (uid : Uid) :
    DirectChild dir (dir ++ "/" ++ uid.val) ∧ Fresh uid (dir ++ "/" ++ uid.val) := by
  constructor
  · exact (directChild_join hdir).mpr ⟨uid.val, proper_uid uid, names_uid uid⟩
  · refine fresh_iff.mpr ⟨uid.val, ?_, List.prefix_rfl⟩
    simp [file_join hdir, names_uid]

/-- A stored file lies directly in its directory. -/
lemma storedUse_safe {env : Env} {key : String} {originalFilename : Option String}
    {us : List Use} (hkey : '/' ∉ key.toList)
    (h : storedUse env key originalFilename = some us) :
    ∀ x ∈ us, DirectChild x.dir x.path ∧ ∀ uid ∈ x.own, Fresh uid x.path := by
  unfold storedUse at h
  simp only at h
  split_ifs at h with hempty
  cases h
  intro x hx
  obtain rfl := List.mem_singleton.mp hx
  refine ⟨(directChild_join (weedDir_ne env)).mpr ?_, by simp⟩
  rw [Bool.or_eq_true, not_or] at hempty
  obtain ⟨hk, hext⟩ := hempty
  cases he : env.library.getExtension originalFilename with
  | none => simp [he, isEmpty] at hext
  | some e =>
    have hkne : key ≠ "" := by simpa [isEmpty] using hk
    have hene : e ≠ "" := by simpa [he, isEmpty] using hext
    have hnoslash : '/' ∉ (key ++ "." ++ e).toList := by
      simp [hkey, env.library.getExtension_noSlash _ e he]
    have hlen : 2 < (key ++ "." ++ e).toList.length := by
      have h1 := List.length_pos_iff.mpr (show key.toList ≠ [] by simpa using hkne)
      have h2 := List.length_pos_iff.mpr (show e.toList ≠ [] by simpa using hene)
      rw [String.toList_append, String.toList_append, List.length_append, List.length_append]
      have h3 : (".".toList).length = 1 := rfl
      omega
    exact ⟨_, proper_of_length hlen, file_names_of_noSlash (by simp [hkne]) hnoslash⟩

/-- The text file of a log upload whose payload leaves the drawn key alone. -/
lemma outFile_safe {dir : String} (hdir : dir ≠ "") (uid : Uid) (ext : String) :
    (DirectChild dir (dir ++ "/" ++ (uid.val ++ "." ++ ext)) ↔
        ∀ s ∈ (pieces '/' ext).tail, s = "") ∧
      (DirectChild dir (dir ++ "/" ++ (uid.val ++ "." ++ ext)) →
        Fresh uid (dir ++ "/" ++ (uid.val ++ "." ++ ext))) := by
  have hdot : uid.val ++ "." ≠ "" := by simp
  have hnoslash : '/' ∉ (uid.val ++ ".").toList := by simp [uid_noSlash uid]
  obtain ⟨e', hnames⟩ := names_append (b := ext) hdot hnoslash
  have hstart : uid.val.toList <+: (uid.val ++ "." ++ e').toList := by
    rw [String.toList_append, String.toList_append, List.append_assoc]
    exact List.prefix_append _ _
  have hproper : Proper (uid.val ++ "." ++ e') := by
    have hlen := hstart.length_le
    rw [uid.length] at hlen
    exact proper_of_length (by omega)
  rw [directChild_join hdir, hnames]
  constructor
  · constructor
    · rintro ⟨n, -, hn⟩ s hs
      have htail := (List.cons_eq_cons.mp hn).2
      by_contra hne
      have hmem : s ∈ (pieces '/' ext).tail.filter (· ≠ "") :=
        List.mem_filter.mpr ⟨hs, by simpa using hne⟩
      rw [htail] at hmem
      cases hmem
    · intro h
      refine ⟨_, hproper, ?_⟩
      rw [List.filter_eq_nil_iff.mpr fun s hs => by simpa using h s hs]
  · rintro ⟨n, -, hn⟩
    refine fresh_iff.mpr ⟨uid.val ++ "." ++ e', ?_, hstart⟩
    rw [file_join hdir, hnames, (List.cons_eq_cons.mp hn).2]
    simp

/-! ### The exact payloads -/

/-- No path begins with each of two drawn names. -/
lemma not_both_start {uid uid' : Uid} {path : String} (hne : uid.val ≠ uid'.val)
    (h : NameStartsWith uid.val path) : ¬ NameStartsWith uid'.val path := by
  rintro ⟨n', hn', hp'⟩
  obtain ⟨n, hn, hp⟩ := h
  rw [Option.mem_def] at hn hn'
  obtain rfl := Option.some_inj.mp (hn.symm.trans hn')
  have hlen : uid.val.toList.length = uid'.val.toList.length := by rw [uid.length, uid'.length]
  have heq : uid.val.toList = uid'.val.toList :=
    (List.prefix_of_prefix_length_le hp hp' hlen.le).eq_of_length hlen
  exact hne (String.toList_inj.mp heq)

/-- A log upload stays in its directories if its text file does: the other two names are
drawn. -/
lemma log_safe_iff {env : Env} {payload : List Setting} {originalFilename : Option String}
    {security : Option Bytes} (h : Accepted env (.log payload originalFilename security)) :
    Safe env (.log payload originalFilename security) ↔
      ∀ key, DirectChild env.weedDir (textPath env payload key) ∧
        Fresh key (textPath env payload key) := by
  obtain ⟨d₀, h₀⟩ := h
  have hsome : ∀ d, ∃ us, uses env d (.log payload originalFilename security) = some us := by
    intro d
    rw [← Option.isSome_iff_exists, uses, Option.isSome_map,
      genProperties_isSome _ d.key d₀.key d.filename d₀.filename, ← Option.isSome_map]
    exact h₀
  constructor
  · intro hsafe key
    obtain ⟨us, hus⟩ := hsome ⟨key, d₀.filename⟩
    obtain ⟨platform, rfl⟩ := uses_log hus
    obtain ⟨hdir, hfresh⟩ := hsafe _ _ hus _ (List.mem_cons_of_mem _ List.mem_cons_self)
    exact ⟨hdir, hfresh key rfl⟩
  · intro htext d us hus
    obtain ⟨platform, rfl⟩ := uses_log hus
    obtain ⟨htemp, htempFresh⟩ := drawn_safe (tempDir_ne env) d.filename
    obtain ⟨herror, -⟩ := drawn_safe (errorDir_ne env platform) d.filename
    intro x hx
    simp only [List.mem_cons, List.not_mem_nil, or_false] at hx
    rcases hx with rfl | rfl | rfl
    · exact ⟨htemp, fun uid huid => by cases huid; exact htempFresh⟩
    · exact ⟨(htext d.key).1, fun uid huid => by cases huid; exact (htext d.key).2⟩
    · exact ⟨herror, by simp⟩

/-- The text file stays in its directory, whatever is drawn, if its payload keeps the name. -/
lemma textPath_safe_iff (env : Env) (payload : List Setting) :
    (∀ key, DirectChild env.weedDir (textPath env payload key) ∧
        Fresh key (textPath env payload key)) ↔
      (∀ x ∈ payload, keySetting x = none) ∧
        ∀ s ∈ (pieces '/' (valueOf
          (lastOf extensionSetting (some LOG_FILE_EXTENSION) payload))).tail, s = "" := by
  constructor
  · intro hsafe
    have hkey : ∀ x ∈ payload, keySetting x = none := by
      intro x hx
      by_contra hne
      -- the key of the payload is the key whichever of two names is drawn
      have hsame : textPath env payload (sameDigit '0' (by decide)) =
          textPath env payload (sameDigit '1' (by decide)) := by
        rw [textPath, lastOf_of_some hx (Option.isSome_iff_ne_none.mpr hne), textPath]
      have h0 := fresh_iff.mp (hsafe (sameDigit '0' (by decide))).2
      have h1 := fresh_iff.mp (hsafe (sameDigit '1' (by decide))).2
      rw [hsame] at h0
      exact not_both_start (by decide) h0 h1
    have hdir := (hsafe (sameDigit '0' (by decide))).1
    rw [textPath, lastOf_of_none hkey] at hdir
    exact ⟨hkey, (outFile_safe (weedDir_ne env) _ _).1.mp hdir⟩
  · rintro ⟨hkey, hext⟩ key
    obtain ⟨hdir, hfresh⟩ := outFile_safe (weedDir_ne env) key
      (valueOf (lastOf extensionSetting (some LOG_FILE_EXTENSION) payload))
    rw [textPath, lastOf_of_none hkey]
    exact ⟨hdir.mpr hext, hfresh (hdir.mpr hext)⟩

/-- **Which uploads stay in their directories.** The files of an accepted upload lie directly
in their directories, and the two of a log upload are its own, whatever is drawn, if and
only if it is no log upload whose payload binds the key, or an extension with a separator
inside. -/
theorem safe_iff (env : Env) (u : Upload) (h : Accepted env u) :
    Safe env u ↔ KeepsName u := by
  cases u with
  | crash originalFilename =>
    refine iff_of_true (fun d us hus => ?_) trivial
    exact storedUse_safe (uid_noSlash d.key) hus
  | attachment platform uid appId attachmentId originalFilename =>
    refine iff_of_true (fun d us hus => ?_) trivial
    exact storedUse_safe (slash_notMem_hex (env.library.md5Hex_hex _)) hus
  | log payload originalFilename security =>
    exact (log_safe_iff h).trans (textPath_safe_iff env payload)

/-- A log upload with the four members that are asked for, and others. -/
def logUpload (others : List Setting) : Upload :=
  .log ([.uid (some "u"), .appId (some "app"), .loggerName (some "log"), .fileSum (some "0")] ++
    others) (some "log-20160101-info-1.bin") (some [])

/-- The draws of 32 zeros. -/
def zeros : Draws := ⟨sameDigit '0' (by decide), sameDigit '0' (by decide)⟩

lemma logUpload_nil_accepted : Accepted plainEnv (logUpload []) := ⟨zeros, by decide⟩

theorem safe_iff_logUpload : Safe plainEnv (logUpload []) :=
  (safe_iff plainEnv (logUpload []) logUpload_nil_accepted).mpr ⟨by decide, by decide⟩

/-- Client strings move a file out of its directory: a payload binds the key to a path into the
directory of the cache files. -/
theorem not_safe_key :
    Accepted plainEnv (logUpload [.key (some "../temp/x")]) ∧
      ((uses plainEnv zeros (logUpload [.key (some "../temp/x")])).map fun us =>
          us.map Use.path) = some ["/data/temp/00000000000000000000000000000000",
        "/data/weed/../temp/x.txt", "/data/error/unknown/00000000000000000000000000000000"] ∧
      ¬ Safe plainEnv (logUpload [.key (some "../temp/x")]) := by
  refine ⟨⟨zeros, by decide⟩, by decide, fun h => ?_⟩
  have hout := h zeros _ rfl ⟨"/data/weed", "/data/weed/../temp/x.txt", some zeros.key⟩
    (List.mem_cons_of_mem _ List.mem_cons_self)
  obtain ⟨n, -, hn⟩ := hout.1
  have hlen := congrArg (fun f => f.names.length) hn
  rw [List.length_append, List.length_singleton] at hlen
  exact absurd hlen (by decide)

end Logful.UploadPaths
