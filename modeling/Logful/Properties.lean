import Logful.Entity
import Logful.Paths
import Mathlib.Data.List.AList

/-!
`LogFileProperties`, and how `ClientRestController.genProperties` makes them of a payload.

What Jackson does with a payload is the list of the setters it calls, in the order of the
members; a payload it cannot bind has none. Two of the fields are drawn by the constructor
and by `genProperties`.
-/

namespace Logful.Properties

open Logful.BigEndian Logful.Entity Logful.JavaText Logful.StringUtil

/-! ### Random names -/

def hexDigits : List Char :=
  ['0', '1', '2', '3', '4', '5', '6', '7', '8', '9', 'a', 'b', 'c', 'd', 'e', 'f']

lemma zero_mem_hexDigits : '0' ∈ hexDigits := List.mem_cons_self

lemma hexDigits_plain {ch : Char} (h : ch ∈ hexDigits) :
    Paths.isSeparator ch = false ∧ ch ≠ '.' := by
  have hall : hexDigits.all (fun ch => !Paths.isSeparator ch && ch != '.') = true := by decide
  simpa using List.all_eq_true.mp hall ch h

/-- What `StringUtil.randomUid` returns. -/
structure Uid where
  val : String
  length : val.toList.length = 32
  hex : ∀ ch ∈ val.toList, ch ∈ hexDigits

/-- A name of 32 times the same digit. -/
def sameDigit (ch : Char) (h : ch ∈ hexDigits) : Uid where
  val := .ofList (List.replicate 32 ch)
  length := by simp
  hex := by simp [h]

/-! ### The properties -/

abbrev LayoutTexts := AList fun _ : ℤ => String

structure LogFileProperties where
  layoutMap : LayoutTexts
  platform : ℤ
  clientId : Option String
  uid : Option String
  appId : Option String
  level : ℤ
  loggerName : Option String
  layouts : Option String
  userAlias : Option String
  filename : Option String
  fileSum : Option String
  workPath : Option String
  originalFilename : Option String
  key : Option String
  extension : Option String
  security : Option Bytes
  compatible : Bool

/-- The constructor, with the key it draws. -/
def LogFileProperties.new (key : Uid) : LogFileProperties where
  layoutMap := ∅
  platform := 0
  clientId := none
  uid := none
  appId := none
  level := 0
  loggerName := none
  layouts := none
  userAlias := none
  filename := none
  fileSum := none
  workPath := none
  originalFilename := none
  key := some key.val
  extension := some LOG_FILE_EXTENSION
  security := none
  compatible := false

def LogFileProperties.getLayout (p : LogFileProperties) (layoutId : ℤ) : Option String :=
  p.layoutMap.lookup layoutId

/-! ### Paths -/

variable (p : LogFileProperties)

def LogFileProperties.tempPath : String := valueOf p.workPath ++ "/" ++ LOG_FILE_TEMP_DIR

def LogFileProperties.cacheFilePath : String := p.tempPath ++ "/" ++ valueOf p.filename

def LogFileProperties.errorPath : String :=
  valueOf p.workPath ++ "/" ++ ERROR_DIR ++ "/" ++ platformDir p.platform

def LogFileProperties.outFilePath : String :=
  valueOf p.workPath ++ "/" ++ WEED_TEMP_DIR ++ "/" ++
    (valueOf p.key ++ "." ++ valueOf p.extension)

/-! ### The metadata of the text file -/

/-- `create`, for a parser of dates: nothing for a name that is not made of four parts with a
date and a number in their places, an exception for a name without a dot. -/
def LogFileProperties.create (parseDate : String → Option ℤ) :
    Except String (Option WeedFSMeta) :=
  match substringBefore '.' (valueOf p.originalFilename) with
  | none => .error "StringIndexOutOfBoundsException"
  | some base =>
    match split '-' base with
    | [_, dateString, _, fragmentString] =>
      match parseDate dateString, parseInt fragmentString with
      | some date, some fragment =>
        let fileMeta := LogFileMeta.create (toShort p.platform) p.clientId p.uid p.appId
          p.loggerName date (toShort p.level) fragment
        .ok (some (.create p.key p.extension (.log fileMeta)))
      | _, _ => .ok none
    | _ => .ok none

/-- The text file and its metadata go by one name. -/
lemma filename_of_create {parseDate : String → Option ℤ} {m : WeedFSMeta}
    (h : p.create parseDate = .ok (some m)) :
    m.key = p.key ∧ m.extension = p.extension := by
  unfold LogFileProperties.create at h
  split at h
  · cases h
  · split at h
    · split at h
      · cases h
        exact ⟨rfl, rfl⟩
      · cases h
    · cases h

/-! ### Binding a payload -/

/-- A member of the payload, as the setter that is called for it. -/
inductive Setting
  | compatible (b : Bool)
  | clientId (s : Option String)
  | platform (n : ℤ)
  | security (b : Option Bytes)
  | fileSum (s : Option String)
  | extension (s : Option String)
  | key (s : Option String)
  | uid (s : Option String)
  | appId (s : Option String)
  | loggerName (s : Option String)
  | layouts (s : Option String)
  | userAlias (s : Option String)
  | level (n : ℤ)
  | filename (s : Option String)
  | workPath (s : Option String)
  | originalFilename (s : Option String)
  deriving DecidableEq

/-- How the text of the member `layouts` is read: the items of a JSON array, each an `id` and
a `layout`. -/
abbrev LayoutReader := Option String → Option (List (ℤ × String))

/-- The setter. Only `setLayouts` may throw, on a text that is no such array. -/
def set (read : LayoutReader) (p : LogFileProperties) : Setting → Option LogFileProperties
  | .compatible b => some { p with compatible := b }
  | .clientId s => some { p with clientId := s }
  | .platform n => some { p with platform := n }
  | .security b => some { p with security := b }
  | .fileSum s => some { p with fileSum := s }
  | .extension s => some { p with extension := s }
  | .key s => some { p with key := s }
  | .uid s => some { p with uid := s }
  | .appId s => some { p with appId := s }
  | .loggerName s => some { p with loggerName := s }
  | .layouts s => (read s).map fun items =>
      { p with
        layouts := s
        layoutMap := items.foldl (fun m item => m.insert item.1 item.2) ∅ }
  | .userAlias s => some { p with userAlias := s }
  | .level n => some { p with level := n }
  | .filename s => some { p with filename := s }
  | .workPath s => some { p with workPath := s }
  | .originalFilename s => some { p with originalFilename := s }

/-- `mapper.readValue`. -/
def bind (read : LayoutReader) (key : Uid) (payload : List Setting) : Option LogFileProperties :=
  payload.foldlM (set read) (.new key)

/-- What the controller knows: how layouts are read, its path and the authenticated client. -/
structure Context where
  read : LayoutReader
  path : String
  clientId : Option String

/-- `genProperties`, with the two names that are drawn. -/
def genProperties (ctx : Context) (key filename : Uid) (payload : List Setting)
    (originalFilename : Option String) (security : Option Bytes) : Option LogFileProperties :=
  if isEmpty originalFilename then none
  else
    (bind ctx.read key payload).bind fun p =>
      let p := { p with
        clientId := ctx.clientId
        security := security
        filename := some filename.val
        originalFilename := originalFilename
        workPath := some ctx.path }
      if isEmpty p.uid || isEmpty p.appId || isEmpty p.loggerName || isEmpty p.fileSum then none
      else some p

/-! ### What a payload leaves in the two fields of the file name -/

/-- The value of the last of the settings that there is one for. -/
def lastOf {α : Type} (f : Setting → Option α) (default : α) (payload : List Setting) : α :=
  payload.foldl (fun a x => (f x).getD a) default

def keySetting : Setting → Option (Option String)
  | .key s => some s
  | _ => none

def extensionSetting : Setting → Option (Option String)
  | .extension s => some s
  | _ => none

lemma set_key {read : LayoutReader} {p q : LogFileProperties} {x : Setting}
    (h : set read p x = some q) : q.key = (keySetting x).getD p.key ∧
      q.extension = (extensionSetting x).getD p.extension := by
  cases x with
  | layouts s =>
    obtain ⟨items, -, rfl⟩ := Option.map_eq_some_iff.mp h
    exact ⟨rfl, rfl⟩
  | _ =>
    cases h
    exact ⟨rfl, rfl⟩

lemma bind_key {read : LayoutReader} {payload : List Setting} {p q : LogFileProperties}
    (h : payload.foldlM (set read) p = some q) : q.key = lastOf keySetting p.key payload ∧
      q.extension = lastOf extensionSetting p.extension payload := by
  induction payload generalizing p with
  | nil =>
    cases h
    exact ⟨rfl, rfl⟩
  | cons x payload ih =>
    rw [List.foldlM_cons] at h
    obtain ⟨p', hx, h⟩ := Option.bind_eq_some_iff.mp h
    obtain ⟨hk, he⟩ := set_key hx
    obtain ⟨hk', he'⟩ := ih h
    rw [hk', he', hk, he]
    exact ⟨rfl, rfl⟩

/-- The file names of accepted properties: the payload decides on key and extension, the
others are overwritten. -/
lemma genProperties_spec {ctx : Context} {key filename : Uid} {payload : List Setting}
    {originalFilename : Option String} {security : Option Bytes} {p : LogFileProperties}
    (h : genProperties ctx key filename payload originalFilename security = some p) :
    p.workPath = some ctx.path ∧ p.filename = some filename.val ∧
      p.key = lastOf keySetting (some key.val) payload ∧
      p.extension = lastOf extensionSetting (some LOG_FILE_EXTENSION) payload := by
  unfold genProperties at h
  split_ifs at h
  obtain ⟨q, hq, h⟩ := Option.bind_eq_some_iff.mp h
  obtain ⟨hk, he⟩ := bind_key hq
  simp only at h
  split_ifs at h
  cases h
  exact ⟨rfl, rfl, hk, he⟩

/-! ### What the drawn key has no part in -/

lemma set_withKey (read : LayoutReader) (p : LogFileProperties) (key : Option String)
    (x : Setting) : set read { p with key := key } x =
      (set read p x).map fun q => { q with key := (keySetting x).getD key } := by
  cases x with
  | layouts s => cases h : read s <;> simp [set, keySetting, h]
  | _ => rfl

lemma bind_withKey (read : LayoutReader) (payload : List Setting) (p : LogFileProperties)
    (key : Option String) : payload.foldlM (set read) { p with key := key } =
      (payload.foldlM (set read) p).map fun q =>
        { q with key := lastOf keySetting key payload } := by
  induction payload generalizing p key with
  | nil => rfl
  | cons x payload ih =>
    rw [List.foldlM_cons, List.foldlM_cons, set_withKey]
    cases set read p x with
    | none => rfl
    | some q => exact ih q _

/-- Whether properties are accepted does not depend on what is drawn. -/
lemma genProperties_isSome (ctx : Context) (key key' filename filename' : Uid)
    (payload : List Setting) (originalFilename : Option String) (security : Option Bytes) :
    (genProperties ctx key filename payload originalFilename security).isSome =
      (genProperties ctx key' filename' payload originalFilename security).isSome := by
  have hbind : bind ctx.read key' payload = (bind ctx.read key payload).map fun q =>
      { q with key := lastOf keySetting (some key'.val) payload } :=
    bind_withKey ctx.read payload (.new key) (some key'.val)
  unfold genProperties
  rw [hbind]
  split_ifs
  · rfl
  · cases bind ctx.read key payload with
    | none => rfl
    | some q =>
      simp only [Option.map_some, Option.bind_some]
      split_ifs <;> rfl

lemma lastOf_of_none {α : Type} {f : Setting → Option α} {a : α} {payload : List Setting}
    (h : ∀ x ∈ payload, f x = none) : lastOf f a payload = a := by
  induction payload with
  | nil => rfl
  | cons x payload ih =>
    rw [lastOf, List.foldl_cons, h x List.mem_cons_self]
    exact ih fun y hy => h y (List.mem_cons_of_mem x hy)

/-- Where there is a member for a field, its initial value is lost. -/
lemma lastOf_of_some {α : Type} {f : Setting → Option α} {a b : α} {payload : List Setting}
    {x : Setting} (hx : x ∈ payload) (h : (f x).isSome) :
    lastOf f a payload = lastOf f b payload := by
  induction payload generalizing a b with
  | nil => cases hx
  | cons y payload ih =>
    rw [lastOf, lastOf, List.foldl_cons, List.foldl_cons]
    rcases List.mem_cons.mp hx with rfl | hx
    · obtain ⟨v, hv⟩ := Option.isSome_iff_exists.mp h
      rw [hv]
      rfl
    · exact ih hx

end Logful.Properties
