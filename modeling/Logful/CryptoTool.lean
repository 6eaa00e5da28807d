import Logful.JavaText
import Logful.JsonText
import Logful.StringUtil

/-!
`CryptoTool` with its certificates.

The key of an application is derived by native code, and its certificate kept in a map. The array
of the key is longer than what is derived, and the rest of it is what was on the stack. Where the
native code is not given the characters of its string nothing is derived, and all of the
certificate is what was on the stack. The parser takes decryption for a function of the application
and the data; here it is shown to be one, once the native code has returned a certificate for the
application, and which one.

The codecs, the derivation of keys and the ciphers are code of other libraries.
-/

namespace Logful.CryptoTool

open Logful.BigEndian (Bytes)
open Logful.JavaText Logful.JsonText
open Logful.StringUtil hiding AESDecrypt AESDecryptApp

/-! ### The libraries -/

/-- `newString` is `new String(bytes, "UTF-8")`; the ciphers return nothing when they throw. -/
structure Libraries where
  encodeBase64 : Bytes → Bytes
  decodeBase64 : Bytes → Bytes
  newString : Bytes → String
  /-- With `aes-256-cbc` and `md5`, no salt and one turn: the key and the vector for a text. -/
  EVP_BytesToKey : Bytes → Vector UInt8 32 × Vector UInt8 16
  aesCbc : (key iv data : Bytes) → Option Bytes
  aesEcb : (key data : Bytes) → Option Bytes

/-- `Arrays.copyOf` -/
def copyOf (original : Bytes) (newLength : ℕ) : Bytes :=
  (original ++ List.replicate newLength 0).take newLength

/-! ### Certificates -/

structure Certificate where
  key : Bytes
  iv : Bytes

def KEY_SUFFIX : String := "A8P20vWlvfSu3JMO6tBjgr05UvjHAh2x"

/-- Where the bytes of a certificate come from. `GetStringUTFChars` may return null, which is not
looked at; `EVP_BytesToKey` reports success for it and writes nothing. -/
inductive Origin
  /-- Derived, with what is on the stack behind the key. -/
  | derived (rest : Vector UInt8 32)
  /-- All of it is what is on the stack. -/
  | stack (key : Vector UInt8 64) (iv : Vector UInt8 16)

def certificate (l : Libraries) (keyStr : Bytes) : Origin → Certificate
  | .derived rest =>
    let (key, iv) := l.EVP_BytesToKey keyStr
    ⟨key.toList ++ rest.toList, iv.toList⟩
  | .stack key iv => ⟨key.toList, iv.toList⟩

/-- The native method, which returns null when it does not find the cipher or the digest, or
nothing can be derived. The bytes are the characters of the string it is given. -/
def security (l : Libraries) (native : Option Origin) (keyStr : Bytes) : Option Certificate :=
  native.map (certificate l keyStr)

/-- The text that the key of an application is derived from. -/
def keyStr (l : Libraries) (appId : String) : Bytes :=
  l.encodeBase64 (utf8 (appId ++ KEY_SUFFIX).toList)

abbrev KeyMap := String → Option Certificate

/-- The certificate of an application, from the map or else from the native code. -/
def certificateOf (l : Libraries) (native : Option Origin) (appId : String) (keyMap : KeyMap) :
    Option Certificate × KeyMap :=
  match keyMap appId with
  | some certificate => (some certificate, keyMap)
  | none =>
    match security l native (keyStr l appId) with
    | some certificate => (some certificate, Function.update keyMap appId (some certificate))
    | none => (none, keyMap)

/-- What is done with a certificate. -/
def decrypt (l : Libraries) (certificate : Certificate) (data : Bytes) : Option String :=
  match splitAround "__" (l.newString (l.decodeBase64 data)) with
  | [_, part] =>
    let cipherData := l.decodeBase64 (utf8 part.toList)
    let newKey := copyOf certificate.key 32
    (l.aesCbc newKey certificate.iv cipherData).map l.newString
  | _ => none

/-! ### AESDecrypt -/

/-- `AESDecrypt(String appId, byte[] data)` -/
def AESDecryptApp (l : Libraries) (native : Option Origin) (appId : Option String)
    (data : Option Bytes) (keyMap : KeyMap) : Option String × KeyMap :=
  match appId, data with
  | some appId, some data =>
    if appId = "" then (none, keyMap)
    else if refused data then (none, keyMap)
    else
      let (certificate, keyMap) := certificateOf l native appId keyMap
      (certificate.bind (decrypt l · data), keyMap)
  | _, _ => (none, keyMap)

/-- `AESDecrypt(byte[] security, byte[] data)` -/
def AESDecrypt (l : Libraries) (security data : Option Bytes) : Option String :=
  match security, data with
  | some security, some data =>
    if refused data then none else (l.aesEcb security data).map l.newString
  | _, _ => none

/-- A call with the name of an application, and what the native code would come to in it. -/
structure Call where
  appId : Option String
  data : Option Bytes
  native : Option Origin

/-- The answers to calls, one after another. -/
def answers (l : Libraries) : KeyMap → List Call → List (Option String)
  | _, [] => []
  | keyMap, call :: calls =>
    let (answer, keyMap) := AESDecryptApp l call.native call.appId call.data keyMap
    answer :: answers l keyMap calls

/-! ### Decryption as the parser takes it -/

/-- The certificate without what is behind the key. -/
def derived (l : Libraries) (appId : String) : Certificate :=
  let (key, iv) := l.EVP_BytesToKey (keyStr l appId)
  ⟨key.toList, iv.toList⟩

def ciphers (l : Libraries) : Ciphers where
  cbc appId data := decrypt l (derived l appId) data
  ecb security data := (l.aesEcb security data).map l.newString

/-- The ciphers with one key and vector for every application. -/
def ciphersWith (l : Libraries) (key iv : Bytes) : Ciphers where
  cbc _ data := decrypt l ⟨key, iv⟩ data
  ecb security data := (l.aesEcb security data).map l.newString

/-- The ciphers that a certificate stands for. -/
def Origin.ciphers (l : Libraries) : Origin → Ciphers
  | .derived _ => CryptoTool.ciphers l
  | .stack key iv => ciphersWith l key.toList iv.toList

/-- The call comes to the certificate of its application. -/
def Call.tries (call : Call) : Bool :=
  !isEmpty call.appId && call.data.any (!refused ·)

/-- The origin of the first certificate that the native code has returned for the application in
one of the calls, or would have returned if there had been none. -/
def firstOrigin (calls : List Call) (appId : Option String) : Option Origin :=
  calls.findSome? fun call => if call.appId = appId && call.tries then call.native else none

variable {l : Libraries} {native : Option Origin} {appId : String} {data : Bytes} {keyMap : KeyMap}

/-- What was on the stack behind the key does not matter. -/
lemma decrypt_certificate (l : Libraries) (appId : String) (origin : Origin) (data : Bytes) :
    decrypt l (certificate l (keyStr l appId) origin) data = (origin.ciphers l).cbc appId data := by
  cases origin with
  | stack key iv => rfl
  | derived rest =>
    have hkey : copyOf ((derived l appId).key ++ rest.toList) 32 =
        copyOf (derived l appId).key 32 := by
      have hlength : (derived l appId).key.length = 32 := by simp [derived]
      rw [copyOf, copyOf, List.append_assoc, List.take_left' hlength, List.take_left' hlength]
    change decrypt l ⟨(derived l appId).key ++ rest.toList, (derived l appId).iv⟩ data =
      decrypt l (derived l appId) data
    simp only [decrypt, hkey]

/-- The map behind the calls: for every application it has the first certificate. -/
def Holds (l : Libraries) (calls : List Call) (keyMap : KeyMap) : Prop :=
  ∀ appId, keyMap appId =
    (firstOrigin calls (some appId)).map (certificate l (keyStr l appId))

lemma firstOrigin_concat (calls : List Call) (call : Call) (appId : Option String) :
    firstOrigin (calls ++ [call]) appId = (firstOrigin calls appId).or
      (if call.appId = appId && call.tries then call.native else none) := by
  simp [firstOrigin, List.findSome?_append]

/-- The look for a certificate: what is kept comes first, and then the native code. -/
lemma certificateOf_eq (native : Option Origin) (appId : String) (keyMap : KeyMap) :
    certificateOf l native appId keyMap =
      ((keyMap appId).or (security l native (keyStr l appId)),
        Function.update keyMap appId
          ((keyMap appId).or (security l native (keyStr l appId)))) := by
  have hsame : ∀ c, keyMap appId = c → Function.update keyMap appId c = keyMap := by
    rintro _ rfl
    exact Function.update_eq_self appId keyMap
  unfold certificateOf
  cases hkept : keyMap appId with
  | some certificate => rw [Option.some_or, hsame _ hkept]
  | none =>
    cases security l native (keyStr l appId) with
    | some certificate => rfl
    | none => rw [Option.or_none, hsame _ hkept]

/-- A call that does not come to a certificate. -/
lemma Call.of_not_tries (l : Libraries) (keyMap : KeyMap) {call : Call} (h : call.tries = false) :
    AESDecryptApp l call.native call.appId call.data keyMap = (none, keyMap) ∧
      ∀ c, call.data.bind (StringUtil.AESDecryptApp c call.appId) = none := by
  obtain ⟨_ | appId, _ | data, native⟩ := call
  · exact ⟨rfl, fun c => rfl⟩
  · exact ⟨rfl, fun c => rfl⟩
  · exact ⟨rfl, fun c => rfl⟩
  · simp only [AESDecryptApp, StringUtil.AESDecryptApp, Option.bind_some]
    by_cases hempty : appId = ""
    · simp [hempty]
    · have hrefused : refused data = true := by
        simpa [Call.tries, isEmpty, hempty] using h
      simp [hempty, hrefused]

lemma Call.of_tries (l : Libraries) {call : Call} (h : call.tries = true) :
    ∃ appId data, call.appId = some appId ∧ call.data = some data ∧
      (∀ keyMap, AESDecryptApp l call.native call.appId call.data keyMap =
        ((certificateOf l call.native appId keyMap).1.bind (decrypt l · data),
          (certificateOf l call.native appId keyMap).2)) ∧
      ∀ c, call.data.bind (StringUtil.AESDecryptApp c call.appId) = c.cbc appId data := by
  obtain ⟨_ | appId, _ | data, native⟩ := call
  · cases h
  · cases h
  · simp [Call.tries] at h
  · obtain ⟨hempty, hrefused⟩ : appId ≠ "" ∧ refused data = false := by
      simpa [Call.tries, isEmpty] using h
    refine ⟨appId, data, rfl, rfl, fun keyMap => ?_, fun c => ?_⟩
    · simp [AESDecryptApp, hempty, hrefused]
    · simp [StringUtil.AESDecryptApp, hempty, hrefused]

/-- What a call answers that comes behind others. -/
def expected (l : Libraries) (calls : List Call) (call : Call) : Option String :=
  (firstOrigin (calls ++ [call]) call.appId).bind fun origin =>
    call.data.bind (StringUtil.AESDecryptApp (origin.ciphers l) call.appId)

/-- **A call.** It answers what is expected, and leaves the map as it is to be. -/
theorem holds_call {calls : List Call} (h : Holds l calls keyMap) (call : Call) :
    ∃ keyMap', AESDecryptApp l call.native call.appId call.data keyMap =
      (expected l calls call, keyMap') ∧ Holds l (calls ++ [call]) keyMap' := by
  cases htries : call.tries with
  | false =>
    obtain ⟨hcall, hpure⟩ := Call.of_not_tries l keyMap htries
    refine ⟨keyMap, ?_, fun a => ?_⟩
    · have hnone : expected l calls call = none := by simp [expected, hpure]
      rw [hcall, hnone]
    · rw [h a, firstOrigin_concat, htries, Bool.and_false, if_neg Bool.false_ne_true,
        Option.or_none]
  | true =>
    obtain ⟨appId, data, happId, hdata, hcall, hpure⟩ := Call.of_tries l htries
    have hfirst : ∀ a, firstOrigin (calls ++ [call]) (some a) =
        (firstOrigin calls (some a)).or (if appId = a then call.native else none) := by
      intro a
      rw [firstOrigin_concat, happId, htries, Bool.and_true]
      simp only [Option.some.injEq, decide_eq_true_eq]
    have hfound : (keyMap appId).or (security l call.native (keyStr l appId)) =
        (firstOrigin (calls ++ [call]) (some appId)).map (certificate l (keyStr l appId)) := by
      rw [h appId, hfirst, if_pos rfl, security, Option.map_or]
    rw [hcall, certificateOf_eq, hfound]
    refine ⟨_, Prod.ext ?_ rfl, fun a => ?_⟩
    · rw [expected, happId, Option.bind_map]
      refine congrArg (Option.bind _) (funext fun origin => ?_)
      rw [← happId, hpure]
      exact decrypt_certificate l appId origin data
    · by_cases ha : a = appId
      · subst ha
        exact Function.update_self ..
      · simp only [Function.update_of_ne ha, h a, hfirst, if_neg (Ne.symm ha), Option.or_none]

lemma holds_nil (l : Libraries) : Holds l [] fun _ => none := fun _ => rfl

lemma answers_of_holds {calls : List Call} (h : Holds l calls keyMap) (more : List Call) (i : ℕ) :
    (answers l keyMap more)[i]? =
      more[i]?.map fun call => expected l (calls ++ more.take i) call := by
  induction more generalizing calls keyMap i with
  | nil => rfl
  | cons call more ih =>
    obtain ⟨keyMap', hcall, hholds⟩ := holds_call h call
    rw [answers, hcall]
    cases i with
    | zero => simp
    | succ i =>
      simp only [List.getElem?_cons_succ, ih hholds, List.take_succ_cons, List.append_assoc,
        List.singleton_append]

/-- **Decryption.** In every order of calls, and whatever the native code comes to in each, the
first certificate that it returns for an application decides. Before that a call answers nothing.
From then on it answers what the parser takes decryption to be, if that certificate was derived,
and else what comes of decrypting with what was on the stack. -/
theorem answers_eq (l : Libraries) (calls : List Call) (i : ℕ) :
    (answers l (fun _ => none) calls)[i]? = calls[i]?.map fun call =>
      match firstOrigin (calls.take i ++ [call]) call.appId with
      | none => none
      | some (.derived _) => call.data.bind (StringUtil.AESDecryptApp (ciphers l) call.appId)
      | some (.stack key iv) =>
        call.data.bind
          (StringUtil.AESDecryptApp (ciphersWith l key.toList iv.toList) call.appId) := by
  rw [answers_of_holds (holds_nil l), List.nil_append]
  congr 1
  funext call
  rw [expected]
  rcases firstOrigin (calls.take i ++ [call]) call.appId with _ | rest | ⟨key, iv⟩ <;> rfl

/-- The other method keeps nothing. -/
theorem AESDecrypt_eq (l : Libraries) (security data : Option Bytes) :
    AESDecrypt l security data = data.bind (StringUtil.AESDecrypt (ciphers l) security) := by
  cases security <;> cases data <;> rfl

end Logful.CryptoTool
