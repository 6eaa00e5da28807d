import Logful.BigEndian

/-!
Constants, `StringUtil` and the guards of `CryptoTool`.

The ciphers and the digest are code of other libraries; they are parameters.
-/

namespace Logful.StringUtil

open Logful.BigEndian

/-! ### Constants -/

def VERBOSE : ℤ := 1
def FATAL : ℤ := 7
def ERROR_DIR : String := "error"
def LOG_FILE_TEMP_DIR : String := "temp"
def WEED_TEMP_DIR : String := "weed"
def CRYPTO_ERROR : String := "CRYPTO_ERROR"
def DEFAULT_GRAY_LEVEL : ℤ := 100
def PLATFORM_ANDROID : ℤ := 1
def PLATFORM_IOS : ℤ := 2
def LOG_FILE_EXTENSION : String := "txt"

/-! ### StringUtil -/

/-- `StringUtils.isEmpty`: null or the empty string. -/
def isEmpty : Option String → Bool
  | none => true
  | some s => s == ""

/-- A string in a concatenation. -/
def valueOf (s : Option String) : String := s.getD "null"

def platformString (platform : ℤ) : String :=
  if platform = PLATFORM_ANDROID then "android"
  else if platform = PLATFORM_IOS then "iOS"
  else "unknown"

/-- `platformString(platform).toLowerCase()`, on the three strings there are. -/
def platformDir (platform : ℤ) : String :=
  .ofList ((platformString platform).toList.map Char.toLower)

/-- The attachment key, for a digest and a lower-casing of strings. -/
def attachmentKey (md5Hex toLowerCase : String → String)
    (platform : ℤ) (uid appId attachmentId : String) : String :=
  md5Hex (toString platform ++ "-" ++ uid ++ "-" ++ toLowerCase appId ++ "-" ++ attachmentId)

def decryptError (message : Option String) : Bool :=
  isEmpty message || message == some CRYPTO_ERROR

lemma decryptError_none : decryptError none = true := rfl

/-! ### CryptoTool -/

/-- The two ciphers, as what the `try` blocks of `AESDecrypt` return: nothing when they
throw or when the text under the key of an application does not have its two parts. -/
structure Ciphers where
  cbc : String → Bytes → Option String
  ecb : Bytes → Bytes → Option String

def errorBytes : Bytes := [0, 0]

/-- The bytes of a string of ASCII characters. -/
def asciiBytes (s : String) : Bytes := s.toList.map fun ch => UInt8.ofNat ch.toNat

/-- Data that no cipher is tried on. -/
def refused (data : Bytes) : Bool :=
  data == errorBytes || data == asciiBytes CRYPTO_ERROR

/-- `AESDecrypt(String appId, byte[] data)`. -/
def AESDecryptApp (c : Ciphers) (appId : Option String) (data : Bytes) : Option String :=
  match appId with
  | none => none
  | some appId =>
    if appId = "" then none
    else if refused data then none
    else c.cbc appId data

/-- `AESDecrypt(byte[] security, byte[] data)`. -/
def AESDecrypt (c : Ciphers) (security : Option Bytes) (data : Bytes) : Option String :=
  match security with
  | none => none
  | some security => if refused data then none else c.ecb security data

end Logful.StringUtil
