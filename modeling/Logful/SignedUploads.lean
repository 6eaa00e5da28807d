import Logful.ApplicationKeyPairManager
import Logful.GraylogIsolation
import Logful.JsonText
import Logful.UploadRollback

/-!
Signed uploads: from the client that makes them to the text file that is handed over.

A client gets a public key with its token. For a log file it draws a key of its own, which goes
under the public key into the signature; its properties go under its own key into the chunk, and
so do the texts of its records. The server finds the private key by the authenticated client.
-/

namespace Logful.SignedUploads

open Logful.ApplicationKeyPairManager Logful.BigEndian Logful.ClientRestController
open Logful.Entity Logful.GraylogIsolation Logful.JavaText Logful.JsonText Logful.LogFileParser
open Logful.ParserFrames Logful.Properties Logful.SimpleClientDetailService Logful.StringUtil
open Logful.UploadRollback Logful.WireFormat
open Logful.LogFileParseTask (Services Task Complete Decodes line logMessage lines mode quiet)

variable {security : Security}

/-! ### The server -/

/-- What the server calls of other libraries: the ciphers, Base64, RSA with a private key, which
may throw, and the setters that are called for the members of a JSON text. -/
structure Decoders (security : Security) where
  ciphers : Ciphers
  decodeBase64 : String → Bytes
  rsaDecrypt : Bytes → security.PrivateKey → Option Bytes
  readValue : String → Option (List Setting)

def API_VERSION_V1 : ℤ := 1

/-- `VersionUtil.version`. -/
def version (_versionString : String) : ℤ := API_VERSION_V1

def getPrivateKey (clientId : ClientId) (s : State security) :
    State security × Option security.PrivateKey :=
  if isEmpty clientId then (s, none)
  else
    let (s, keyPair) := getKeyPair clientId s
    (s, keyPair.map ClientKeyPair.privateKey)

def decrypt (R : Decoders security) (clientId : ClientId) (data : Bytes) (s : State security) :
    State security × Option Bytes :=
  let (s, privateKey) := getPrivateKey clientId s
  (s, privateKey.bind (R.rsaDecrypt data))

/-- `SimpleTokenEnhancer.enhance`: the `public_key` that goes with a token. -/
def enhance (clientId : ClientId) (s : State security) : State security × Option String :=
  let (s, clientKeyPair) := getKeyPair clientId s
  (s, clientKeyPair.bind fun k => if isEmpty k.pemPublicKey then none else k.pemPublicKey)

/-- The members of a payload that are read, as `optString` gives them. -/
structure Payload where
  sdkVersion : String
  signature : String
  chunk : String

/-- `uploadLogFile`, for a payload that is a JSON object; an exception that nobody catches is
answered like an `InternalServerException`. -/
def uploadLogFile (R : Decoders security) (env : Env) (load : Load) (draws : Draws)
    (payload : Option Payload) (logFile : MultipartFile) (s : State security) (d : Disk) :
    State security × Disk × Answer :=
  match payload with
  | none => (s, d, .internalServerError)
  | some object =>
    if object.sdkVersion = "" ∨ object.signature = "" ∨ object.chunk = "" then
      (s, d, .badRequest)
    else if version object.sdkVersion = API_VERSION_V1 then
      match decrypt R env.clientId (R.decodeBase64 object.signature) s with
      | (s, none) => (s, d, .badRequest)
      | (s, some security) =>
        match AESDecrypt R.ciphers (some security) (R.decodeBase64 object.chunk) with
        | none => (s, d, .badRequest)
        | some content =>
          if content = "" then (s, d, .badRequest)
          else
            match (R.readValue content).bind fun settings => genProperties env.toContext draws.key
              draws.filename settings logFile.originalFilename (some security) with
            | none => (s, d, .badRequest)
            | some properties =>
              let (d, answer) := v1UploadLogFile env load (some properties) logFile d
              (s, d, answer)
    else (s, d, .badRequest)

/-- A task of an upload that was accepted: it has the properties, and reads the file where it
lies. `gunzip` opens a compressed file. What fails in the run of the task is left open. -/
structure TaskOf (gunzip : Bytes → Option InputStream) (p : LogFileProperties) (d : Disk)
    (t : Task) : Prop where
  properties : t.properties = p
  stream : (d.files p.cacheFilePath).bind gunzip = some t.stream
  gzipFails : t.gzipFails = false

/-! ### The client -/

/-- The other side of the libraries: what is encoded and encrypted can be had back. A public key
comes as text; `Belongs` says that two keys were generated together. -/
structure Encoders (R : Decoders security) where
  encodeBase64 : Bytes → String
  RsaEncrypts : String → Bytes → Bytes → Prop
  aesEncrypt : Bytes → String → Bytes
  Belongs : security.PublicKey → security.PrivateKey → Prop
  decode_encode : ∀ bytes, R.decodeBase64 (encodeBase64 bytes) = bytes
  encode_ne : ∀ bytes, bytes ≠ [] → encodeBase64 bytes ≠ ""
  rsaEncrypts_ne : ∀ pem bytes out, RsaEncrypts pem bytes out → out ≠ []
  rsaDecrypt_of : ∀ publicKey privateKey pem bytes out, Belongs publicKey privateKey →
    security.pem publicKey = some pem → RsaEncrypts pem bytes out →
      R.rsaDecrypt out privateKey = some bytes
  /-- A cipher of whole blocks, of which there is at least one. -/
  aes_blocks : ∀ key s, ∃ n, (aesEncrypt key s).length = 16 * (n + 1)
  ecb_aesEncrypt : ∀ key s, key.length ∈ [16, 24, 32] →
    R.ciphers.ecb key (aesEncrypt key s) = some s

variable {R : Decoders security} {C : Encoders R} {key : Bytes}

/-- What a client logs, as far as it can be written under its key. -/
structure Entry (C : Encoders R) (key : Bytes) where
  timestamp : ℤ
  tag : String
  msg : String
  layoutId : ℤ
  attachmentId : Option ℤ
  timestamp_ge : -2 ^ 63 ≤ timestamp
  timestamp_lt : timestamp < 2 ^ 63
  tag_plain : decryptError (some tag) = false
  tag_le : (C.aesEncrypt key tag).length ≤ 32767
  msg_plain : decryptError (some msg) = false
  msg_le : (C.aesEncrypt key msg).length ≤ 32767
  layoutId_ge : -2 ^ 15 ≤ layoutId
  layoutId_lt : layoutId < 2 ^ 15
  attachmentId_bounds : ∀ a ∈ attachmentId, -2 ^ 31 ≤ a ∧ a < 2 ^ 31

/-- The entry as it is written into the file. -/
def Entry.wire (e : Entry C key) : WireRecord where
  time := put 8 e.timestamp
  tag := C.aesEncrypt key e.tag
  msg := C.aesEncrypt key e.msg
  layout := put 2 e.layoutId
  attachment := e.attachmentId.map (put 4)
  time_ge := (length_put 8 _).ge
  time_le := by rw [length_put]; omega
  tag_le := e.tag_le
  msg_le := e.msg_le
  layout_ge := (length_put 2 _).ge
  layout_le := by rw [length_put]; omega
  attachment_length := by
    intro a ha
    obtain ⟨n, -, rfl⟩ := Option.mem_map.mp ha
    exact length_put 4 n

/-- The entry as it is delivered. -/
def Entry.record (e : Entry C key) : LogRecord :=
  ⟨e.timestamp, e.tag, e.msg, e.layoutId, e.attachmentId.getD (-1)⟩

/-- The payload of a client, for its key under the public one, and the text of its properties. -/
def signed (C : Encoders R) (sdkVersion : String) (key signature : Bytes) (content : String) :
    Payload :=
  ⟨sdkVersion, C.encodeBase64 signature, C.encodeBase64 (C.aesEncrypt key content)⟩

/-! ### One text -/

lemma refused_aesEncrypt (s : String) : refused (C.aesEncrypt key s) = false := by
  obtain ⟨n, hn⟩ := C.aes_blocks key s
  have hlen : (asciiBytes CRYPTO_ERROR).length = 12 := by decide
  simp only [refused, errorBytes, Bool.or_eq_false_iff, beq_eq_false_iff_ne]
  constructor
  · intro h
    rw [h] at hn
    simp at hn
    omega
  · intro h
    rw [h, hlen] at hn
    omega

lemma AESDecrypt_aesEncrypt (hkey : key.length ∈ [16, 24, 32]) (s : String) :
    AESDecrypt R.ciphers (some key) (C.aesEncrypt key s) = some s := by
  rw [AESDecrypt, refused_aesEncrypt, if_neg Bool.false_ne_true]
  exact C.ecb_aesEncrypt key s hkey

/-- How the records of the file are decrypted. -/
lemma decrypt_aesEncrypt (hkey : key.length ∈ [16, 24, 32]) {m : Mode} (hm : m.compatible = false)
    (hs : m.security = some key) (s : String) :
    m.decrypt R.ciphers (C.aesEncrypt key s) = some s := by
  rw [Mode.decrypt, if_neg (by simp [hm]), hs]
  exact AESDecrypt_aesEncrypt hkey s

lemma signed_put_eq {w : ℕ} {n : ℤ} (hlo : -(256 ^ w : ℕ) ≤ n * 2) (hhi : n * 2 < (256 ^ w : ℕ)) :
    BigEndian.signed (put w n) = n := by
  have hget := get_put hlo hhi []
  rw [List.append_nil, get_eq_some (length_put w n).ge,
    List.take_of_length_le (length_put w n).le] at hget
  exact Option.some_inj.mp hget

/-- An entry is read as it was written. -/
lemma Entry.record_wire (hkey : key.length ∈ [16, 24, 32]) {m : Mode} (hm : m.compatible = false)
    (hs : m.security = some key) (e : Entry C key) :
    e.wire.Decrypts R.ciphers m ∧ e.wire.record R.ciphers m = e.record := by
  have htag := decrypt_aesEncrypt (C := C) hkey hm hs e.tag
  have hmsg := decrypt_aesEncrypt (C := C) hkey hm hs e.msg
  refine ⟨⟨?_, ?_⟩, ?_⟩
  · rw [Entry.wire, htag]
    exact e.tag_plain
  · rw [Entry.wire, hmsg]
    exact e.msg_plain
  · have htime : BigEndian.signed ((put 8 e.timestamp).take 8) = e.timestamp := by
      have := e.timestamp_ge
      have := e.timestamp_lt
      rw [List.take_of_length_le (length_put 8 _).le]
      exact signed_put_eq (by norm_num; omega) (by norm_num; omega)
    have hlayout : BigEndian.signed ((put 2 e.layoutId).take 2) = e.layoutId := by
      have := e.layoutId_ge
      have := e.layoutId_lt
      rw [List.take_of_length_le (length_put 2 _).le]
      exact signed_put_eq (by norm_num; omega) (by norm_num; omega)
    have hattachment : (e.attachmentId.map (put 4)).map BigEndian.signed = e.attachmentId := by
      cases ha : e.attachmentId with
      | none => rfl
      | some a =>
        obtain ⟨hlo, hhi⟩ := e.attachmentId_bounds a ha
        simp only [Option.map_some, Option.some_inj]
        exact signed_put_eq (by norm_num; omega) (by norm_num; omega)
    simp only [WireRecord.record, Entry.wire, Entry.record, htime, hlayout, hattachment, htag,
      hmsg, Option.getD_some]

/-! ### The key of a token -/

variable {serverProperties : ServerProperties} {clients : Clients (AdditionalInformation security)}
  {clientId : ClientId} {found : ClientKeyPair security}

/-- What a look-up answered is answered by every later one, whatever becomes of the client. -/
lemma getKeyPair_later {p : List (Request security)}
    (h : (getKeyPair clientId (after serverProperties clients p)).2 = some found)
    (q : List (Request security)) :
    (getKeyPair clientId
      (after serverProperties clients (p ++ .getKeyPair clientId :: q))).2 = some found := by
  rw [getKeyPair_eq] at h
  have hcached : (after serverProperties clients
      (p ++ .getKeyPair clientId :: q)).keyPairMap clientId = some found := by
    rw [after_append, List.foldl_cons]
    refine keyPairMap_foldl ?_
    rw [handle, getKeyPair_eq]
    exact (Function.update_self ..).trans h
  rw [getKeyPair_eq, hcached]
  rfl

/-- The text of a key pair that is found is the one of its public key. -/
lemma pem_getKeyPair {p : List (Request security)}
    (h : (getKeyPair clientId (after serverProperties clients p)).2 = some found) :
    found.pemPublicKey = security.pem found.publicKey := by
  have hstored : ∀ clients : Clients (AdditionalInformation security),
      storedKeyPair clients clientId = some found →
        found.pemPublicKey = security.pem found.publicKey := by
    intro clients hstored
    simp only [storedKeyPair, Option.bind_eq_bind, Option.bind_eq_some_iff] at hstored
    obtain ⟨client, -, pair, -, hnew⟩ := hstored
    cases hnew
    rfl
  rw [getKeyPair_eq] at h
  simp only at h
  cases hcached : (after serverProperties clients p).keyPairMap clientId with
  | none =>
    rw [hcached] at h
    exact hstored _ h
  | some cached =>
    rw [hcached] at h
    obtain rfl := Option.some_inj.mp h
    obtain ⟨p', -, -, h'⟩ := looked_up hcached
    exact hstored _ h'

/-- A signature under the key of a token is opened at any later time. -/
lemma decrypt_later {p : List (Request security)} {pem : String}
    (htoken : (enhance clientId (after serverProperties clients p)).2 = some pem)
    (hbelongs : ∀ pair, (getKeyPair clientId (after serverProperties clients p)).2 = some pair →
      C.Belongs pair.publicKey pair.privateKey)
    (hclient : isEmpty clientId = false) {signature : Bytes}
    (hsign : C.RsaEncrypts pem key signature) (q : List (Request security)) :
    (decrypt R clientId signature
      (after serverProperties clients (p ++ .getKeyPair clientId :: q))).2 = some key := by
  simp only [enhance, Option.bind_eq_some_iff] at htoken
  obtain ⟨found, hfound, hpem⟩ := htoken
  split_ifs at hpem
  have hlater := getKeyPair_later hfound q
  have hkey := C.rsaDecrypt_of found.publicKey found.privateKey pem key signature
    (hbelongs found hfound) (by rw [← pem_getKeyPair hfound, hpem]) hsign
  simp only [decrypt, getPrivateKey, hclient, Bool.false_eq_true, if_false, hlater,
    Option.map_some, Option.bind_some, hkey]

/-! ### The upload -/

lemma genProperties_security {ctx : Context} {name filename : Uid} {settings : List Setting}
    {originalFilename : Option String} {b : Option Bytes} {p : LogFileProperties}
    (h : genProperties ctx name filename settings originalFilename b = some p) :
    p.security = b := by
  unfold genProperties at h
  split_ifs at h
  obtain ⟨bound, -, h⟩ := Option.bind_eq_some_iff.mp h
  simp only at h
  split_ifs at h
  cases h
  rfl

/-- A transfer in which nothing fails throws nothing. -/
lemma transferTo_quiet {file : MultipartFile} (h : file.fault = none) (dir target : String)
    (d : Disk) : (transferTo file dir target d).2 = false := by
  simp [transferTo, h]

/-- The accepted upload lies where its task reads it, and no other file has changed. -/
lemma v1UploadLogFile_accepted {env : Env} {load : Load} {p : LogFileProperties}
    {file : MultipartFile} (d : Disk) (hroom : load.queueSize < queueCapacity load.capacity)
    (hfault : file.fault = none) (hread : load.readFails = false)
    (hsum : ∃ s ∈ p.fileSum, equalsIgnoreCase s (env.library.md5HexBytes file.bytes) = true)
    (hwork : p.workPath = some env.path) :
    (v1UploadLogFile env load (some p) file d).2 = .submit p ∧
      (v1UploadLogFile env load (some p) file d).1.files =
        Function.update d.files p.cacheFilePath (some file.bytes) := by
  have hpath : env.tempDir ++ "/" ++ valueOf p.filename = p.cacheFilePath := by
    simp [LogFileProperties.cacheFilePath, LogFileProperties.tempPath, hwork, valueOf, Env.tempDir]
  have hquiet := transferTo_quiet hfault env.tempDir p.cacheFilePath d
  have hfiles := transferTo_files file env.tempDir p.cacheFilePath d
  rw [left, hfault] at hfiles
  simp only at hfiles
  have hmd5 : fileMD5 env.library false (transferTo file env.tempDir p.cacheFilePath d).1
      p.cacheFilePath = env.library.md5HexBytes file.bytes := by
    simp [fileMD5, hfiles]
  obtain ⟨sum, hsum, hequal⟩ := hsum
  have hreceive : receive env file env.tempDir p.cacheFilePath p.fileSum load.readFails false
      (.submit p) d = ((transferTo file env.tempDir p.cacheFilePath d).1, .submit p) := by
    rw [receive, hread, Option.mem_def.mp hsum]
    rcases htransfer : transferTo file env.tempDir p.cacheFilePath d with ⟨d', thrown⟩
    rw [htransfer] at hquiet hmd5
    simp only at hquiet hmd5
    subst hquiet
    simp [hmd5, hequal]
  simp only [v1UploadLogFile, if_pos hroom, hpath, hreceive, hfiles, and_self]

/-- A request of a client whose signature is opened is answered as the upload that it is. -/
lemma uploadLogFile_signed {env : Env} {load : Load} {draws : Draws} {file : MultipartFile}
    {s : State security} {sdkVersion content : String} {signature : Bytes}
    {settings : List Setting} {p : LogFileProperties} (d : Disk) (hsdk : sdkVersion ≠ "")
    (hne : signature ≠ []) (hkey : key.length ∈ [16, 24, 32]) (hcontent : content ≠ "")
    (hopen : (decrypt R env.clientId signature s).2 = some key)
    (hread : R.readValue content = some settings)
    (hp : genProperties env.toContext draws.key draws.filename settings file.originalFilename
      (some key) = some p) :
    (uploadLogFile R env load draws (some (signed C sdkVersion key signature content)) file s d).2
      = v1UploadLogFile env load (some p) file d := by
  have hblock : C.aesEncrypt key content ≠ [] := by
    obtain ⟨n, hn⟩ := C.aes_blocks key content
    intro h
    rw [h] at hn
    simp at hn
  have hplain : ¬ (sdkVersion = "" ∨ C.encodeBase64 signature = "" ∨
      C.encodeBase64 (C.aesEncrypt key content) = "") := by
    simp [hsdk, C.encode_ne _ hne, C.encode_ne _ hblock]
  rcases hdecrypt : decrypt R env.clientId signature s with ⟨s', opened⟩
  rw [hdecrypt] at hopen
  simp only at hopen
  subst hopen
  simp only [uploadLogFile, signed, if_neg hplain, version, if_true, C.decode_encode, hdecrypt,
    AESDecrypt_aesEncrypt hkey, if_neg hcontent, hread, Option.bind_some, hp]

/-! ### The task -/

variable {sv : Services} {t : Task}

/-- A task of a file that decodes wholly hands over its record with all of its lines, when none
of them is lost. -/
lemma writes_of_complete (hgzip : t.gzipFails = false) (hrelease : t.releaseFails = none)
    (hdecodes : Decodes sv t) (hcomplete : Complete sv t) {fileMeta : WeedFSMeta}
    (hcreate : t.properties.create sv.parseDate = .ok (some fileMeta)) :
    (LogFileParseTask.run sv t).writes = [(fileMeta, some (lines sv t))] := by
  have hnot : ¬ LogFileParseTask.ReportedFailed sv t := by
    rintro ⟨-, hend⟩
    rw [hdecodes.2] at hend
    cases hend
  obtain ⟨delivered, buffered, thrown, hr, hrun⟩ := LogFileParseTask.run_successful hgzip hnot
  obtain ⟨hcreated, hquiet, hlines, -⟩ := hcomplete
  have hfull := hr.full_iff.mpr ⟨hr.quiet_iff.mpr hquiet, hlines⟩
  rw [hrun, hr.eq_lines hfull]
  simp only [LogFileParseTask.afterSuccess, LogFileParseTask.result, LogFileParseTask.release,
    hcreated, if_true, hrelease, hcreate]
  cases hwrite : t.writeThrows with
  | true =>
    cases hmove : t.moveFails <;>
      simp [LogFileParseTask.moveToErrorDir, LogFileParseTask.start, hmove]
  | false =>
    cases hdelete : t.deleteFails <;>
      simp [LogFileParseTask.deleteCacheFile, LogFileParseTask.start, hdelete]

/-- The lines of a file that a client has written are those of its entries. -/
lemma lines_entries (hciphers : sv.ciphers = R.ciphers) (hkey : key.length ∈ [16, 24, 32])
    (hm : t.properties.compatible = false) (hs : t.properties.security = some key)
    (entries : List (Entry C key)) (hstream : t.stream = ⟨encode (entries.map Entry.wire), false⟩) :
    Decodes sv t ∧ lines sv t = entries.map fun e => line sv (logMessage sv t e.record) := by
  have hrecord := fun e : Entry C key =>
    e.record_wire hkey (m := mode t) hm hs
  have hdecrypts : ∀ r ∈ entries.map Entry.wire, r.Decrypts sv.ciphers (mode t) := by
    intro r hr
    obtain ⟨e, -, rfl⟩ := List.mem_map.mp hr
    rw [hciphers]
    exact (hrecord e).1
  refine ⟨decodes_encode _ hdecrypts hstream, ?_⟩
  have hrecords : records sv.ciphers (mode t) t.stream = entries.map Entry.record := by
    rw [records, frames, hstream, scan_encode _ _ _ hdecrypts _ (Nat.lt_succ_self _)]
    rw [List.filterMap_map, List.filterMap_map, hciphers]
    simp [hrecord]
  rw [lines, hrecords, List.map_map]
  rfl

/-! ### From the token to the text file -/

/-- An upload as a client makes it that has the public key `pem`: its own key and the signature,
the text of its properties and what the server binds it to, and what it has logged. -/
structure ClientUpload (C : Encoders R) (env : Env) (draws : Draws) (pem : String) where
  sdkVersion : String
  key : Bytes
  signature : Bytes
  content : String
  settings : List Setting
  properties : LogFileProperties
  entries : List (Entry C key)
  file : MultipartFile
  sdkVersion_ne : sdkVersion ≠ ""
  key_length : key.length ∈ [16, 24, 32]
  rsaEncrypts : C.RsaEncrypts pem key signature
  content_ne : content ≠ ""
  readValue_content : R.readValue content = some settings
  genProperties_settings : genProperties env.toContext draws.key draws.filename settings
    file.originalFilename (some key) = some properties
  compatible : properties.compatible = false
  fileSum : ∃ s ∈ properties.fileSum,
    equalsIgnoreCase s (env.library.md5HexBytes file.bytes) = true

/-- **What a client logs is stored.** A client that was given its public key with a token can
upload at any later time, whatever has become of it in the registry. Where the queue has room,
the file comes whole and can be read, the server accepts the upload and changes no file but the
one that the task reads. Where the name of the file is one that metadata are made of, the text
file can be created, written and released, and the Graylog service throws on no record, or the
level is verbose, the task hands over the record of the text file with the lines of what the
client has logged, each with its own texts. -/
theorem published_of_token (C : Encoders R) (serverProperties : ServerProperties)
    (clients : Clients (AdditionalInformation security)) (p q : List (Request security))
    (env : Env) (draws : Draws) (pem : String)
    (htoken : (enhance env.clientId (after serverProperties clients p)).2 = some pem)
    (hbelongs : ∀ pair, (getKeyPair env.clientId (after serverProperties clients p)).2 =
      some pair → C.Belongs pair.publicKey pair.privateKey)
    (hclient : isEmpty env.clientId = false) (u : ClientUpload C env draws pem) (load : Load)
    (hroom : load.queueSize < queueCapacity load.capacity) (hread : load.readFails = false)
    (hfault : u.file.fault = none) (gunzip : Bytes → Option InputStream)
    (hgunzip : gunzip u.file.bytes = some ⟨encode (u.entries.map Entry.wire), false⟩)
    (sv : Services) (hciphers : sv.ciphers = R.ciphers) (fileMeta : WeedFSMeta)
    (hcreate : u.properties.create sv.parseDate = .ok (some fileMeta)) (d : Disk) :
    ∃ d', (uploadLogFile R env load draws
        (some (signed C u.sdkVersion u.key u.signature u.content)) u.file
        (after serverProperties clients (p ++ .getKeyPair env.clientId :: q)) d).2 =
          (d', .submit u.properties) ∧
      d'.files = Function.update d.files u.properties.cacheFilePath (some u.file.bytes) ∧
      ∀ t, TaskOf gunzip u.properties d' t → t.senderCreated = true →
        (t.properties.level = VERBOSE ∨ ∀ i < u.entries.length, t.graylogThrows i = false) →
        (∀ i < u.entries.length, t.lineFails i = false) → t.releaseFails = none →
          (LogFileParseTask.run sv t).writes =
            [(fileMeta, some (u.entries.map fun e => line sv (logMessage sv t e.record)))] := by
  have hsecurity := genProperties_security u.genProperties_settings
  have hwork := (genProperties_spec u.genProperties_settings).1
  have hopen := decrypt_later (R := R) htoken hbelongs hclient u.rsaEncrypts q
  have hupload : (uploadLogFile R env load draws
      (some (signed C u.sdkVersion u.key u.signature u.content)) u.file
      (after serverProperties clients (p ++ .getKeyPair env.clientId :: q)) d).2 =
        v1UploadLogFile env load (some u.properties) u.file d :=
    uploadLogFile_signed d u.sdkVersion_ne (C.rsaEncrypts_ne _ _ _ u.rsaEncrypts) u.key_length
      u.content_ne hopen u.readValue_content u.genProperties_settings
  obtain ⟨hanswer, hfiles⟩ := v1UploadLogFile_accepted d hroom hfault hread u.fileSum hwork
  refine ⟨(v1UploadLogFile env load (some u.properties) u.file d).1, ?_, hfiles,
    fun t ht hcreated hgraylog hlines hrelease => ?_⟩
  · rw [hupload]
    exact Prod.ext rfl hanswer
  · have hstream : t.stream = ⟨encode (u.entries.map Entry.wire), false⟩ := by
      have hfile := ht.stream
      rw [hfiles, Function.update_self, Option.bind_some, hgunzip] at hfile
      exact (Option.some_inj.mp hfile).symm
    obtain ⟨hdecodes, hentries⟩ : Decodes sv t ∧
        lines sv t = u.entries.map fun e => line sv (logMessage sv t e.record) :=
      lines_entries hciphers u.key_length (by rw [ht.properties]; exact u.compatible)
        (by rw [ht.properties]; exact hsecurity) u.entries hstream
    have hlength : (records sv.ciphers (mode t) t.stream).length = u.entries.length := by
      have hmap := congrArg List.length hentries
      rwa [lines, List.length_map, List.length_map] at hmap
    have hcomplete : Complete sv t := by
      refine ⟨hcreated, fun i hi => ?_, fun i hi => hlines i (hlength ▸ hi), fun k hk => ?_⟩
      · rcases hgraylog with hlevel | hgraylog
        · simp [quiet, hcreated, hlevel]
        · simp [quiet, hcreated, hgraylog i (hlength ▸ hi)]
      · rw [hrelease] at hk
        cases hk
    have hcreate' : t.properties.create sv.parseDate = .ok (some fileMeta) := by
      rw [ht.properties]
      exact hcreate
    rw [writes_of_complete ht.gzipFails hrelease hdecodes hcomplete hcreate', hentries]

/-! ### A client that is deleted -/

/-- Whole blocks, each byte behind the text telling how many there are. -/
def pad (bytes : Bytes) : Bytes :=
  bytes ++ List.replicate (16 - bytes.length % 16) (.ofNat (16 - bytes.length % 16))

def unpad (bytes : Bytes) : Bytes :=
  bytes.take (bytes.length - (bytes.getLast?.getD 0).toNat)

lemma unpad_pad (bytes : Bytes) : unpad (pad bytes) = bytes := by
  have hn : 16 - bytes.length % 16 ≠ 0 := by omega
  obtain ⟨n, hn⟩ := Nat.exists_eq_succ_of_ne_zero hn
  have hlast : (pad bytes).getLast? = some (.ofNat (n + 1)) := by
    rw [pad, hn, List.replicate_succ', ← List.append_assoc, List.getLast?_concat]
  have hlt : n + 1 < 256 := by omega
  rw [unpad, hlast, Option.getD_some, UInt8.toNat_ofNat', Nat.mod_eq_of_lt hlt]
  have hlen : (pad bytes).length - (n + 1) = bytes.length := by
    rw [pad, hn, List.length_append, List.length_replicate]
    omega
  rw [hlen, pad, List.take_left]

/-- Texts that are padded and not encrypted, bytes that are written as characters, and keys that
are numbers. -/
def tokenSecurity : Security := { plainSecurity with pem := fun _ => some "PEM" }

def plainDecoders : Decoders tokenSecurity where
  ciphers :=
    { cbc := fun _ _ => none
      ecb := fun _ data => (utf8Decode (unpad data)).map String.ofList }
  decodeBase64 s := s.toList.map fun ch => UInt8.ofNat ch.toNat
  rsaDecrypt
    | 0 :: bytes, _ => some bytes
    | _, _ => none
  readValue _ := some [.uid (some "uid"), .appId (some "app"), .loggerName (some "logger"),
    .fileSum (some "D4C09BF989EF61B83EDA9693F6474103"), .platform 1, .level 2]

lemma toNat_ofNat_byte (b : UInt8) : UInt8.ofNat (Char.ofNat b.toNat).toNat = b := by
  have hlt := b.toNat_lt
  have hvalid : Nat.isValidChar b.toNat := .inl (by omega)
  have hchar : (Char.ofNat b.toNat).toNat = b.toNat := by
    rw [Char.ofNat, dif_pos hvalid]
    rfl
  rw [hchar, UInt8.ofNat_toNat]

def plainEncoders : Encoders plainDecoders where
  encodeBase64 bytes := .ofList (bytes.map fun b => Char.ofNat b.toNat)
  RsaEncrypts _ bytes out := out = 0 :: bytes
  aesEncrypt _ s := pad (utf8 s.toList)
  Belongs _ _ := True
  decode_encode bytes := by
    simp [plainDecoders, Function.comp_def, toNat_ofNat_byte]
  encode_ne bytes h heq := by
    have hnil := congrArg String.toList heq
    simp [h] at hnil
  rsaEncrypts_ne _ _ out h := by
    rw [h]
    exact List.cons_ne_nil _ _
  rsaDecrypt_of _ _ _ bytes out _ _ h := by
    rw [h]
    rfl
  aes_blocks _ s := by
    refine ⟨(utf8 s.toList).length / 16, ?_⟩
    rw [pad, List.length_append, List.length_replicate]
    omega
  ecb_aesEncrypt _ s _ := by
    simp [plainDecoders, unpad_pad, utf8Decode_utf8]

def zeroKey : Bytes := List.replicate 16 0

/-- An entry with the texts `a` and `b`. -/
def plainEntry : Entry plainEncoders zeroKey where
  timestamp := 7
  tag := "a"
  msg := "b"
  layoutId := 1
  attachmentId := none
  timestamp_ge := by decide
  timestamp_lt := by decide
  tag_plain := by decide
  tag_le := by decide +kernel
  msg_plain := by decide
  msg_le := by decide +kernel
  layoutId_ge := by decide
  layoutId_lt := by decide
  attachmentId_bounds := by simp

def clientEnv : Env :=
  { plainEnv with
    library := { plainLibrary with md5HexBytes := fun _ => "d4c09bf989ef61b83eda9693f6474103" } }

def plainDraws : Draws :=
  ⟨sameDigit '0' zero_mem_hexDigits, sameDigit '0' zero_mem_hexDigits⟩

def plainUpload : ClientUpload plainEncoders clientEnv plainDraws "PEM" where
  sdkVersion := "1"
  key := zeroKey
  signature := 0 :: zeroKey
  content := "\x7b\x7d"
  settings := [.uid (some "uid"), .appId (some "app"), .loggerName (some "logger"),
    .fileSum (some "D4C09BF989EF61B83EDA9693F6474103"), .platform 1, .level 2]
  properties :=
    { LogFileProperties.new plainDraws.key with
      platform := 1
      clientId := some "client"
      uid := some "uid"
      appId := some "app"
      level := 2
      loggerName := some "logger"
      filename := some plainDraws.filename.val
      fileSum := some "D4C09BF989EF61B83EDA9693F6474103"
      workPath := some "/data"
      originalFilename := some "logger-20160101-debug-1.bin"
      security := some zeroKey }
  entries := [plainEntry]
  file := ⟨some "logger-20160101-debug-1.bin", plainEntry.wire.bytes, none⟩
  sdkVersion_ne := by decide
  key_length := by decide
  rsaEncrypts := rfl
  content_ne := by decide
  readValue_content := rfl
  genProperties_settings := rfl
  compatible := rfl
  fileSum := ⟨_, rfl, by decide⟩

/-- The client is deleted between its token and its upload, and in its task nothing fails. -/
theorem published_of_token_deleted :
    ∃ d' fileMeta, (uploadLogFile plainDecoders clientEnv ⟨0, 10, false, false⟩ plainDraws
        (some (signed plainEncoders "1" zeroKey (0 :: zeroKey) "\x7b\x7d")) plainUpload.file
        (after ⟨0, 0⟩ .empty [.createApp "app" "client" "s" ⟨(1 : ℕ), (2 : ℕ)⟩,
          .getKeyPair (some "client"), .deleteApp 1]) ⟨fun _ => true, fun _ => none⟩).2 =
          (d', .submit plainUpload.properties) ∧
      (LogFileParseTask.run
        { LogFileParseTask.plainServices with ciphers := plainDecoders.ciphers }
        { LogFileParseTask.oneRecordTask plainUpload.properties with
          stream := ⟨plainUpload.file.bytes, false⟩ }).writes =
          [(fileMeta, some ["1970-01-01 00:00:00.007 [a]: b"])] := by
  obtain ⟨d', hanswer, hfiles, hwrites⟩ := published_of_token plainEncoders ⟨0, 0⟩ .empty
    [.createApp "app" "client" "s" ⟨(1 : ℕ), (2 : ℕ)⟩] [.deleteApp 1] clientEnv plainDraws "PEM"
    (by decide) (fun _ _ => trivial) rfl plainUpload ⟨0, 10, false, false⟩ (by decide) rfl rfl
    (fun bytes => some ⟨bytes, false⟩) rfl
    { LogFileParseTask.plainServices with ciphers := plainDecoders.ciphers } rfl _ rfl
    ⟨fun _ => true, fun _ => none⟩
  refine ⟨d', _, hanswer, hwrites _ ⟨rfl, ?_, rfl⟩ rfl (.inr fun _ _ => rfl) (fun _ _ => rfl) rfl⟩
  rw [hfiles, Function.update_self]
  rfl

end Logful.SignedUploads
