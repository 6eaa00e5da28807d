import Logful.Entity
import Logful.Paths
import Logful.Runs

/-!
`WeedFSClientService`, with the threads that write to the file store and read its responses,
and the retry of the records that were written while there was no connection.

Every connection has a writer and a reader of its own; the two queues and the map of metadata
are shared by all of them, and by the callers of `write`: a route, the task of an upload, or a
tick of the retry. A step of a caller reads a flag, or fills the queue, or the map. A file of the
weed directory goes by its name. The metadata of a queued record is a value here: the fid that
the reader sets on the object in the map is not seen in the queue, where nothing reads it.

The state has a history, which only statements about it read.
-/

namespace Logful.WeedFSClientService

open Logful.Documents Logful.Entity Logful.Paths Logful.StringUtil

/-! ### The state -/

/-- A record, or a response, as the threads pass it on. -/
abbrev Item := Entity ObjectId WeedFSMeta

abbrev Disk := String → Option (List UInt8)

/-- A file as it is posted. -/
structure Request where
  filename : String
  content : List UInt8
  deriving DecidableEq

/-- How far a channel, and `channelInactive`, have come. The writer runs until it is stopped,
and is interrupted then; after it the reader. -/
inductive Stage
  | active | inactive | disconnected | writerStopped | writerInterrupted | readerStopped
  | readerInterrupted
  deriving DecidableEq

def Stage.writerRunning : Stage → Bool
  | .active | .inactive | .disconnected => true
  | _ => false

def Stage.readerRunning : Stage → Bool
  | .readerStopped | .readerInterrupted => false
  | _ => true

/-- Where the writer thread is: before the test of its loop, the wait for the channel, the
poll, the second look at the channel, the sending; or behind the loop. -/
inductive WriterPoint
  | test | await | poll | check | send | done
  deriving DecidableEq

structure Writer where
  interrupted : Bool
  point : WriterPoint
  weedFSMeta : Option Item
  deriving DecidableEq

inductive ReaderPoint
  | test | poll | done
  deriving DecidableEq

structure Reader where
  interrupted : Bool
  point : ReaderPoint
  deriving DecidableEq

/-- A connection; the requests that were sent on it and are not answered, the oldest first. -/
structure Connection where
  stage : Stage
  unanswered : List Request
  writer : Writer
  reader : Reader
  deriving DecidableEq

def Connection.active (c : Connection) : Bool := c.stage = .active

/-- The repositories of metadata, and the messages handed to Graylog. -/
structure Repositories where
  logs : Collection ObjectId LogFileMeta
  attachments : Collection ObjectId AttachFileMeta
  crashes : Collection ObjectId CrashFileMeta
  notices : List LogMessage

/-- Where a caller is: a tick before its records are found; in `write`, before it reads one of
the flags, or before it puts the record into the queue, puts it into the map, deletes its file or
saves it. Between two calls it is before the first flag. -/
inductive CallPoint
  | isConnected | find | connected | serverError | queue | map | delete | save
  deriving DecidableEq

/-- A caller of `write`, with the records that it still has to write. The first one is that of the
call which is under way. -/
structure Caller where
  point : CallPoint
  weedFSMetaList : List Item
  deriving DecidableEq

/-- What has happened: the records that were written for the first time, now or by an earlier
process that left them in the queue; those that were given to `write` with their file in the
directory; the files that were answered by success, and those whose response was handled; and the
metadata as it was saved, with the file of the response it was saved for. -/
structure History where
  written : List WeedFSMeta
  given : List WeedFSMeta
  stored : List String
  handled : List String
  saved : List (String × FileMeta)

structure State where
  connected : Bool
  serverError : Bool
  writeQueue : List Item
  readQueue : List Item
  weedMetaMap : String → Option Item
  queueRepository : Collection ObjectId WeedFSMeta
  repositories : Repositories
  disk : Disk
  callers : List Caller
  connections : List Connection
  history : History

/-! ### WeedFSClientService.write and ScheduledTasks.retryPutQueue -/

/-- The history of a call of `write`. -/
def noted (weedFSMeta : Item) (s : State) : State :=
  if (s.disk weedFSMeta.body.filename).isSome then
    { s with history.given := s.history.given ++ [weedFSMeta.body] }
  else s

def PAGE_LIMIT : ℕ := 2048

def findAllNotWriteLimit (c : Collection ObjectId WeedFSMeta) (limit : ℕ) :
    List (Document ObjectId WeedFSMeta) :=
  c.findLimit (fun m => m.status = .STATE_NORMAL) limit

/-- A tick, up to its look at the connection. -/
def retryPutQueue (s : State) : State :=
  { s with serverError := false, callers := s.callers ++ [⟨.isConnected, []⟩] }

/-- A step of a caller, or nothing while the queue is full; `saveFails` says that the save of the
record throws. What `write` throws leaves the loop of a tick; it also throws for a record without
a key, when the map is to be filled. -/
def callerStep (capacity : ℕ) (saveFails : Bool) (c : Caller) (s : State) :
    Option (State × Caller) :=
  match c.point, c.weedFSMetaList with
  | .isConnected, _ => some (s, ⟨if s.connected then .find else .connected, []⟩)
  | .find, _ =>
    let list := findAllNotWriteLimit s.queueRepository PAGE_LIMIT
    some (s, ⟨.connected, list.map Document.entity⟩)
  | _, [] => none
  | .connected, weedFSMeta :: list =>
    some (noted weedFSMeta s, ⟨if s.connected then .serverError else .save, weedFSMeta :: list⟩)
  | .serverError, weedFSMeta :: list =>
    some (s, ⟨if s.serverError then .delete else .queue, weedFSMeta :: list⟩)
  | .queue, weedFSMeta :: list =>
    if s.writeQueue.length < capacity then
      some ({ s with writeQueue := s.writeQueue ++ [weedFSMeta] }, ⟨.map, weedFSMeta :: list⟩)
    else none
  | .map, weedFSMeta :: list =>
    match weedFSMeta.body.key with
    | none => some (s, ⟨.connected, []⟩)
    | some key =>
      some ({ s with weedMetaMap := Function.update s.weedMetaMap key weedFSMeta },
        ⟨.connected, list⟩)
  | .delete, weedFSMeta :: list =>
    some ({ s with disk := Function.update s.disk weedFSMeta.body.filename none },
      ⟨.connected, list⟩)
  | .save, weedFSMeta :: list =>
    if saveFails then some (s, ⟨.connected, []⟩)
    else some ({ s with queueRepository := s.queueRepository.save weedFSMeta }, ⟨.connected, list⟩)

/-! ### The writer thread -/

def Connection.writerAt (c : Connection) (point : WriterPoint) : Connection :=
  { c with writer.point := point }

/-- A step of the writer thread, or nothing while it waits. -/
def writerStep (c : Connection) (s : State) : Option (State × Connection) :=
  match c.writer.point with
  | .test => some (s, c.writerAt (if c.stage.writerRunning then .await else .done))
  | .await =>
    if c.active then some (s, c.writerAt .poll)
    else if c.writer.interrupted then
      -- the exception clears the flag, and a thread that is stopped leaves the wait
      let point : WriterPoint := if c.stage.writerRunning then .await else .poll
      some (s, { c with writer := { c.writer with interrupted := false, point := point } })
    else none
  | .poll =>
    match c.writer.weedFSMeta with
    | some _ => some (s, c.writerAt .check)
    | none =>
      if c.writer.interrupted then
        some (s, { c with writer := { c.writer with interrupted := false, point := .test } })
      else
        match s.writeQueue with
        | [] => some (s, c.writerAt .check)
        | weedFSMeta :: queue =>
          some ({ s with writeQueue := queue },
            { c with writer := ⟨false, .check, some weedFSMeta⟩ })
  | .check =>
    some (s, c.writerAt (if c.writer.weedFSMeta.isSome && c.active then .send else .test))
  | .send =>
    match c.writer.weedFSMeta with
    | none => none
    | some weedFSMeta =>
      let filename := weedFSMeta.body.filename
      let c := { c with writer := { c.writer with point := .test, weedFSMeta := none } }
      match s.disk filename with
      | some content =>
        let request := ⟨getName filename, content⟩
        some (s, { c with unanswered := c.unanswered ++ [request] })
      | none =>
        match weedFSMeta.id with
        | some _ =>
          let weedFSMeta :=
            { weedFSMeta with body := { weedFSMeta.body with status := .STATE_DELETED } }
          some ({ s with queueRepository := s.queueRepository.save weedFSMeta }, c)
        | none => some (s, c)
  | .done => none

/-- The sending throws, when the file is read or the record is saved as deleted. The exception is
ignored, and the record let go. -/
def writerFails (c : Connection) (s : State) : Option (State × Connection) :=
  match c.writer.point, c.writer.weedFSMeta with
  | .send, some weedFSMeta =>
    if (s.disk weedFSMeta.body.filename).isSome || weedFSMeta.id.isSome then
      some (s, { c with writer := { c.writer with point := .test, weedFSMeta := none } })
    else none
  | _, _ => none

/-! ### The reader thread -/

/-- The metadata with its fid and size set. -/
def setFid (fid : String) (size : ℤ) : FileMeta → FileMeta
  | .log fileMeta => .log { fileMeta with fid := some fid, size := size }
  | .attachment fileMeta => .attachment { fileMeta with fid := some fid, size := size }
  | .crash e => .crash { e with body := { e.body with fid := some fid, size := size } }

/-- The metadata saved in the repository of its type, with the id it has then if it keeps
one. -/
def Repositories.save (r : Repositories) : FileMeta → Repositories × FileMeta
  | .log fileMeta => ({ r with logs := r.logs.save ⟨none, fileMeta⟩ }, .log fileMeta)
  | .attachment fileMeta =>
    ({ r with attachments := r.attachments.save ⟨none, fileMeta⟩ }, .attachment fileMeta)
  | .crash e =>
    ({ r with crashes := r.crashes.save e }, .crash { e with id := some (r.crashes.idFor e) })

/-- What Graylog is told about saved metadata; building the message may throw. -/
def notice : FileMeta → Option (List LogMessage)
  | .crash e => (LogMessage.createCrash (e.id.map fun id => toString id) e.body).map ([·])
  | _ => some []

/-- The entry of the map, when its metadata was changed. -/
def withFileMeta (entry : Item) (fileMeta : FileMeta) : Item :=
  { entry with body := { entry.body with fileMeta := some fileMeta } }

/-- The calls of the handling that may fail. -/
inductive Fault
  | save | send
  deriving DecidableEq

/-- What is done with the entry of the map: the metadata saved with the fid, Graylog told of
a crash report, and the entry removed; and whether something throws before that. -/
def saveFid (fault : Option Fault) (fid filename : String) (size : ℤ) (key : String)
    (entry : Item) (s : State) : State × Bool :=
  let changed (fileMeta : FileMeta) : String → Option Item :=
    Function.update s.weedMetaMap key (some (withFileMeta entry fileMeta))
  let removed := Function.update s.weedMetaMap key none
  match entry.body.fileMeta with
  | none => ({ s with weedMetaMap := removed }, false)
  | some fileMeta =>
    let withFid := setFid fid size fileMeta
    if fault = some .save then ({ s with weedMetaMap := changed withFid }, true)
    else
      let (repositories, withId) := s.repositories.save withFid
      let s := { s with
        repositories := repositories
        history.saved := s.history.saved ++ [(filename, withFid)] }
      match notice withId with
      | none => ({ s with weedMetaMap := changed withId }, true)
      | some notices =>
        if fault = some .send && !notices.isEmpty then
          ({ s with weedMetaMap := changed withId }, true)
        else
          ({ s with
            weedMetaMap := removed
            repositories.notices := s.repositories.notices ++ notices }, false)

/-- What is done whether or not the map has an entry: the response marked as successful, if
it has an id, and the file deleted. -/
def finish (response : Item) (filename : String) (s : State) : State :=
  let s :=
    match response.id with
    | some _ =>
      let response :=
        { response with body := { response.body with status := .STATE_SUCCESSFUL } }
      { s with queueRepository := s.queueRepository.save response }
    | none => s
  { s with disk := Function.update s.disk filename none }

/-- The handling of a response. Without all of its four members nothing is done. -/
def handle (fault : Option Fault) (response : Item) (s : State) : State :=
  match response.body.responseObject with
  | some ⟨some fid, some filename, some size, some _⟩ =>
    let key := getBaseName filename
    let s := { s with history.handled := s.history.handled ++ [filename] }
    match s.weedMetaMap key with
    | none => finish response filename s
    | some entry =>
      match saveFid fault fid filename size key entry s with
      | (s, true) => s
      | (s, false) => finish response filename s
  | _ => s

def Connection.readerAt (c : Connection) (point : ReaderPoint) : Connection :=
  { c with reader.point := point }

/-- A step of the reader thread, in which a call of the handling may fail. -/
def readerStep (fault : Option Fault) (c : Connection) (s : State) :
    Option (State × Connection) :=
  match c.reader.point with
  | .test => some (s, c.readerAt (if c.stage.readerRunning then .poll else .done))
  | .poll =>
    if c.reader.interrupted then some (s, { c with reader := ⟨false, .test⟩ })
    else
      match s.readQueue with
      | [] => some (s, c.readerAt .test)
      | weedFSMeta :: queue =>
        some (handle fault weedFSMeta { s with readQueue := queue }, c.readerAt .test)
  | .done => none

/-! ### The channel -/

/-- What a response with the status 201 has in it. -/
inductive Content
  | unreadable
  | bytes (object : Option ResponseObject)
  deriving DecidableEq

/-- `channelRead0` for the status 201, blocked while the queue is full. -/
def created (capacity : ℕ) (content : Content) (c : Connection) (s : State) :
    Option (State × Connection) :=
  match c.active, c.unanswered with
  | true, request :: requests =>
    let c := { c with unanswered := requests }
    let s := { s with
      serverError := false
      history.stored := s.history.stored ++ [request.filename] }
    match content with
    | .unreadable => some (s, c)
    | .bytes object =>
      if s.readQueue.length < capacity then
        some ({ s with readQueue := s.readQueue ++ [⟨none, .createResponse object⟩] }, c)
      else none
  | _, _ => none

/-- `channelRead0` for the status 500. -/
def failed (c : Connection) (s : State) : Option (State × Connection) :=
  match c.active, c.unanswered with
  | true, _ :: requests =>
    some ({ s with serverError := true }, { c with unanswered := requests })
  | _, _ => none

def newConnection : Connection := ⟨.active, [], ⟨false, .test, none⟩, ⟨false, .test⟩⟩

/-- `channelActive` of a new connection, which is made when the one before it is given up. -/
def channelActive (s : State) : Option State :=
  if s.connections.all fun c => c.stage = .readerInterrupted then
    some { s with
      connected := true
      serverError := false
      connections := s.connections ++ [newConnection] }
  else none

/-- The channel is closed. -/
def close (c : Connection) (s : State) : Option (State × Connection) :=
  if c.active then some (s, { c with stage := .inactive }) else none

/-- The next statement of `channelInactive`. -/
def channelInactive (c : Connection) (s : State) : Option (State × Connection) :=
  match c.stage with
  | .active | .readerInterrupted => none
  | .inactive => some ({ s with connected := false }, { c with stage := .disconnected })
  | .disconnected => some (s, { c with stage := .writerStopped })
  | .writerStopped =>
    some (s, { c with stage := .writerInterrupted, writer.interrupted := true })
  | .writerInterrupted => some (s, { c with stage := .readerStopped })
  | .readerStopped =>
    some (s, { c with stage := .readerInterrupted, reader.interrupted := true })

/-! ### Steps -/

/-- The service before its first connection. -/
def start (queueRepository : Collection ObjectId WeedFSMeta) (repositories : Repositories)
    (disk : Disk) : State where
  connected := false
  serverError := false
  writeQueue := []
  readQueue := []
  weedMetaMap := fun _ => none
  queueRepository := queueRepository
  repositories := repositories
  disk := disk
  callers := []
  connections := []
  history :=
    { written := (queueRepository.docs.map Document.body).filter (·.status = .STATE_NORMAL)
      given := []
      stored := []
      handled := []
      saved := [] }

/-- What a connection does by itself. -/
inductive Action
  | writer | writerFails
  | reader (fault : Option Fault)
  | created (content : Content)
  | failed
  | close | channelInactive
  deriving DecidableEq

def act (capacity : ℕ) : Action → Connection → State → Option (State × Connection)
  | .writer => writerStep
  | .writerFails => writerFails
  | .reader fault => readerStep fault
  | .created content => created capacity content
  | .failed => failed
  | .close => close
  | .channelInactive => channelInactive

inductive Event
  | write (m : WeedFSMeta)
  | retryPutQueue
  | caller (i : ℕ) (saveFails : Bool)
  | channelActive
  | on (i : ℕ) (action : Action)
  deriving DecidableEq

/-- One step of one of the threads. -/
def step (capacity : ℕ) (s : State) : Event → Option State
  | .write m => some { s with
      callers := s.callers ++ [⟨.connected, [⟨none, m⟩]⟩]
      history.written := s.history.written ++ [m] }
  | .retryPutQueue => some (retryPutQueue s)
  | .caller i saveFails =>
    match s.callers[i]? with
    | none => none
    | some c => (callerStep capacity saveFails c s).map fun p =>
      { p.1 with callers := p.1.callers.set i p.2 }
  | .channelActive => channelActive s
  | .on i action =>
    match s.connections[i]? with
    | none => none
    | some c => (act capacity action c s).map fun p =>
      { p.1 with connections := p.1.connections.set i p.2 }

/-! ### Concrete records and files -/

def noRepositories : Repositories := ⟨.empty, .empty, .empty, []⟩

/-- An attachment that is stored under its key. -/
def attachment (key : String) : WeedFSMeta :=
  .create (some key) (some "txt") (.attachment (.create key))

/-- A record is written, and both puts are made, while there is a connection and no error. -/
def writes (i : ℕ) (m : WeedFSMeta) : List Event :=
  .write m :: List.replicate 4 (.caller i false)

/-- The channel is closed, and the writer stopped and interrupted. -/
def closed : List Event :=
  [.on 0 .close, .on 0 .channelInactive, .on 0 .channelInactive, .on 0 .channelInactive]

def twoFiles : Disk := fun name => if name ∈ ["a.txt", "b.txt"] then some [] else none

/-- The object of a response with success. -/
def storedObject (filename : String) : ResponseObject :=
  ⟨some "3,01637037d6", some filename, some 0, some "127.0.0.1:8080/3,01637037d6"⟩

end Logful.WeedFSClientService
