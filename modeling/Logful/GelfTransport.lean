import Logful.GraylogRetry
import Logful.Runs
import Mathlib.Data.Multiset.AddSub

/-!
The connection to Graylog: `GraylogClientService.create` and `write`, the handlers of
`GelfTcpTransport` and the loop of `GelfSenderThread`.

A bootstrap makes one connect attempt, and the sender thread that goes with its channel. The
constructor of the transport makes the first one, before `create` installs the listener. The
handlers and the sender threads take one statement at a time, in any order among them.
-/

namespace Logful.GelfTransport

open Logful.Documents Logful.Entity Logful.GlobalReference Logful.GraylogClientService Logful.Runs
open Logful.StringUtil

variable {Double : Type}

/-! ### The state -/

/-- The next statement of `channelActive`. -/
inductive OnActive
  | start | look | connected | returned
  deriving DecidableEq

/-- The next statement of `channelInactive`, where `stop` is two. -/
inductive OnInactive
  | setKeepRunning | interrupt | look | disconnected | scheduleReconnect | returned
  deriving DecidableEq

/-- How far the channel of a bootstrap has come, with its handler. -/
inductive Channel
  | connecting
  | failed
  | active (next : OnActive)
  | inactive (next : OnInactive)
  deriving DecidableEq

def Channel.isActive : Channel → Bool
  | .active _ => true
  | _ => false

/-- Where a sender thread is: before its loop, at the test of it, at the test of the loop that
waits for the channel and in the wait, at the three statements on a message, and after. -/
inductive Point
  | notStarted | loop | wait | await | poll | check | write | ended | crashed
  deriving DecidableEq

/-- A `GelfSenderThread`, with the message it holds. -/
structure Sender (Double : Type) where
  point : Point
  gelfMessage : Option (GelfMessage Double)
  keepRunning : Bool
  interrupted : Bool

def Sender.new : Sender Double := ⟨.notStarted, none, true, false⟩

/-- What `createBootstrap` makes. -/
structure Bootstrap (Double : Type) where
  channel : Channel
  sender : Sender Double

/-- What has become of the messages so far: those that were created, those that were written
to a channel that was active, and those whose log message was saved, with its id. -/
structure History (Double : Type) where
  created : List (GelfMessage Double)
  written : List (GelfMessage Double)
  saved : List (ObjectId × GelfMessage Double)

/-- The service and its transport: whether the listener is installed, the bootstraps, the
oldest first, how many reconnects are scheduled, and the calls of `write` that have found the
service connected and are not done. -/
structure State (Double : Type) where
  service : Service Double
  listener : Bool
  bootstraps : List (Bootstrap Double)
  scheduled : ℕ
  calls : List (Entity ObjectId LogMessage)
  history : History Double

/-- The part of `ServerProperties` that is read. -/
structure ServerProperties where
  graylogHost : Option String
  graylogPort : ℤ
  queueCapacity : ℤ

/-! ### The transport -/

def createBootstrap (s : State Double) : State Double :=
  { s with bootstraps := s.bootstraps ++ [⟨.connecting, .new⟩] }

def scheduleReconnect (s : State Double) : State Double := { s with scheduled := s.scheduled + 1 }

/-- `create` up to `setListener`, or the message of its exception. -/
def create (p : ServerProperties) (layouts : LayoutCache)
    (messages : Collection ObjectId LogMessage) : Except (Option String) (State Double) :=
  if isEmpty p.graylogHost then .error (some "Graylog host can not be null!")
  else if p.graylogPort ≤ 0 ∨ p.graylogPort ≥ 65536 then .error (some "Graylog port Not valid!")
  else if p.queueCapacity ≤ 0 then .error none
  else .ok (createBootstrap ⟨⟨false, layouts, [], messages⟩, false, [], 0, [], ⟨[], [], []⟩⟩)

/-- `setConnected` of the flag of the service. -/
def State.setConnected (s : State Double) (connected : Bool) : State Double :=
  { s with service := { s.service with connected := connected } }

def Bootstrap.setChannel (b : Bootstrap Double) (channel : Channel) : Bootstrap Double :=
  { b with channel := channel }

/-- The next statement of the handler that is running, if one is. -/
def handle (s : State Double) (b : Bootstrap Double) : Option (State Double × Bootstrap Double) :=
  match b.channel with
  | .active .start =>
    some (s, ⟨.active .look, { b.sender with keepRunning := true, point := .loop }⟩)
  | .active .look =>
    some (s, b.setChannel (.active (if s.listener then .connected else .returned)))
  | .active .connected => some (s.setConnected true, b.setChannel (.active .returned))
  | .inactive .setKeepRunning =>
    some (s, ⟨.inactive .interrupt, { b.sender with keepRunning := false }⟩)
  | .inactive .interrupt =>
    some (s, ⟨.inactive .look, { b.sender with interrupted := true }⟩)
  | .inactive .look =>
    some (s, b.setChannel (.inactive (if s.listener then .disconnected else .scheduleReconnect)))
  | .inactive .disconnected =>
    some (s.setConnected false, b.setChannel (.inactive .scheduleReconnect))
  | .inactive .scheduleReconnect =>
    some (scheduleReconnect s, b.setChannel (.inactive .returned))
  | _ => none

/-- What Netty reports of the connect attempt and the channel of a bootstrap, and a statement
of its handler. -/
inductive ChannelEvent
  | connectFailed | connectSucceeded | closed | handle
  deriving DecidableEq

def onChannel (s : State Double) (b : Bootstrap Double) :
    ChannelEvent → Option (State Double × Bootstrap Double)
  | .connectFailed =>
    if b.channel = .connecting then some (scheduleReconnect s, b.setChannel .failed) else none
  | .connectSucceeded =>
    if b.channel = .connecting then some (s, b.setChannel (.active .start)) else none
  | .closed =>
    if b.channel = .active .returned then some (s, b.setChannel (.inactive .setKeepRunning))
    else none
  | .handle => handle s b

/-! ### The sender thread -/

def Bootstrap.setPoint (b : Bootstrap Double) (point : Point) : Bootstrap Double :=
  { b with sender := { b.sender with point := point } }

/-- `failed`, which hands the log message of the message to the listener; saving null is an
exception, which ends the thread. -/
def failed (s : State Double) (b : Bootstrap Double) (gelfMessage : GelfMessage Double) :
    State Double × Bootstrap Double :=
  if s.listener then
    match gelfMessage.logMessage with
    | none => (s, b.setPoint .crashed)
    | some logMessage => ({ s with service := s.service.failed logMessage }, b.setPoint .loop)
  else (s, b.setPoint .loop)

/-- `retrySuccessful`, which the thread calls for a message that carries its log message. -/
def retrySuccessful (s : State Double) (gelfMessage : GelfMessage Double) : State Double :=
  match gelfMessage.logMessage with
  | none => s
  | some logMessage =>
    if s.listener then { s with service := s.service.retrySuccessful logMessage } else s

/-- `writeAndFlush`, which fails unseen on a channel that is not active. -/
def writeAndFlush (s : State Double) (channel : Channel) (gelfMessage : GelfMessage Double) :
    State Double :=
  if channel.isActive then
    { s with history := { s.history with written := s.history.written ++ [gelfMessage] } }
  else s

/-- The next statement of the loop of the thread. -/
def senderStep (s : State Double) (b : Bootstrap Double) :
    Option (State Double × Bootstrap Double) :=
  match b.sender.point with
  | .notStarted | .ended | .crashed => none
  | .loop => some (s, b.setPoint (if b.sender.keepRunning then .wait else .ended))
  | .wait => some (s, b.setPoint (if b.channel.isActive then .poll else .await))
  | .await =>
    -- nothing signals the condition once the thread runs, but it may wake up by itself
    if b.sender.interrupted then
      let point := if b.sender.keepRunning then .wait else .poll
      some (s, { b with sender := { b.sender with interrupted := false, point := point } })
    else some (s, b.setPoint .wait)
  | .poll =>
    match b.sender.gelfMessage, s.service.queue with
    | some _, _ => some (s, b.setPoint .check)
    | none, queue =>
      if b.sender.interrupted then
        some (s, { b with sender := { b.sender with interrupted := false, point := .loop } })
      else
        match queue with
        | [] => some (s, b.setPoint .loop)
        | gelfMessage :: queue =>
          some ({ s with service := { s.service with queue := queue } },
            { b with sender :=
                { b.sender with gelfMessage := some gelfMessage, point := .check } })
  | .check =>
    match b.sender.gelfMessage with
    | none => some (s, b.setPoint .loop)
    | some gelfMessage =>
      if b.channel.isActive then some (s, b.setPoint .write)
      else some (failed s b gelfMessage)
  | .write =>
    match b.sender.gelfMessage with
    | none => some (s, b.setPoint .loop)
    | some gelfMessage =>
      some (retrySuccessful (writeAndFlush s b.channel gelfMessage) gelfMessage,
        { b with sender := { b.sender with gelfMessage := none, point := .loop } })

/-! ### The service -/

/-- `write(LogMessage)` up to the message. -/
def write (s : State Double) (logMessage : Entity ObjectId LogMessage) : State Double :=
  if s.service.connected then { s with calls := s.calls ++ [logMessage] }
  else { s with service := { s.service with messages := s.service.messages.save logMessage } }

/-- `write(LogMessage)` from the message on, once there is room for it in the queue, or the
wait for that is interrupted. -/
def put (p : ServerProperties) (D : Doubles Double) (first : FirstEntry) (interrupted : Bool)
    (s : State Double) (logMessage : Entity ObjectId LogMessage) : Option (State Double) :=
  match createMessage D first s.service.layouts logMessage.body with
  | .error _ => some s
  | .ok (layouts, none) => some { s with service := { s.service with layouts := layouts } }
  | .ok (layouts, some gelfMessage) =>
    if interrupted then
      let messages := s.service.messages.save logMessage
      let id := s.service.messages.idFor logMessage
      some { s with
        service := { s.service with layouts := layouts, messages := messages }
        history := { s.history with
          created := s.history.created ++ [gelfMessage]
          saved := s.history.saved ++ [(id, gelfMessage)] } }
    else if s.service.queue.length < p.queueCapacity then
      some { s with
        service := { s.service with layouts := layouts, queue := s.service.queue ++ [gelfMessage] }
        history := { s.history with created := s.history.created ++ [gelfMessage] } }
    else none

/-! ### The events -/

inductive Event
  | setListener
  | write (logMessage : Entity ObjectId LogMessage)
  | put (j : ℕ) (interrupted : Bool)
  | channel (i : ℕ) (e : ChannelEvent)
  | sender (i : ℕ)
  | reconnect

/-- The state after something has been done at a bootstrap. -/
def State.setBootstrap (i : ℕ) (r : State Double × Bootstrap Double) : State Double :=
  { r.1 with bootstraps := r.1.bootstraps.set i r.2 }

def step (p : ServerProperties) (D : Doubles Double) (first : FirstEntry) (s : State Double) :
    Event → Option (State Double)
  | .setListener => if s.listener then none else some { s with listener := true }
  | .write logMessage => some (write s logMessage)
  | .put j interrupted =>
    match s.calls[j]? with
    | none => none
    | some logMessage =>
      put p D first interrupted { s with calls := s.calls.eraseIdx j } logMessage
  | .channel i e =>
    match s.bootstraps[i]? with
    | none => none
    | some b => (onChannel s b e).map (State.setBootstrap i)
  | .sender i =>
    match s.bootstraps[i]? with
    | none => none
    | some b => (senderStep s b).map (State.setBootstrap i)
  | .reconnect =>
    match s.scheduled with
    | 0 => none
    | n + 1 => some (createBootstrap { s with scheduled := n })

/-! ### What a step leaves as it was -/

variable {p : ServerProperties} {D : Doubles Double} {first : FirstEntry} {s t : State Double}
variable {b b' : Bootstrap Double} {m : Entity ObjectId LogMessage} {interrupted : Bool} {i : ℕ}

/-- A call that is not interleaved with anything is the `write` of the service. -/
theorem put_write (hs : s.service.connected = true)
    (hroom : (s.service.queue.length : ℤ) < p.queueCapacity) :
    (put p D first interrupted s m).map State.service =
      some (s.service.write D first interrupted none m).1 := by
  unfold put Service.write
  rw [if_pos hs]
  rcases createMessage D first s.service.layouts m.body with e | ⟨layouts, _ | g⟩
  · rfl
  · rfl
  · cases interrupted <;> simp [hroom, Service.save]

/-- What the connection is made of: whether the listener is installed and what it has set, the
reconnects and the channels. -/
structure Line where
  listener : Bool
  connected : Bool
  scheduled : ℕ
  channels : List Channel

def State.line (s : State Double) : Line :=
  ⟨s.listener, s.service.connected, s.scheduled, s.bootstraps.map Bootstrap.channel⟩

lemma write_line : (write s m).line = s.line := by
  unfold write
  split_ifs <;> rfl

lemma put_line (h : put p D first interrupted s m = some t) : t.line = s.line := by
  unfold put at h
  split at h
  · cases h
    rfl
  · cases h
    rfl
  · split_ifs at h
    · cases h
      rfl
    · cases h
      rfl

lemma failed_line (g : GelfMessage Double) : (failed s b g).1.line = s.line ∧
    (failed s b g).1.bootstraps = s.bootstraps ∧ (failed s b g).2.channel = b.channel := by
  unfold failed
  split_ifs
  · cases g.logMessage <;> exact ⟨rfl, rfl, rfl⟩
  · exact ⟨rfl, rfl, rfl⟩

lemma retrySuccessful_line (g : GelfMessage Double) : (retrySuccessful s g).line = s.line ∧
    (retrySuccessful s g).bootstraps = s.bootstraps := by
  unfold retrySuccessful
  cases g.logMessage with
  | none => exact ⟨rfl, rfl⟩
  | some m =>
    simp only
    split_ifs
    · unfold Service.retrySuccessful
      cases m.id <;> exact ⟨rfl, rfl⟩
    · exact ⟨rfl, rfl⟩

lemma writeAndFlush_line (c : Channel) (g : GelfMessage Double) :
    (writeAndFlush s c g).line = s.line ∧ (writeAndFlush s c g).bootstraps = s.bootstraps := by
  unfold writeAndFlush
  split_ifs <;> exact ⟨rfl, rfl⟩

/-- A sender thread leaves the connection alone. -/
lemma senderStep_line (h : senderStep s b = some (t, b')) :
    t.line = s.line ∧ t.bootstraps = s.bootstraps ∧ b'.channel = b.channel := by
  unfold senderStep at h
  cases hp : b.sender.point with
  | notStarted | ended | crashed => simp [hp] at h
  | loop | wait =>
    simp only [hp] at h
    cases h
    exact ⟨rfl, rfl, rfl⟩
  | await =>
    simp only [hp] at h
    split_ifs at h <;> cases h <;> exact ⟨rfl, rfl, rfl⟩
  | poll =>
    simp only [hp] at h
    split at h
    · cases h
      exact ⟨rfl, rfl, rfl⟩
    · split_ifs at h
      · cases h
        exact ⟨rfl, rfl, rfl⟩
      · split at h <;> cases h <;> exact ⟨rfl, rfl, rfl⟩
  | check =>
    simp only [hp] at h
    split at h
    · cases h
      exact ⟨rfl, rfl, rfl⟩
    · next g hg =>
      split_ifs at h
      · cases h
        exact ⟨rfl, rfl, rfl⟩
      · obtain ⟨rfl, rfl⟩ := Prod.mk.inj (Option.some_inj.mp h)
        exact failed_line g
  | write =>
    simp only [hp] at h
    split at h
    · cases h
      exact ⟨rfl, rfl, rfl⟩
    · next g hg =>
      obtain ⟨rfl, rfl⟩ := Prod.mk.inj (Option.some_inj.mp h)
      have hretry := retrySuccessful_line (s := writeAndFlush s b.channel g) g
      have hwrite := writeAndFlush_line (s := s) b.channel g
      exact ⟨hretry.1.trans hwrite.1, hretry.2.trans hwrite.2, rfl⟩

lemma setBootstrap_line (hi : s.bootstraps[i]? = some b) (h : senderStep s b = some (t, b')) :
    (State.setBootstrap i (t, b')).line = s.line := by
  obtain ⟨hline, hboots, hchannel⟩ := senderStep_line h
  have hset : (s.bootstraps.map Bootstrap.channel).set i b.channel =
      s.bootstraps.map Bootstrap.channel := by
    have hchannel : (s.bootstraps.map Bootstrap.channel)[i]? = some b.channel := by
      rw [List.getElem?_map, hi]
      rfl
    obtain ⟨hlt, hb⟩ := List.getElem?_eq_some_iff.mp hchannel
    rw [← hb, List.set_getElem_self]
  rw [← hline]
  simp [State.line, State.setBootstrap, List.map_set, hboots, hchannel, hset]

/-- A step at a bootstrap, whichever of its two threads takes it. -/
lemma step_channel_cases {e : ChannelEvent} (h : step p D first s (.channel i e) = some t) :
    ∃ b u b', s.bootstraps[i]? = some b ∧ onChannel s b e = some (u, b') ∧
      t = State.setBootstrap i (u, b') := by
  simp only [step] at h
  cases hi : s.bootstraps[i]? with
  | none => simp [hi] at h
  | some b =>
    simp only [hi] at h
    obtain ⟨⟨u, b'⟩, hb, rfl⟩ := Option.map_eq_some_iff.mp h
    exact ⟨b, u, b', rfl, hb, rfl⟩

lemma step_sender_cases (h : step p D first s (.sender i) = some t) :
    ∃ b u b', s.bootstraps[i]? = some b ∧ senderStep s b = some (u, b') ∧
      t = State.setBootstrap i (u, b') := by
  simp only [step] at h
  cases hi : s.bootstraps[i]? with
  | none => simp [hi] at h
  | some b =>
    simp only [hi] at h
    obtain ⟨⟨u, b'⟩, hb, rfl⟩ := Option.map_eq_some_iff.mp h
    exact ⟨b, u, b', rfl, hb, rfl⟩

lemma step_put_cases {j : ℕ} (h : step p D first s (.put j interrupted) = some t) :
    ∃ m, s.calls[j]? = some m ∧
      put p D first interrupted { s with calls := s.calls.eraseIdx j } m = some t := by
  simp only [step] at h
  cases hj : s.calls[j]? with
  | none => simp [hj] at h
  | some m =>
    simp only [hj] at h
    exact ⟨m, rfl, h⟩

lemma step_reconnect_cases (h : step p D first s .reconnect = some t) :
    ∃ n, s.scheduled = n + 1 ∧ t = createBootstrap { s with scheduled := n } := by
  simp only [step] at h
  cases hn : s.scheduled with
  | zero => simp [hn] at h
  | succ n =>
    simp only [hn] at h
    cases h
    exact ⟨n, rfl, rfl⟩

/-- The channels as they are indexed by the bootstraps. -/
lemma getElem?_channels (hi : s.bootstraps[i]? = some b) :
    s.line.channels[i]? = some b.channel := by
  rw [State.line, List.getElem?_map, hi]
  rfl

/-- A sender thread at the head of its loop, with nothing to stop it. -/
def Sender.ready : Sender Double := ⟨.loop, none, true, false⟩

/-- **A turn of the loop.** On a channel that stays active, what the thread does with the next
message is what the retry counts on. -/
theorem run_senderTurn {next : OnActive} (hi : s.bootstraps[i]? = some ⟨.active next, .ready⟩)
    (hl : s.listener = true) (hq : s.service.queue ≠ []) :
    (run (step p D first) s (List.replicate 5 (.sender i))).map
        (fun t => (⟨t.service, t.history.written⟩ : GraylogRetry.State Double)) =
      some (GraylogRetry.senderTurn ⟨s.service, s.history.written⟩) := by
  obtain ⟨g, queue, hqueue⟩ := List.exists_cons_of_ne_nil hq
  have hlt : i < s.bootstraps.length := (List.getElem?_eq_some_iff.mp hi).1
  have hset : ∀ b : Bootstrap Double, (s.bootstraps.set i b)[i]? = some b := fun b => by
    rw [List.getElem?_set_self hlt]
  simp only [List.replicate, run_cons, run_nil, step, hi, senderStep, Sender.ready,
    Bootstrap.setPoint, State.setBootstrap, Option.map_some, Option.bind_some, if_true, hset,
    Channel.isActive, List.set_set, hqueue, if_false, Bool.false_eq_true]
  unfold retrySuccessful writeAndFlush GraylogRetry.senderTurn
  simp only [hqueue, Channel.isActive, if_true, hl]
  cases g.logMessage <;> rfl

/-- A server at the default port, with room for some messages. -/
def localGraylog : ServerProperties := ⟨some "127.0.0.1", 12201, 512⟩

end Logful.GelfTransport
