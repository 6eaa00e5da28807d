import Logful.Runs
import Logful.StringUtil
import Mathlib.Tactic.Common

/-!
The connection of `WeedFSClientService` to the file store: `create`, `createBootstrap`,
`operationComplete`, `reconnect` and the handlers of its channel.

A bootstrap makes one connect attempt, and the two threads that go with its channel. The
events are those of Netty, each with the whole of what the service does on it.
-/

namespace Logful.WeedFSLifeLine

open Logful.Runs Logful.StringUtil

/-! ### The state -/

/-- A `WeedFSWriteThread` or `WeedFSReadThread`: how often its thread was started, and the two
flags. -/
structure ServiceThread where
  starts : ℕ
  running : Bool
  interrupted : Bool
  deriving DecidableEq

def ServiceThread.new : ServiceThread := ⟨0, true, false⟩

def ServiceThread.start (t : ServiceThread) : ServiceThread := { t with starts := t.starts + 1 }

def ServiceThread.stop (t : ServiceThread) : ServiceThread :=
  { t with running := false, interrupted := true }

/-- How far the channel of a bootstrap has come. -/
inductive Channel
  | connecting | failed | active | inactive
  deriving DecidableEq

/-- What `createBootstrap` makes; and whether the channel has been closed from here. -/
structure Bootstrap where
  channel : Channel
  closed : Bool
  writeThread : ServiceThread
  readThread : ServiceThread
  deriving DecidableEq

/-- The part of `ServerProperties` that is read, with the syntax of `java.net.URI`. -/
structure ServerProperties where
  weedMasterHost : Option String
  weedMasterPort : ℤ
  ttl : Option String
  isURI : String → Bool

/-- The service, with its bootstraps, the oldest first, and how many reconnects are
scheduled. -/
structure State where
  connected : Bool
  serverError : Bool
  bootstraps : List Bootstrap
  scheduled : ℕ
  deriving DecidableEq

/-! ### The service -/

def newBootstrap : Bootstrap := ⟨.connecting, false, .new, .new⟩

/-- `createBootstrap`, with the text of the exception if it throws one. -/
def createBootstrap (p : ServerProperties) (s : State) : Except String State :=
  if isEmpty p.weedMasterHost then .error "Weed master host can not be null!"
  else if p.weedMasterPort ≤ 0 ∨ p.weedMasterPort ≥ 65536 then
    .error "Weed master port Not valid!"
  else
    let uri := "http://" ++ valueOf p.weedMasterHost ++ ":" ++ toString p.weedMasterPort ++
      "/submit?ttl=" ++ valueOf p.ttl
    if p.isURI uri then .ok { s with bootstraps := s.bootstraps ++ [newBootstrap] }
    else .error "Weed fs submit uri syntax error!"

/-- `create`, of a service that has no bootstrap yet. -/
def create (p : ServerProperties) : Except String State := createBootstrap p ⟨false, false, [], 0⟩

def reconnect (s : State) : State := { s with scheduled := s.scheduled + 1 }

/-- `operationComplete`, for the future of a connect attempt. -/
def operationComplete (isSuccess : Bool) (s : State) : State :=
  if isSuccess then s else reconnect s

def channelActive (b : Bootstrap) (s : State) : State × Bootstrap :=
  ({ s with connected := true, serverError := false },
    { b with writeThread := b.writeThread.start, readThread := b.readThread.start })

def channelInactive (b : Bootstrap) (s : State) : State × Bootstrap :=
  (reconnect { s with connected := false },
    { b with writeThread := b.writeThread.stop, readThread := b.readThread.stop })

/-! ### The events -/

/-- What Netty reports of the connect attempt and the channel of a bootstrap. -/
inductive ChannelEvent
  | connectFailed | connectSucceeded | inactive | exceptionCaught
  deriving DecidableEq

inductive Event
  | channel (i : ℕ) (e : ChannelEvent)
  | reconnect
  deriving DecidableEq

/-- An event at a bootstrap, if it is one that may come now. -/
def onChannel (b : Bootstrap) (s : State) : ChannelEvent → Option (State × Bootstrap)
  | .connectFailed =>
    if b.channel = .connecting then
      some (operationComplete false s, { b with channel := .failed })
    else none
  | .connectSucceeded =>
    if b.channel = .connecting ∧ !b.closed then
      some (channelActive { b with channel := .active } (operationComplete true s))
    else none
  | .inactive =>
    if b.channel = .active then some (channelInactive { b with channel := .inactive } s)
    else none
  | .exceptionCaught =>
    if b.channel = .connecting ∨ b.channel = .active then some (s, { b with closed := true })
    else none

/-- A scheduled reconnect runs once, and comes to nothing if it throws. -/
def runReconnect (p : ServerProperties) (s : State) : Option State :=
  match s.scheduled with
  | 0 => none
  | n + 1 =>
    match createBootstrap p { s with scheduled := n } with
    | .ok t => some t
    | .error _ => some { s with scheduled := n }

def step (p : ServerProperties) (s : State) : Event → Option State
  | .channel i e =>
    match s.bootstraps[i]? with
    | none => none
    | some b => (onChannel b s e).map fun r =>
      { r.1 with bootstraps := r.1.bootstraps.set i r.2 }
  | .reconnect => runReconnect p s

/-! ### One life line -/

def ServiceThread.stopped (t : ServiceThread) : Bool := !t.running && t.interrupted

/-- The thread was not started yet, or is stopped. -/
def ServiceThread.idle (t : ServiceThread) : Bool := t.starts = 0 || t.stopped

def Bootstrap.isConnecting (b : Bootstrap) : Bool := b.channel = .connecting

def Bootstrap.isActive (b : Bootstrap) : Bool := b.channel = .active

/-- The connect attempts in flight. -/
def State.attempts (s : State) : ℕ := s.bootstraps.countP Bootstrap.isConnecting

def State.activeChannels (s : State) : ℕ := s.bootstraps.countP Bootstrap.isActive

/-- There is one connect attempt, one active channel or one scheduled reconnect, and no more;
no thread is started twice, and those of an inactive channel are stopped; the service is
connected exactly while there is an active channel. -/
structure OneLife (s : State) : Prop where
  one : s.attempts + s.activeChannels + s.scheduled = 1
  started : ∀ b ∈ s.bootstraps, b.writeThread.starts ≤ 1 ∧ b.readThread.starts ≤ 1
  stopped : ∀ b ∈ s.bootstraps, b.channel = .inactive →
    b.writeThread.stopped = true ∧ b.readThread.stopped = true
  connected : s.connected = true ↔ ∃ b ∈ s.bootstraps, b.channel = .active

/-- What the channel of a bootstrap says about a thread of it. -/
def ThreadOf : Channel → ServiceThread → Prop
  | .connecting, t | .failed, t => t = .new
  | .active, t => t = ServiceThread.new.start
  | .inactive, t => t = ServiceThread.new.start.stop

structure Inv (s : State) : Prop where
  one : s.attempts + s.activeChannels + s.scheduled = 1
  threads : ∀ b ∈ s.bootstraps, ThreadOf b.channel b.writeThread ∧ ThreadOf b.channel b.readThread
  connected : s.activeChannels = s.connected.toNat

variable {p : ServerProperties} {s t : State}

lemma ThreadOf.starts_le {c : Channel} {th : ServiceThread} (h : ThreadOf c th) :
    th.starts ≤ 1 := by
  cases c <;> cases h <;> decide

lemma ThreadOf.stopped {th : ServiceThread} (h : ThreadOf .inactive th) : th.stopped = true := by
  cases h
  rfl

lemma ThreadOf.idle {c : Channel} {th : ServiceThread} (h : ThreadOf c th) (hc : c ≠ .active) :
    th.idle = true := by
  cases c with
  | active => exact absurd rfl hc
  | connecting | failed | inactive =>
    cases h
    rfl

lemma Inv.oneLife (h : Inv s) : OneLife s where
  one := h.one
  started := fun b hb => ⟨(h.threads b hb).1.starts_le, (h.threads b hb).2.starts_le⟩
  stopped := by
    intro b hb hc
    have hthreads := h.threads b hb
    rw [hc] at hthreads
    exact ⟨hthreads.1.stopped, hthreads.2.stopped⟩
  connected := by
    have hpos : (∃ b ∈ s.bootstraps, b.channel = .active) ↔ 0 < s.activeChannels := by
      simp [State.activeChannels, Bootstrap.isActive]
    rw [hpos, h.connected]
    cases s.connected <;> simp

/-! ### A bootstrap more -/

/-- A bootstrap is created under a condition on the properties alone. -/
lemma createBootstrap_eq (p : ServerProperties) : (∃ e, ∀ s, createBootstrap p s = .error e) ∨
    ∀ s, createBootstrap p s = .ok { s with bootstraps := s.bootstraps ++ [newBootstrap] } := by
  unfold createBootstrap
  simp only
  split_ifs
  · exact .inl ⟨_, fun _ => rfl⟩
  · exact .inl ⟨_, fun _ => rfl⟩
  · exact .inr fun _ => rfl
  · exact .inl ⟨_, fun _ => rfl⟩

lemma createBootstrap_of_create {s₀ : State} (h : create p = .ok s₀) (s : State) :
    createBootstrap p s = .ok { s with bootstraps := s.bootstraps ++ [newBootstrap] } := by
  rcases createBootstrap_eq p with ⟨e, he⟩ | hok
  · rw [create, he] at h
    cases h
  · exact hok s

lemma inv_create (h : create p = .ok s) : Inv s := by
  have heq := h
  rw [create, createBootstrap_of_create h, Except.ok.injEq] at heq
  subst heq
  refine ⟨by decide, ?_, by decide⟩
  intro b hb
  obtain rfl := List.mem_singleton.mp hb
  exact ⟨rfl, rfl⟩

/-- A reconnect becomes a connect attempt. -/
lemma inv_runReconnect {s₀ : State} (hp : create p = .ok s₀) (hs : Inv s)
    (h : runReconnect p s = some t) : Inv t := by
  unfold runReconnect at h
  cases hn : s.scheduled with
  | zero => simp [hn] at h
  | succ n =>
    simp only [hn, createBootstrap_of_create hp] at h
    cases h
    have hone := hs.one
    have hconnected := hs.connected
    have hattempts : [newBootstrap].countP Bootstrap.isConnecting = 1 := by decide
    have hactive : [newBootstrap].countP Bootstrap.isActive = 0 := by decide
    refine ⟨?_, fun b hb => ?_, ?_⟩
    · simp only [State.attempts, State.activeChannels, List.countP_append, hattempts, hactive,
        hn] at hone ⊢
      omega
    · rcases List.mem_append.mp hb with hb | hb
      · exact hs.threads b hb
      · obtain rfl := List.mem_singleton.mp hb
        exact ⟨rfl, rfl⟩
    · simpa only [State.activeChannels, List.countP_append, hactive, Nat.add_zero]
        using hconnected

/-! ### An event at a channel -/

/-- What an event does: it moves the life line from the channel to the schedule, or from the
attempt to the channel, or leaves it where it is. -/
lemma onChannel_spec {b b' : Bootstrap} {e : ChannelEvent} (h : onChannel b s e = some (t, b'))
    (hw : ThreadOf b.channel b.writeThread) (hr : ThreadOf b.channel b.readThread) :
    t.bootstraps = s.bootstraps ∧
      (ThreadOf b'.channel b'.writeThread ∧ ThreadOf b'.channel b'.readThread) ∧
      (b.isConnecting.toNat + b.isActive.toNat + s.scheduled =
        b'.isConnecting.toNat + b'.isActive.toNat + t.scheduled) ∧
      ((t.connected = s.connected ∧ b'.isActive = b.isActive) ∨
        t.connected = b'.isActive ∧ (b.isConnecting = true ∨ b.isActive = true)) := by
  obtain ⟨channel, closed, writeThread, readThread⟩ := b
  cases e with
  | connectFailed =>
    simp only [onChannel] at h
    split_ifs at h with hc
    cases h
    subst hc
    exact ⟨rfl, ⟨hw, hr⟩, by simp [operationComplete, reconnect, Bootstrap.isConnecting,
      Bootstrap.isActive, Nat.add_comm], .inl ⟨rfl, rfl⟩⟩
  | connectSucceeded =>
    simp only [onChannel] at h
    split_ifs at h with hc
    cases h
    obtain ⟨rfl, -⟩ := hc
    cases hw
    cases hr
    exact ⟨rfl, ⟨rfl, rfl⟩, rfl, .inr ⟨rfl, .inl rfl⟩⟩
  | inactive =>
    simp only [onChannel] at h
    split_ifs at h with hc
    cases h
    subst hc
    cases hw
    cases hr
    exact ⟨rfl, ⟨rfl, rfl⟩, by simp [reconnect, Bootstrap.isConnecting, Bootstrap.isActive,
      Nat.add_comm], .inr ⟨rfl, .inr rfl⟩⟩
  | exceptionCaught =>
    simp only [onChannel] at h
    split_ifs at h with hc
    cases h
    exact ⟨rfl, ⟨hw, hr⟩, rfl, .inl ⟨rfl, rfl⟩⟩

lemma countP_set_add {α : Type} {q : α → Bool} {l : List α} {i : ℕ} {a b : α}
    (h : l[i]? = some a) :
    (l.set i b).countP q + (q a).toNat = l.countP q + (q b).toNat := by
  induction l generalizing i with
  | nil => simp at h
  | cons c l ih =>
    cases i with
    | zero =>
      obtain rfl := Option.some_inj.mp h
      simp only [List.set_cons_zero, List.countP_cons]
      cases q c <;> cases q b <;> simp
    | succ i =>
      have hrest := ih (i := i) h
      simp only [List.set_cons_succ, List.countP_cons]
      omega

lemma toNat_le_countP {α : Type} (q : α → Bool) {l : List α} {a : α} (h : a ∈ l) :
    (q a).toNat ≤ l.countP q := by
  cases hq : q a with
  | false => exact Nat.zero_le _
  | true => exact List.countP_pos_iff.mpr ⟨a, h, hq⟩

lemma inv_channel {b b' : Bootstrap} {i : ℕ} {e : ChannelEvent} (hs : Inv s)
    (hi : s.bootstraps[i]? = some b) (h : onChannel b s e = some (t, b')) :
    Inv { t with bootstraps := t.bootstraps.set i b' } := by
  have hb := hs.threads b (List.mem_of_getElem? hi)
  obtain ⟨hboots, hthreads, hlife, hconn⟩ := onChannel_spec h hb.1 hb.2
  have hattempts := countP_set_add (q := Bootstrap.isConnecting) (b := b') hi
  have hactive := countP_set_add (q := Bootstrap.isActive) (b := b') hi
  have hle := toNat_le_countP Bootstrap.isConnecting (List.mem_of_getElem? hi)
  have hle' := toNat_le_countP Bootstrap.isActive (List.mem_of_getElem? hi)
  have hone := hs.one
  have hflag := hs.connected
  simp only [State.attempts, State.activeChannels] at hone hflag
  refine ⟨?_, ?_, ?_⟩
  · simp only [State.attempts, State.activeChannels, hboots]
    omega
  · intro d hd
    rcases List.mem_or_eq_of_mem_set hd with hd | rfl
    · rw [hboots] at hd
      exact hs.threads d hd
    · exact hthreads
  · simp only [State.activeChannels, hboots]
    rcases hconn with ⟨hc, ha⟩ | ⟨hc, hlive⟩
    · rw [ha] at hactive
      rw [hc]
      omega
    · -- the bootstrap has the one life line, so no other channel is active
      have hpos : 1 ≤ b.isConnecting.toNat + b.isActive.toNat := by
        rcases hlive with hlive | hlive <;> rw [hlive] <;> simp
      rw [hc]
      omega

/-! ### Every run -/

lemma inv_step {s₀ : State} {e : Event} (hp : create p = .ok s₀) (hs : Inv s)
    (h : step p s e = some t) : Inv t := by
  cases e with
  | channel i e =>
    simp only [step] at h
    cases hi : s.bootstraps[i]? with
    | none => simp [hi] at h
    | some b =>
      simp only [hi] at h
      obtain ⟨⟨u, b'⟩, hb, rfl⟩ := Option.map_eq_some_iff.mp h
      exact inv_channel hs hi hb
  | reconnect => exact inv_runReconnect hp hs h

lemma inv_run {s₀ : State} (hp : create p = .ok s₀) {l : List Event}
    (h : run (step p) s₀ l = some s) : Inv s :=
  run_invariant (fun _ _ _ hs h => inv_step hp hs h) (inv_create hp) h

/-- **The connection has one life line.** In every state that is reached from `create`, there is
one connect attempt in flight, one active channel or one scheduled reconnect, and no more; every
thread was started once at most, and is stopped once its channel is inactive; and the service
is connected exactly while there is an active channel. -/
theorem oneLife_of_create (p : ServerProperties) (s₀ : State) (hp : create p = .ok s₀)
    (l : List Event) (s : State) (h : run (step p) s₀ l = some s) : OneLife s :=
  (inv_run hp h).oneLife

/-- A file store at port 9333. -/
def localStore : ServerProperties := ⟨some "127.0.0.1", 9333, some "90d", fun _ => true⟩

/-- The first attempt fails, the second is connected until an exception closes its channel, and
a third is made. -/
def reconnectedTwice : List Event :=
  [.channel 0 .connectFailed, .reconnect, .channel 1 .connectSucceeded,
    .channel 1 .exceptionCaught, .channel 1 .inactive, .reconnect]

theorem oneLife_of_create_reconnectedTwice : ∃ s₀ s, create localStore = .ok s₀ ∧
    run (step localStore) s₀ reconnectedTwice = some s ∧ OneLife s :=
  ⟨_, _, rfl, rfl, oneLife_of_create localStore _ rfl reconnectedTwice _ rfl⟩

/-- A channel becomes active when no thread of an earlier one runs any more. -/
theorem idle_of_connecting {s₀ : State} (hp : create p = .ok s₀) {l : List Event}
    (h : run (step p) s₀ l = some s) {b : Bootstrap} (hb : b ∈ s.bootstraps)
    (hc : b.channel = .connecting) :
    ∀ d ∈ s.bootstraps, d.writeThread.idle = true ∧ d.readThread.idle = true := by
  have hs := inv_run hp h
  have hone := hs.one
  have hle := toNat_le_countP Bootstrap.isConnecting hb
  intro d hd
  have hle' := toNat_le_countP Bootstrap.isActive hd
  have hne : d.channel ≠ .active := by
    intro hd'
    simp only [Bootstrap.isConnecting, Bootstrap.isActive, hc, hd', decide_true,
      Bool.toNat_true] at hle hle'
    simp only [State.attempts, State.activeChannels] at hone
    omega
  exact ⟨(hs.threads d hd).1.idle hne, (hs.threads d hd).2.idle hne⟩

end Logful.WeedFSLifeLine
