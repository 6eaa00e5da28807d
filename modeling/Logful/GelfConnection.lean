import Logful.GelfTransport

/-!
Whether the service knows that it is connected to Graylog.

There is one connection at a time: a connect attempt, a channel until its last handler has
returned, or a scheduled reconnect. The flag of the service follows the channel from the first
handler that finds the listener on. A first channel whose handler has looked for the listener
before `create` has installed it is never reported, until it is gone.
-/

namespace Logful.GelfConnection

open Logful.Documents Logful.Entity Logful.GlobalReference Logful.GraylogClientService Logful.Runs
open Logful.GelfTransport
open Logful.GraylogRetry (noDoubles)

variable {Double : Type}

/-- A handler of the channel has begun and has not returned. -/
def HalfRun : Channel → Prop
  | .active next => next ≠ .returned
  | .inactive next => next ≠ .returned
  | _ => False

/-- Once `create` has returned and while no handler is half-run, the service is connected
exactly when the transport has an active channel. -/
def Follows (s : State Double) : Prop :=
  s.listener = true → (∀ b ∈ s.bootstraps, ¬ HalfRun b.channel) →
    (s.service.connected = true ↔ ∃ b ∈ s.bootstraps, b.channel.isActive = true)

/-- The listener is not installed while there is an active channel whose handler has looked
for it already. -/
def InTime (s : State Double) : Event → Prop
  | .setListener => ∀ b ∈ s.bootstraps, b.channel ≠ .active .returned
  | _ => True

/-! ### One connection -/

/-- Nothing comes of the channel any more. -/
def gone : Channel → Bool
  | .failed | .inactive .returned => true
  | _ => false

/-- What the flag of the service may be beside the channel. -/
def Flag (listener connected : Bool) : Channel → Prop
  | .active .returned => connected = listener
  | .active .connected => connected = false ∧ listener = true
  | .inactive .setKeepRunning | .inactive .interrupt | .inactive .look =>
    connected = true → listener = true
  | .inactive .disconnected => listener = true
  | _ => connected = false

/-- The last channel is the only one that is not gone, and if it is gone as well, then a
reconnect is scheduled. -/
structure OneConnection (L : Line) (olds : List Channel) (c : Channel) : Prop where
  channels : L.channels = olds ++ [c]
  olds : ∀ d ∈ olds, gone d = true
  scheduled : L.scheduled = (gone c).toNat
  flag : Flag L.listener L.connected c

def Inv (s : State Double) : Prop := ∃ olds c, OneConnection s.line olds c

variable {p : ServerProperties} {D : Doubles Double} {first : FirstEntry} {s t : State Double}
variable {b b' : Bootstrap Double} {c d : Channel} {olds : List Channel} {L : Line} {i : ℕ}

lemma not_isActive_of_gone (h : gone c = true) : c.isActive = false ∧ ¬ HalfRun c := by
  cases c with
  | connecting | active => cases h
  | failed => exact ⟨rfl, id⟩
  | inactive next =>
    cases next with
    | returned => exact ⟨rfl, fun hne => hne rfl⟩
    | _ => cases h

/-- The channels that are gone say nothing about the rest. -/
lemma follows_iff (h : s.line.channels = olds ++ [c]) (holds : ∀ d ∈ olds, gone d = true) :
    Follows s ↔ (s.listener = true → ¬ HalfRun c →
      (s.service.connected = true ↔ c.isActive = true)) := by
  have hhalf : (∀ b ∈ s.bootstraps, ¬ HalfRun b.channel) ↔ ¬ HalfRun c := by
    have hall : (∀ b ∈ s.bootstraps, ¬ HalfRun b.channel) ↔ ∀ d ∈ s.line.channels, ¬ HalfRun d := by
      simp [State.line]
    rw [hall, h]
    refine ⟨fun hd => hd c (by simp), fun hc d hd => ?_⟩
    rcases List.mem_append.mp hd with hd | hd
    · exact (not_isActive_of_gone (holds d hd)).2
    · rwa [List.mem_singleton.mp hd]
  have hactive : (∃ b ∈ s.bootstraps, b.channel.isActive = true) ↔ c.isActive = true := by
    have hex : (∃ b ∈ s.bootstraps, b.channel.isActive = true) ↔
        ∃ d ∈ s.line.channels, d.isActive = true := by simp [State.line]
    rw [hex, h]
    constructor
    · rintro ⟨d, hd, ha⟩
      rcases List.mem_append.mp hd with hd | hd
      · rw [(not_isActive_of_gone (holds d hd)).1] at ha
        cases ha
      · rwa [List.mem_singleton.mp hd] at ha
    · intro ha
      exact ⟨c, by simp, ha⟩
  rw [Follows, hhalf, hactive]

/-- What the flag is once no handler is half-run. -/
lemma Flag.connected_iff {listener connected : Bool} (h : Flag listener connected c)
    (hl : listener = true) (hc : ¬ HalfRun c) : connected = true ↔ c.isActive = true := by
  cases c with
  | connecting | failed =>
    rw [show connected = false from h]
    decide
  | active next =>
    cases next with
    | returned =>
      rw [show connected = listener from h, hl]
      decide
    | _ => exact absurd (fun h => nomatch h) hc
  | inactive next =>
    cases next with
    | returned =>
      rw [show connected = false from h]
      decide
    | _ => exact absurd (fun h => nomatch h) hc

theorem Inv.follows (h : Inv s) : Follows s := by
  obtain ⟨olds, c, hline⟩ := h
  exact (follows_iff hline.channels hline.olds).mpr fun hl hc => hline.flag.connected_iff hl hc

/-! ### The steps -/

/-- A channel on which something happens is not gone; what happens moves the flag and the
reconnects with it. -/
lemma onChannel_spec {e : ChannelEvent} (h : onChannel s b e = some (t, b'))
    (hs : s.scheduled = 0) (hf : Flag s.listener s.service.connected b.channel) :
    t.bootstraps = s.bootstraps ∧ t.listener = s.listener ∧
      t.scheduled = (gone b'.channel).toNat ∧
      Flag t.listener t.service.connected b'.channel := by
  obtain ⟨channel, sender⟩ := b
  cases e with
  | connectFailed =>
    simp only [onChannel] at h
    split_ifs at h with hc
    cases h
    subst hc
    exact ⟨rfl, rfl, by rw [scheduleReconnect, hs]; rfl, hf⟩
  | connectSucceeded =>
    simp only [onChannel] at h
    split_ifs at h with hc
    cases h
    subst hc
    exact ⟨rfl, rfl, hs, hf⟩
  | closed =>
    simp only [onChannel] at h
    split_ifs at h with hc
    cases h
    subst hc
    refine ⟨rfl, rfl, hs, fun hconn => ?_⟩
    rw [← hconn]
    exact hf.symm
  | handle =>
    simp only [onChannel, handle] at h
    cases channel with
    | connecting | failed => cases h
    | active next =>
      cases next with
      | start =>
        cases h
        exact ⟨rfl, rfl, hs, hf⟩
      | look =>
        cases h
        cases hl : s.listener with
        | false => exact ⟨rfl, rfl, by simp [hs, Bootstrap.setChannel, gone], hf⟩
        | true => exact ⟨rfl, rfl, by simp [hs, Bootstrap.setChannel, gone], hf, rfl⟩
      | connected =>
        cases h
        exact ⟨rfl, rfl, hs, hf.2.symm⟩
      | returned => cases h
    | inactive next =>
      cases next with
      | setKeepRunning | interrupt =>
        cases h
        exact ⟨rfl, rfl, hs, hf⟩
      | look =>
        cases h
        cases hl : s.listener with
        | false =>
          have hnot : s.service.connected = false := by
            rw [← Bool.not_eq_true]
            intro hconn
            have hl' := hf hconn
            rw [hl] at hl'
            cases hl'
          exact ⟨rfl, rfl, by simp [hs, Bootstrap.setChannel, gone], hnot⟩
        | true => exact ⟨rfl, rfl, by simp [hs, Bootstrap.setChannel, gone], rfl⟩
      | disconnected =>
        cases h
        exact ⟨rfl, rfl, hs, rfl⟩
      | scheduleReconnect =>
        cases h
        exact ⟨rfl, rfl, by rw [scheduleReconnect, hs]; rfl, hf⟩
      | returned => cases h

lemma not_gone_of_onChannel {e : ChannelEvent} (h : onChannel s b e = some (t, b')) :
    gone b.channel = false := by
  obtain ⟨channel, sender⟩ := b
  rw [← Bool.not_eq_true]
  intro hgone
  cases channel with
  | connecting | active => cases hgone
  | failed => cases e <;> simp [onChannel, handle] at h
  | inactive next =>
    cases next with
    | returned => cases e <;> simp [onChannel, handle] at h
    | _ => cases hgone

/-- The one channel that is not gone is the last. -/
lemma OneConnection.eq_last (h : OneConnection L olds c) (hi : L.channels[i]? = some d)
    (hd : gone d = false) : d = c ∧ i = olds.length := by
  rw [h.channels] at hi
  rcases Nat.lt_trichotomy i olds.length with hlt | rfl | hgt
  · rw [List.getElem?_append_left hlt] at hi
    rw [h.olds d (List.mem_of_getElem? hi)] at hd
    cases hd
  · rw [List.getElem?_append_right le_rfl, Nat.sub_self] at hi
    exact ⟨(Option.some_inj.mp hi).symm, rfl⟩
  · rw [List.getElem?_eq_none (by simp; omega)] at hi
    cases hi

lemma inv_channel {e : ChannelEvent} (hs : Inv s) (hi : s.bootstraps[i]? = some b)
    (h : onChannel s b e = some (t, b')) : Inv (State.setBootstrap i (t, b')) := by
  obtain ⟨olds, c, hline⟩ := hs
  have hnot := not_gone_of_onChannel h
  obtain ⟨rfl, rfl⟩ := hline.eq_last (getElem?_channels hi) hnot
  have hnone : s.scheduled = 0 := by
    have hscheduled := hline.scheduled
    rw [hnot] at hscheduled
    exact hscheduled
  obtain ⟨hboots, hlistener, hscheduled, hflag⟩ := onChannel_spec h hnone hline.flag
  refine ⟨olds, b'.channel, ?_, hline.olds, hscheduled, hflag⟩
  have hchannels : s.bootstraps.map Bootstrap.channel = olds ++ [b.channel] := hline.channels
  rw [State.line, State.setBootstrap, hboots, List.map_set, hchannels]
  simp

lemma inv_reconnect {n : ℕ} (hs : Inv s) (hn : s.scheduled = n + 1) :
    Inv (createBootstrap { s with scheduled := n }) := by
  obtain ⟨olds, c, hline⟩ := hs
  -- a reconnect was scheduled, so the last channel is gone, and so is its flag
  have hscheduled : n + 1 = (gone c).toNat := hn.symm.trans hline.scheduled
  have hgone : gone c = true := by
    rw [← Bool.not_eq_false]
    intro hc
    rw [hc] at hscheduled
    cases hscheduled
  have hzero : n = 0 := by
    rw [hgone] at hscheduled
    exact Nat.succ_inj.mp hscheduled
  have hflag : s.service.connected = false := by
    have hf := hline.flag
    cases c with
    | failed => exact hf
    | inactive next =>
      cases next with
      | returned => exact hf
      | _ => cases hgone
    | _ => cases hgone
  refine ⟨olds ++ [c], .connecting, ?_, ?_, hzero, hflag⟩
  · have hchannels : s.bootstraps.map Bootstrap.channel = olds ++ [c] := hline.channels
    simp [State.line, createBootstrap, hchannels]
  · intro d hd
    rcases List.mem_append.mp hd with hd | hd
    · exact hline.olds d hd
    · rwa [List.mem_singleton.mp hd]

/-- A listener that comes in time leaves the flag right. -/
lemma Flag.setListener {connected : Bool} (h : Flag false connected c)
    (hc : c ≠ .active .returned) : Flag true connected c := by
  cases c with
  | connecting | failed => exact h
  | active next =>
    cases next with
    | connected => exact ⟨h.1, rfl⟩
    | returned => exact absurd rfl hc
    | _ => exact h
  | inactive next =>
    cases next with
    | setKeepRunning | interrupt | look => exact fun _ => rfl
    | disconnected => exact rfl
    | _ => exact h

lemma inv_of_line (hs : Inv s) (h : t.line = s.line) : Inv t := by
  obtain ⟨olds, c, hline⟩ := hs
  exact ⟨olds, c, h ▸ hline⟩

theorem inv_step {e : Event} (hs : Inv s) (hin : InTime s e)
    (h : step p D first s e = some t) : Inv t := by
  cases e with
  | setListener =>
    simp only [step] at h
    split_ifs at h with hl
    cases h
    obtain ⟨olds, c, hline⟩ := hs
    have hnot : s.line.listener = false := Bool.not_eq_true _ ▸ hl
    have hflag := hline.flag
    rw [hnot] at hflag
    refine ⟨olds, c, hline.channels, hline.olds, hline.scheduled, hflag.setListener ?_⟩
    intro hc
    have hmem : c ∈ s.bootstraps.map Bootstrap.channel := by
      rw [show s.bootstraps.map Bootstrap.channel = olds ++ [c] from hline.channels]
      simp
    obtain ⟨b, hb, hbc⟩ := List.mem_map.mp hmem
    exact hin b hb (hbc.trans hc)
  | write m =>
    cases h
    exact inv_of_line hs write_line
  | put j interrupted =>
    obtain ⟨m, -, h⟩ := step_put_cases h
    have hline := put_line h
    exact inv_of_line hs hline
  | channel i e =>
    obtain ⟨b, u, b', hi, hb, rfl⟩ := step_channel_cases h
    exact inv_channel hs hi hb
  | sender i =>
    obtain ⟨b, u, b', hi, hb, rfl⟩ := step_sender_cases h
    exact inv_of_line hs (setBootstrap_line hi hb)
  | reconnect =>
    obtain ⟨n, hn, rfl⟩ := step_reconnect_cases h
    exact inv_reconnect hs hn

/-- A listener that comes too late leaves the service disconnected from its channel. -/
theorem not_follows_step {e : Event} (hs : Inv s) (hin : ¬ InTime s e)
    (h : step p D first s e = some t) : ¬ Follows t := by
  cases e with
  | setListener =>
    simp only [step] at h
    split_ifs at h with hl
    cases h
    simp only [InTime, not_forall, not_not] at hin
    obtain ⟨b, hb, hc⟩ := hin
    obtain ⟨olds, c, hline⟩ := hs
    obtain ⟨i, hi⟩ := List.getElem?_of_mem hb
    obtain ⟨rfl, -⟩ := hline.eq_last (getElem?_channels hi) (by rw [hc]; rfl)
    rw [follows_iff (s := { s with listener := true }) hline.channels hline.olds, hc]
    intro hfollows
    have hflag := hline.flag
    rw [hc] at hflag
    have hconnected := (hfollows rfl (fun hne => hne rfl)).mpr rfl
    rw [show s.service.connected = s.listener from hflag] at hconnected
    exact hl hconnected
  | _ => exact absurd trivial hin

/-! ### Every run -/

lemma inv_create {layouts : LayoutCache} {messages : Collection ObjectId LogMessage}
    (h : create p layouts messages = .ok s) : Inv s := by
  unfold create at h
  split_ifs at h
  cases h
  exact ⟨[], .connecting, rfl, by simp, rfl, rfl⟩

/-- **The flag follows the channel exactly if the listener comes in time.** From a transport that
is being created, the service is connected exactly when there is an active channel, in every
state in which `create` has returned and no handler is half-run, if and only if `create`
does not install the listener while there is an active channel whose handler has looked for
it already. -/
theorem follows_iff_inTime (p : ServerProperties) (D : Doubles Double) (first : FirstEntry)
    (layouts : LayoutCache) (messages : Collection ObjectId LogMessage) (s₀ s : State Double)
    (hcreate : create p layouts messages = .ok s₀) (l : List Event)
    (h : run (step p D first) s₀ l = some s) :
    (∀ q t, q <+: l → run (step p D first) s₀ q = some t → Follows t) ↔
      EachStep (step p D first) InTime s₀ l :=
  forall_reached_iff_eachStep (I := Inv) (P := fun _ _ => True) (fun _ hs => hs.follows)
    (fun _ _ _ _ hs hin h => inv_step hs hin h)
    (fun _ _ _ _ hs hin h => not_follows_step hs hin h)
    (eachStep_of_forall (fun _ _ => trivial) s₀ l) (inv_create hcreate) h

/-- The listener is installed while the channel is being connected; later the channel is lost,
and there is another. -/
def connectedTwice : List Event :=
  [.setListener, .channel 0 .connectSucceeded, .channel 0 .handle, .channel 0 .handle,
    .channel 0 .handle, .channel 0 .closed, .channel 0 .handle, .channel 0 .handle,
    .channel 0 .handle, .channel 0 .handle, .channel 0 .handle, .reconnect,
    .channel 1 .connectSucceeded, .channel 1 .handle, .channel 1 .handle, .channel 1 .handle]

theorem follows_iff_inTime_connectedTwice :
    ∃ s₀ s : State Unit, create localGraylog .empty .empty = .ok s₀ ∧
      run (step localGraylog noDoubles fun _ => none) s₀ connectedTwice = some s ∧
      ∀ q t, q <+: connectedTwice →
        run (step localGraylog noDoubles fun _ => none) s₀ q = some t → Follows t := by
  refine ⟨_, _, rfl, rfl, ?_⟩
  refine (follows_iff_inTime localGraylog noDoubles (fun _ => none) .empty .empty _ _ rfl
    connectedTwice rfl).mpr (eachStep_cons ?_ rfl ?_)
  · intro b hb
    obtain rfl := List.mem_singleton.mp hb
    exact fun h => nomatch h
  · -- the listener is installed once
    refine eachStep_of_forall_mem (fun a ha s => ?_) _
    cases a with
    | setListener => simp at ha
    | _ => trivial

/-- The flag does not always follow the channel: the channel is active before `create` installs
the listener, and the service is never told. -/
theorem not_follows_lateListener :
    ∃ s₀ s : State Unit, create localGraylog .empty .empty = .ok s₀ ∧
      run (step localGraylog noDoubles fun _ => none) s₀
        [.channel 0 .connectSucceeded, .channel 0 .handle, .channel 0 .handle, .setListener] =
          some s ∧
      s.service.connected = false ∧ s.bootstraps.map Bootstrap.channel = [.active .returned] ∧
      ¬ Follows s := by
  refine ⟨_, _, rfl, rfl, rfl, rfl, fun h => ?_⟩
  refine absurd ((h rfl fun b hb => ?_).mpr ⟨_, List.mem_singleton_self _, rfl⟩) (by decide)
  obtain rfl := List.mem_singleton.mp hb
  exact fun hne => hne rfl

end Logful.GelfConnection
