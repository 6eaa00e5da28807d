import Logful.GelfTransport
import Mathlib.Algebra.Order.Group.Multiset
import Mathlib.Algebra.BigOperators.Group.List.Basic
import Mathlib.Tactic.Abel

/-!
What becomes of the messages that are handed to Graylog.

A message is in the queue of the transport, then a sender thread holds it, then it is written.
A thread that finds its channel inactive hands the log message of the message to the listener,
and `createMessage` never puts it there: saving null ends the thread. A write on a channel
that is not active any more is not noticed either.
-/

namespace Logful.GelfDelivery

open Logful.Documents hiding put
open Logful.Entity Logful.GlobalReference Logful.GraylogClientService Logful.Runs
open Logful.GelfTransport
open Logful.GraylogRetry (noDoubles)

variable {Double : Type}

/-! ### Where a message may be -/

def Running : Point → Bool
  | .notStarted | .ended | .crashed => false
  | _ => true

/-- What a thread holds that is running. -/
def held (b : Bootstrap Double) : Multiset (GelfMessage Double) :=
  if Running b.sender.point then b.sender.gelfMessage.toList else 0

/-- What is in the queue, was written or was saved. -/
def rest (s : State Double) : Multiset (GelfMessage Double) :=
  s.service.queue + s.history.written + s.history.saved.map Prod.snd

/-- What is not lost. -/
def kept (s : State Double) : Multiset (GelfMessage Double) :=
  rest s + (s.bootstraps.map held).sum

/-- Every message that was created is in the queue, held by a running thread, written to an
active channel or saved; and no thread has been ended by an exception. -/
structure NoneLost (s : State Double) : Prop where
  kept : (s.history.created : Multiset (GelfMessage Double)) ≤ kept s
  saved : ∀ x ∈ s.history.saved, x.1 ∈ s.service.messages.ids
  notCrashed : ∀ b ∈ s.bootstraps, b.sender.point ≠ .crashed

/-- A thread that holds a message takes its steps while its channel is active. -/
def OnActiveChannel (s : State Double) : Event → Prop
  | .sender i => ∀ b ∈ s.bootstraps[i]?, b.sender.gelfMessage.isSome → b.channel.isActive = true
  | _ => True

instance (s : State Double) : (e : Event) → Decidable (OnActiveChannel s e)
  | .sender i => inferInstanceAs (Decidable (∀ b ∈ s.bootstraps[i]?,
      b.sender.gelfMessage.isSome → b.channel.isActive = true))
  | .setListener | .write _ | .put _ _ | .channel _ _ | .reconnect =>
    inferInstanceAs (Decidable True)

/-! ### The invariant -/

/-- A thread holds a message between taking it out of the queue and writing it. -/
def Holds (th : Sender Double) : Prop :=
  th.gelfMessage.isSome → th.point = .check ∨ th.point = .write

/-- What holds of a bootstrap: its handler says that the service is connected only if it has
found the listener, and its thread is started by the handler, and not ended by an exception. -/
structure Good (listener : Bool) (b : Bootstrap Double) : Prop where
  found : b.channel = .active .connected → listener = true
  fresh : b.channel = .connecting ∨ b.channel = .active .start → b.sender.point = .notStarted
  holds : Holds b.sender
  notCrashed : b.sender.point ≠ .crashed

structure Inv (s : State Double) : Prop where
  -- nothing is created before the listener can say that the service is connected
  unplugged : s.listener = false →
    s.service.connected = false ∧ s.calls = [] ∧ s.history.created = []
  good : ∀ b ∈ s.bootstraps, Good s.listener b
  plain : ∀ g ∈ s.history.created, g.logMessage = none
  conserved : (s.history.created : Multiset (GelfMessage Double)) = kept s
  saved : ∀ x ∈ s.history.saved, x.1 ∈ s.service.messages.ids

variable {p : ServerProperties} {D : Doubles Double} {first : FirstEntry} {s t : State Double}
variable {b b' : Bootstrap Double} {m : Entity ObjectId LogMessage} {interrupted : Bool} {i : ℕ}

lemma Inv.noneLost (h : Inv s) : NoneLost s :=
  ⟨h.conserved.le, h.saved, fun b hb => (h.good b hb).notCrashed⟩

lemma held_eq (h : Holds b.sender) :
    held b = (b.sender.gelfMessage.toList : Multiset (GelfMessage Double)) := by
  unfold held
  cases hg : b.sender.gelfMessage with
  | none => split_ifs <;> rfl
  | some g =>
    rcases h (by rw [hg]; rfl) with hp | hp
    · rw [hp]
      rfl
    · rw [hp]
      rfl

/-- A step at a bootstrap loses what it takes from there and puts nowhere else. -/
lemma kept_setBootstrap (lost : Multiset (GelfMessage Double)) (hi : s.bootstraps[i]? = some b)
    (hboots : t.bootstraps = s.bootstraps) (h : rest t + held b' + lost = rest s + held b) :
    kept (State.setBootstrap i (t, b')) + lost = kept s := by
  have hsum := sum_map_set_add held b' hi
  have hrest : rest (State.setBootstrap i (t, b')) = rest t := rfl
  have hset : (State.setBootstrap i (t, b')).bootstraps = s.bootstraps.set i b' := by
    rw [← hboots]
    rfl
  refine add_right_cancel (b := held b) ?_
  rw [kept, hrest, hset]
  calc rest t + ((s.bootstraps.set i b').map held).sum + lost + held b
      = rest t + lost + (((s.bootstraps.set i b').map held).sum + held b) := by abel
    _ = rest t + held b' + lost + (s.bootstraps.map held).sum := by rw [hsum]; abel
    _ = kept s + held b := by rw [h, kept]; abel

/-- What a step at a bootstrap leaves as it was in the rest of the state. -/
structure Frame (s t : State Double) : Prop where
  bootstraps : t.bootstraps = s.bootstraps
  listener : t.listener = s.listener
  calls : t.calls = s.calls
  created : t.history.created = s.history.created
  saved : t.history.saved = s.history.saved
  messages : t.service.messages = s.service.messages
  connected : t.service.connected = true → s.service.connected = true ∨ s.listener = true

lemma Frame.refl (s : State Double) : Frame s s := ⟨rfl, rfl, rfl, rfl, rfl, rfl, .inl⟩

/-- A step at a bootstrap that moves the messages around. -/
lemma Inv.setBootstrap (hs : Inv s) (hi : s.bootstraps[i]? = some b) (hf : Frame s t)
    (hb : Good s.listener b') (hrest : rest t + held b' = rest s + held b) :
    Inv (State.setBootstrap i (t, b')) := by
  have hkept := kept_setBootstrap 0 hi hf.bootstraps (by rw [add_zero, hrest])
  rw [add_zero] at hkept
  constructor
  · intro hl
    have hl : s.listener = false := hf.listener.symm.trans hl
    obtain ⟨hconn, hcalls, hcreated⟩ := hs.unplugged hl
    refine ⟨?_, hf.calls.trans hcalls, hf.created.trans hcreated⟩
    change t.service.connected = false
    rw [← Bool.not_eq_true]
    intro ht
    rcases hf.connected ht with hconn' | hl'
    · exact Bool.false_ne_true (hconn.symm.trans hconn')
    · exact Bool.false_ne_true (hl.symm.trans hl')
  · intro d hd
    change Good t.listener d
    rw [hf.listener]
    rw [State.setBootstrap, hf.bootstraps] at hd
    rcases List.mem_or_eq_of_mem_set hd with hd | rfl
    · exact hs.good d hd
    · exact hb
  · change ∀ g ∈ t.history.created, g.logMessage = none
    rw [hf.created]
    exact hs.plain
  · rw [hkept, ← hs.conserved]
    exact congrArg _ hf.created
  · change ∀ x ∈ t.history.saved, x.1 ∈ t.service.messages.ids
    rw [hf.saved, hf.messages]
    exact hs.saved

/-! ### The steps of a channel -/

lemma rest_eq (hqueue : t.service.queue = s.service.queue) (hhistory : t.history = s.history) :
    rest t = rest s := by
  rw [rest, rest, hqueue, hhistory]

/-- A statement of a handler moves no message, and keeps the bootstrap good when it leaves the
channel past its start and does not find a listener that is not there. -/
lemma Good.handled (hb : Good s.listener b) (hf : Frame s t)
    (hqueue : t.service.queue = s.service.queue) (hhistory : t.history = s.history)
    (hmessage : b'.sender.gelfMessage = b.sender.gelfMessage)
    (hpoint : b'.sender.point = b.sender.point)
    (hfound : b'.channel = .active .connected → s.listener = true)
    (hfresh : b'.channel = .connecting ∨ b'.channel = .active .start →
      b.sender.point = .notStarted) :
    Frame s t ∧ Good s.listener b' ∧ rest t + held b' = rest s + held b := by
  have hholds : Holds b'.sender := by
    unfold Holds
    rw [hmessage, hpoint]
    exact hb.holds
  refine ⟨hf, ⟨hfound, fun h => hpoint.trans (hfresh h), hholds, ?_⟩, ?_⟩
  · rw [hpoint]
    exact hb.notCrashed
  · rw [rest_eq hqueue hhistory, held_eq hholds, held_eq hb.holds, hmessage]

lemma onChannel_spec {e : ChannelEvent} (h : onChannel s b e = some (t, b'))
    (hb : Good s.listener b) :
    Frame s t ∧ Good s.listener b' ∧ rest t + held b' = rest s + held b := by
  obtain ⟨channel, sender⟩ := b
  have hpast : ∀ next : OnInactive, .inactive next = Channel.connecting ∨
      .inactive next = Channel.active .start → sender.point = .notStarted := by
    rintro next (hnext | hnext) <;> cases hnext
  cases e with
  | connectFailed =>
    simp only [onChannel] at h
    split_ifs at h with hc
    cases h
    exact hb.handled ⟨rfl, rfl, rfl, rfl, rfl, rfl, .inl⟩ rfl rfl rfl rfl (by rintro ⟨⟩)
      fun _ => hb.fresh (.inl hc)
  | connectSucceeded =>
    simp only [onChannel] at h
    split_ifs at h with hc
    cases h
    exact hb.handled (Frame.refl s) rfl rfl rfl rfl (by rintro ⟨⟩) fun _ => hb.fresh (.inl hc)
  | closed =>
    simp only [onChannel] at h
    split_ifs at h
    cases h
    exact hb.handled (Frame.refl s) rfl rfl rfl rfl (by rintro ⟨⟩) (hpast _)
  | handle =>
    simp only [onChannel, handle] at h
    cases channel with
    | connecting | failed => cases h
    | active next =>
      cases next with
      | start =>
        cases h
        -- a thread that was not started holds nothing
        have hpoint : sender.point = .notStarted := hb.fresh (.inr rfl)
        have hnone : sender.gelfMessage = none := by
          rw [← Option.not_isSome_iff_eq_none]
          intro hsome
          rcases hb.holds hsome with hp | hp <;> rw [hpoint] at hp <;> cases hp
        refine ⟨Frame.refl s, ⟨?_, ?_, ?_, ?_⟩, ?_⟩
        · exact fun h => nomatch h
        · exact fun h => h.elim (fun h => nomatch h) fun h => nomatch h
        · intro hsome
          simp [hnone] at hsome
        · exact fun h => nomatch h
        · simp [held, hnone]
      | look =>
        cases h
        refine hb.handled (Frame.refl s) rfl rfl rfl rfl ?_ ?_
        · cases hl : s.listener <;> simp [Bootstrap.setChannel]
        · cases hl : s.listener <;> simp [Bootstrap.setChannel]
      | connected =>
        cases h
        refine hb.handled ⟨rfl, rfl, rfl, rfl, rfl, rfl, fun _ => .inr (hb.found rfl)⟩
          rfl rfl rfl rfl (by rintro ⟨⟩) ?_
        rintro (hnext | hnext) <;> cases hnext
      | returned => cases h
    | inactive next =>
      cases next with
      | returned => cases h
      | look =>
        cases h
        exact hb.handled (Frame.refl s) rfl rfl rfl rfl (by rintro ⟨⟩) (hpast _)
      | disconnected =>
        cases h
        exact hb.handled ⟨rfl, rfl, rfl, rfl, rfl, rfl, fun h => nomatch h⟩ rfl rfl rfl rfl
          (by rintro ⟨⟩) (hpast _)
      | setKeepRunning | interrupt | scheduleReconnect =>
        cases h
        exact hb.handled ⟨rfl, rfl, rfl, rfl, rfl, rfl, .inl⟩ rfl rfl rfl rfl (by rintro ⟨⟩)
          (hpast _)

/-! ### The steps of a sender thread -/

lemma Good.gelfMessage_eq_none {listener : Bool} (hb : Good listener b)
    (hc : b.sender.point ≠ .check) (hw : b.sender.point ≠ .write) :
    b.sender.gelfMessage = none := by
  rw [← Option.not_isSome_iff_eq_none]
  intro hsome
  rcases hb.holds hsome with hp | hp
  · exact hc hp
  · exact hw hp

/-- A thread that runs belongs to a channel that is past its start. -/
lemma Good.of_sender {listener : Bool} (hb : Good listener b)
    (hstarted : b.sender.point ≠ .notStarted) (hchannel : b'.channel = b.channel)
    (hholds : Holds b'.sender) (hcrashed : b'.sender.point ≠ .crashed) : Good listener b' where
  found := by
    rw [hchannel]
    exact hb.found
  fresh := by
    rw [hchannel]
    exact fun hfresh => absurd (hb.fresh hfresh) hstarted
  holds := hholds
  notCrashed := hcrashed

/-- A thread that only moves on keeps the message that it holds. -/
lemma Good.moved {listener : Bool} (hb : Good listener b)
    (hstarted : b.sender.point ≠ .notStarted) (hchannel : b'.channel = b.channel)
    (hmessage : b'.sender.gelfMessage = b.sender.gelfMessage) (hholds : Holds b'.sender)
    (hcrashed : b'.sender.point ≠ .crashed) : Good listener b' ∧ held b' = held b :=
  ⟨hb.of_sender hstarted hchannel hholds hcrashed,
    by rw [held_eq hholds, held_eq hb.holds, hmessage]⟩

lemma holds_of_none {th : Sender Double} (h : th.gelfMessage = none) : Holds th := by
  intro hsome
  rw [h] at hsome
  cases hsome

/-- The message at the head of the queue is taken out of it. -/
lemma rest_of_queue {g : GelfMessage Double} {queue : List (GelfMessage Double)}
    (hq : s.service.queue = g :: queue) :
    rest s = rest { s with service := { s.service with queue := queue } } +
      ([g] : Multiset (GelfMessage Double)) := by
  have hcons : (s.service.queue : Multiset (GelfMessage Double)) = queue + [g] := by
    rw [hq, add_comm]
    rfl
  rw [rest, rest, hcons]
  abel

/-- A message is written to an active channel. -/
lemma rest_written (s : State Double) (g : GelfMessage Double) :
    rest { s with history := { s.history with written := s.history.written ++ [g] } } =
      rest s + ([g] : Multiset (GelfMessage Double)) := by
  have happend : ((s.history.written ++ [g] : List (GelfMessage Double)) :
      Multiset (GelfMessage Double)) = s.history.written + [g] := rfl
  simp only [rest, happend]
  abel

/-- A thread that holds no message may take one out of the queue, and one on an active channel
writes the message it holds. -/
lemma senderStep_spec (h : senderStep s b = some (t, b')) (hb : Good s.listener b)
    (hactive : b.sender.gelfMessage.isSome → b.channel.isActive = true)
    (hplain : ∀ g, b.sender.gelfMessage = some g → g.logMessage = none) :
    Frame s t ∧ Good s.listener b' ∧ rest t + held b' = rest s + held b := by
  have hmove : t = s → b.sender.point ≠ .notStarted → b'.channel = b.channel →
      b'.sender.gelfMessage = b.sender.gelfMessage → Holds b'.sender →
      b'.sender.point ≠ .crashed →
      Frame s t ∧ Good s.listener b' ∧ rest t + held b' = rest s + held b := by
    rintro rfl hstarted hchannel hmessage hholds hcrashed
    obtain ⟨hgood, hheld⟩ := hb.moved hstarted hchannel hmessage hholds hcrashed
    exact ⟨Frame.refl t, hgood, by rw [hheld]⟩
  unfold senderStep at h
  cases hp : b.sender.point with
  | notStarted | ended | crashed => simp [hp] at h
  | loop | wait =>
    have hnone := hb.gelfMessage_eq_none (by rw [hp]; decide) (by rw [hp]; decide)
    simp only [hp] at h
    cases h
    refine hmove rfl (by rw [hp]; decide) rfl rfl (holds_of_none hnone) ?_
    simp only [Bootstrap.setPoint]
    split_ifs <;> decide
  | await =>
    have hnone := hb.gelfMessage_eq_none (by rw [hp]; decide) (by rw [hp]; decide)
    simp only [hp] at h
    split_ifs at h
    · cases h
      exact hmove rfl (by rw [hp]; decide) rfl rfl (holds_of_none hnone) (by rintro ⟨⟩)
    · cases h
      exact hmove rfl (by rw [hp]; decide) rfl rfl (holds_of_none hnone) (by rintro ⟨⟩)
    · cases h
      exact hmove rfl (by rw [hp]; decide) rfl rfl (holds_of_none hnone) (by rintro ⟨⟩)
  | poll =>
    have hnone := hb.gelfMessage_eq_none (by rw [hp]; decide) (by rw [hp]; decide)
    simp only [hp, hnone] at h
    split_ifs at h
    · cases h
      exact hmove rfl (by rw [hp]; decide) rfl hnone.symm (holds_of_none rfl)
        (by rintro ⟨⟩)
    · cases hq : s.service.queue with
      | nil =>
        simp only [hq] at h
        cases h
        exact hmove rfl (by rw [hp]; decide) rfl rfl (holds_of_none hnone) (by rintro ⟨⟩)
      | cons g queue =>
        simp only [hq] at h
        cases h
        refine ⟨⟨rfl, rfl, rfl, rfl, rfl, rfl, .inl⟩, hb.of_sender (by rw [hp]; decide) rfl
          (fun _ => .inl rfl) (by rintro ⟨⟩), ?_⟩
        rw [held_eq hb.holds, hnone, rest_of_queue hq]
        exact (add_zero _).symm
  | check =>
    simp only [hp] at h
    cases hg : b.sender.gelfMessage with
    | none =>
      simp only [hg] at h
      cases h
      exact hmove rfl (by rw [hp]; decide) rfl rfl (holds_of_none hg) (by rintro ⟨⟩)
    | some g =>
      simp only [hg, hactive (by rw [hg]; rfl), if_true] at h
      cases h
      exact hmove rfl (by rw [hp]; decide) rfl rfl (fun _ => .inr rfl) (by rintro ⟨⟩)
  | write =>
    simp only [hp] at h
    cases hg : b.sender.gelfMessage with
    | none =>
      simp only [hg] at h
      cases h
      exact hmove rfl (by rw [hp]; decide) rfl rfl (holds_of_none hg) (by rintro ⟨⟩)
    | some g =>
      simp only [hg, writeAndFlush, hactive (by rw [hg]; rfl), if_true, retrySuccessful,
        hplain g hg] at h
      cases h
      refine ⟨⟨rfl, rfl, rfl, rfl, rfl, rfl, .inl⟩, hb.of_sender (by rw [hp]; decide) rfl
        (holds_of_none rfl) (by rintro ⟨⟩), ?_⟩
      rw [held_eq hb.holds, hg]
      exact (add_zero _).trans (rest_written s g)

/-- A message that a thread holds is one that was created. -/
lemma Inv.mem_created (hs : Inv s) (hb : b ∈ s.bootstraps) {g : GelfMessage Double}
    (hg : b.sender.gelfMessage = some g) : g ∈ s.history.created := by
  have hle : held b ≤ kept s :=
    (List.single_le_sum (fun _ _ => Multiset.zero_le _) _ (List.mem_map_of_mem hb)).trans
      (Multiset.le_add_left _ _)
  rw [held_eq (hs.good b hb).holds, hg, ← hs.conserved] at hle
  exact Multiset.mem_coe.mp (Multiset.mem_of_le hle (Multiset.mem_singleton_self g))

/-! ### The service -/

lemma ids_save {c : Collection ObjectId LogMessage} {m : Entity ObjectId LogMessage}
    {x : ObjectId} (hx : x ∈ c.ids) : x ∈ (c.save m).ids := by
  obtain ⟨d, hd, rfl⟩ := List.mem_map.mp hx
  by_cases hid : d.id = c.idFor m
  · rw [hid]
    exact List.mem_map.mpr ⟨_, Collection.mem_save.mpr (.inl rfl), rfl⟩
  · exact List.mem_map.mpr ⟨d, Collection.mem_save.mpr (.inr ⟨hd, hid⟩), rfl⟩

lemma idFor_mem_save (c : Collection ObjectId LogMessage) (m : Entity ObjectId LogMessage) :
    c.idFor m ∈ (c.save m).ids :=
  List.mem_map.mpr ⟨_, Collection.mem_save.mpr (.inl rfl), rfl⟩

lemma inv_write (hs : Inv s) : Inv (write s m) := by
  unfold write
  split_ifs with hc
  · refine ⟨fun hl => ?_, hs.good, hs.plain, hs.conserved, hs.saved⟩
    rw [(hs.unplugged hl).1] at hc
    cases hc
  · exact ⟨hs.unplugged, hs.good, hs.plain, hs.conserved, fun x hx => ids_save (hs.saved x hx)⟩

/-- A call that has found the service connected puts its message into the queue, or saves its
log message. -/
lemma inv_put {j : ℕ} (hs : Inv s) (hj : s.calls[j]? = some m)
    (h : put p D first interrupted { s with calls := s.calls.eraseIdx j } m = some t) : Inv t := by
  have hl : s.listener = true := by
    rw [← Bool.not_eq_false]
    intro hl
    rw [(hs.unplugged hl).2.1] at hj
    cases hj
  have hplugged : ∀ P : Prop, s.listener = false → P := fun P hl' =>
    absurd (hl'.symm.trans hl) Bool.false_ne_true
  unfold put at h
  split at h
  · cases h
    exact ⟨fun hl' => hplugged _ hl', hs.good, hs.plain, hs.conserved, hs.saved⟩
  · cases h
    exact ⟨fun hl' => hplugged _ hl', hs.good, hs.plain, hs.conserved, hs.saved⟩
  · next layouts g hg =>
    have hplain : ∀ g' ∈ s.history.created ++ [g], g'.logMessage = none := by
      intro g' hg'
      rcases List.mem_append.mp hg' with hg' | hg'
      · exact hs.plain g' hg'
      · rw [List.mem_singleton.mp hg']
        exact created_logMessage (created_of_createMessage hg)
    have hcreated : ((s.history.created ++ [g] : List (GelfMessage Double)) :
        Multiset (GelfMessage Double)) = kept s + [g] := by
      rw [← hs.conserved]
      rfl
    split_ifs at h
    · cases h
      refine ⟨fun hl' => hplugged _ hl', hs.good, hplain, hcreated.trans ?_, ?_⟩
      · have hsaved : (((s.history.saved ++ [(s.service.messages.idFor m, g)]).map Prod.snd :
            List (GelfMessage Double)) : Multiset (GelfMessage Double)) =
            s.history.saved.map Prod.snd + [g] := by
          rw [List.map_append]
          rfl
        simp only [kept, rest, hsaved]
        abel
      · intro x hx
        rcases List.mem_append.mp hx with hx | hx
        · exact ids_save (hs.saved x hx)
        · rw [List.mem_singleton.mp hx]
          exact idFor_mem_save _ _
    · cases h
      refine ⟨fun hl' => hplugged _ hl', hs.good, hplain, hcreated.trans ?_, hs.saved⟩
      have hqueue : ((s.service.queue ++ [g] : List (GelfMessage Double)) :
          Multiset (GelfMessage Double)) = s.service.queue + [g] := rfl
      simp only [kept, rest, hqueue]
      abel

/-! ### Every run -/

lemma inv_createBootstrap (hs : Inv s) : Inv (createBootstrap s) where
  unplugged := hs.unplugged
  good := by
    intro b hb
    rcases List.mem_append.mp hb with hb | hb
    · exact hs.good b hb
    · rw [List.mem_singleton.mp hb]
      exact ⟨(fun h => nomatch h), fun _ => rfl, holds_of_none rfl, fun h => nomatch h⟩
  plain := hs.plain
  conserved := by
    have hkept : kept (createBootstrap s) = kept s := by
      simp [kept, rest, createBootstrap, held, Sender.new, Running]
    rw [hkept]
    exact hs.conserved
  saved := hs.saved

theorem inv_step {e : Event} (hs : Inv s) (hactive : OnActiveChannel s e)
    (h : step p D first s e = some t) : Inv t := by
  cases e with
  | setListener =>
    simp only [step] at h
    split_ifs at h
    cases h
    refine ⟨(by rintro ⟨⟩), fun b hb => ?_, hs.plain, hs.conserved, hs.saved⟩
    have hgood := hs.good b hb
    exact ⟨fun _ => rfl, hgood.fresh, hgood.holds, hgood.notCrashed⟩
  | write m =>
    cases h
    exact inv_write hs
  | put j interrupted =>
    obtain ⟨m, hj, h⟩ := step_put_cases h
    exact inv_put hs hj h
  | channel i e =>
    obtain ⟨b, u, b', hi, hb, rfl⟩ := step_channel_cases h
    obtain ⟨hframe, hgood, hrest⟩ := onChannel_spec hb (hs.good b (List.mem_of_getElem? hi))
    exact hs.setBootstrap hi hframe hgood hrest
  | sender i =>
    obtain ⟨b, u, b', hi, hb, rfl⟩ := step_sender_cases h
    have hmem := List.mem_of_getElem? hi
    obtain ⟨hframe, hgood, hrest⟩ := senderStep_spec hb (hs.good b hmem) (hactive b hi)
      fun g hg => hs.plain g (hs.mem_created hmem hg)
    exact hs.setBootstrap hi hframe hgood hrest
  | reconnect =>
    obtain ⟨n, -, rfl⟩ := step_reconnect_cases h
    exact inv_createBootstrap ⟨hs.unplugged, hs.good, hs.plain, hs.conserved, hs.saved⟩

/-- A thread that holds a message and finds its channel inactive is ended by an exception; if
it has found the channel active before, the message is written to nowhere. -/
theorem not_noneLost_step {e : Event} (hs : Inv s) (hactive : ¬ OnActiveChannel s e)
    (h : step p D first s e = some t) : ¬ NoneLost t := by
  cases e with
  | sender i =>
    obtain ⟨b, u, b', hi, hb, rfl⟩ := step_sender_cases h
    have hmem := List.mem_of_getElem? hi
    obtain ⟨g, hg, hinactive⟩ : ∃ g, b.sender.gelfMessage = some g ∧
        b.channel.isActive = false := by
      simp only [OnActiveChannel, not_forall] at hactive
      obtain ⟨d, hd, hsome, hinactive⟩ := hactive
      rw [hi] at hd
      cases hd
      obtain ⟨g, hg⟩ := Option.isSome_iff_exists.mp hsome
      exact ⟨g, hg, Bool.not_eq_true _ ▸ hinactive⟩
    have hcreated := hs.mem_created hmem hg
    have hplain := hs.plain g hcreated
    have hboots := (senderStep_line hb).2.1
    intro hnone
    unfold senderStep at hb
    rcases (hs.good b hmem).holds (by rw [hg]; rfl) with hp | hp
    · -- the listener is there, since there is a message
      have hl : s.listener = true := by
        rw [← Bool.not_eq_false]
        intro hl
        rw [(hs.unplugged hl).2.2] at hcreated
        exact List.not_mem_nil hcreated
      simp only [hp, hg, hinactive, failed, hl, hplain, if_true, if_false, Bool.false_eq_true]
        at hb
      cases hb
      refine hnone.notCrashed _ (List.mem_set ?_ _) rfl
      exact (List.getElem?_eq_some_iff.mp hi).1
    · simp only [hp, hg, writeAndFlush, hinactive, retrySuccessful, hplain, if_false,
        Bool.false_eq_true] at hb
      cases hb
      have hrest : rest s + held { b with sender := { b.sender with
          gelfMessage := none, point := .loop } } + {g} = rest s + held b := by
        rw [held_eq (hs.good b hmem).holds, held_eq (holds_of_none rfl), hg]
        exact congrArg (fun r => r + {g}) (add_zero (rest s))
      have hlost := kept_setBootstrap {g} hi rfl hrest
      have hle := hnone.kept
      change (s.history.created : Multiset (GelfMessage Double)) ≤ _ at hle
      rw [hs.conserved, ← hlost] at hle
      have hcard := Multiset.card_le_card hle
      simp at hcard
  | _ => exact absurd trivial hactive

lemma inv_create {layouts : LayoutCache} {messages : Collection ObjectId LogMessage}
    (h : create p layouts messages = .ok s) : Inv s := by
  unfold create at h
  split_ifs at h
  cases h
  refine inv_createBootstrap ⟨fun _ => ⟨rfl, rfl, rfl⟩, ?_, ?_, rfl, ?_⟩
  · exact fun b hb => nomatch hb
  · exact fun g hg => nomatch hg
  · exact fun x hx => nomatch hx

/-- **No message is lost exactly if no thread holds one when its channel is gone.** From a
transport that is being created, every message that was created is in the queue, held by a
running thread, written to an active channel or saved, and no thread is ended by an exception,
in every state of a run if and only if every step that a thread takes with a message in hand is
taken while its channel is active. -/
theorem noneLost_iff_onActiveChannel (p : ServerProperties) (D : Doubles Double)
    (first : FirstEntry) (layouts : LayoutCache) (messages : Collection ObjectId LogMessage)
    (s₀ s : State Double) (hcreate : create p layouts messages = .ok s₀) (l : List Event)
    (h : run (step p D first) s₀ l = some s) :
    (∀ q t, q <+: l → run (step p D first) s₀ q = some t → NoneLost t) ↔
      EachStep (step p D first) OnActiveChannel s₀ l :=
  forall_reached_iff_eachStep (I := Inv) (P := fun _ _ => True) (fun _ hs => hs.noneLost)
    (fun _ _ _ _ hs hactive h => inv_step hs hactive h)
    (fun _ _ _ _ hs hactive h => not_noneLost_step hs hactive h)
    (eachStep_of_forall (fun _ _ => trivial) s₀ l) (inv_create hcreate) h

/-- A message of one column. -/
def oneColumn : Entity ObjectId LogMessage :=
  ⟨none, .create 1 (some "u") (some "app") (some "log") none 3 0 (some "t") (some "m") none none⟩

/-- The listener is installed, and the channel is active and its handler has returned. -/
def connectEvents : List Event :=
  [.setListener, .channel 0 .connectSucceeded, .channel 0 .handle, .channel 0 .handle,
    .channel 0 .handle]

/-- The message is taken out of the queue and written. -/
def delivered : List Event :=
  connectEvents ++ [.write oneColumn, .put 0 false, .sender 0, .sender 0, .sender 0, .sender 0,
    .sender 0]

theorem noneLost_iff_onActiveChannel_delivered :
    ∃ s₀ s : State Unit, create localGraylog .empty .empty = .ok s₀ ∧
      run (step localGraylog noDoubles fun _ => none) s₀ delivered = some s ∧
      ∀ q t, q <+: delivered →
        run (step localGraylog noDoubles fun _ => none) s₀ q = some t → NoneLost t :=
  ⟨_, _, rfl, rfl, (noneLost_iff_onActiveChannel localGraylog noDoubles (fun _ => none)
    .empty .empty _ _ rfl delivered rfl).mpr (by decide)⟩

/-- The thread has taken a message and the channel is closed, before the thread looks at the
channel, or between that and the write. -/
def closedInHand (looks : ℕ) : List Event :=
  connectEvents ++ [.sender 0, .sender 0, .write oneColumn, .put 0 false, .sender 0] ++
    List.replicate looks (.sender 0) ++ [.channel 0 .closed, .sender 0]

/-- A message is lost when the channel is closed while the thread holds it: the exception of the
save ends the thread, or the write is not noticed. -/
theorem not_noneLost_closedInHand :
    ∃ s₀ s s' : State Unit, create localGraylog .empty .empty = .ok s₀ ∧
      run (step localGraylog noDoubles fun _ => none) s₀ (closedInHand 0) = some s ∧
      s.bootstraps.map (·.sender.point) = [.crashed] ∧ s.history.created.length = 1 ∧
      s.service.messages.docs = [] ∧ ¬ NoneLost s ∧
      run (step localGraylog noDoubles fun _ => none) s₀ (closedInHand 1) = some s' ∧
      s'.bootstraps.map (·.sender.point) = [.loop] ∧ s'.history.created.length = 1 ∧
      s'.service.messages.docs = [] ∧ ¬ NoneLost s' := by
  refine ⟨_, _, _, rfl, rfl, rfl, rfl, rfl, ?_, rfl, rfl, rfl, rfl, ?_⟩
  · intro hnone
    exact hnone.notCrashed _ (List.mem_singleton_self _) rfl
  · intro hnone
    exact absurd (Multiset.card_le_card hnone.kept) (by decide)

end Logful.GelfDelivery
