import Logful.GelfDelivery
import Logful.GelfMessageJsonEncoder

/-!
What Graylog reads on its connections.

A step of a sender thread may write a message to the channel of its bootstrap. The messages that
a run writes, each with the number of its bootstrap, are followed through the queue and the
hands of the threads back to the calls of `write`; and what was written to one channel is read
there as the encoder made it.
-/

namespace Logful.GelfStream

open Logful.BigEndian (Bytes)
open Logful.Delimited Logful.Entity Logful.GelfDelivery
open Logful.Documents (Entity ObjectId)
open Logful.GelfMessageJsonEncoder Logful.GelfTransport Logful.GlobalReference
open Logful.GraylogClientService Logful.Runs
open Logful.GraylogRetry (noDoubles)

variable {Double : Type}

/-! ### What is written -/

/-- What a step writes, and to the channel of which bootstrap. -/
def sends (s : State Double) : Event → List (ℕ × GelfMessage Double)
  | .sender i =>
    match s.bootstraps[i]? with
    | none => []
    | some b =>
      if b.sender.point = .write ∧ b.channel.isActive = true then
        b.sender.gelfMessage.toList.map fun g => (i, g)
      else []
  | _ => []

/-- What a run writes. -/
def sent (p : ServerProperties) (D : Doubles Double) (first : FirstEntry) :
    State Double → List Event → List (ℕ × GelfMessage Double)
  | _, [] => []
  | s, e :: l =>
    match step p D first s e with
    | none => []
    | some t => sends s e ++ sent p D first t l

/-- What is written to one channel. -/
def wire (i : ℕ) (trace : List (ℕ × GelfMessage Double)) : List (GelfMessage Double) :=
  (trace.filter fun x => x.1 = i).map Prod.snd

/-- What the sender threads hold. -/
def hands (s : State Double) : List (Option (GelfMessage Double)) :=
  s.bootstraps.map (·.sender.gelfMessage)

/-! ### What a step does with the messages -/

/-- The moves of a message, with what is written in them. -/
inductive Moves (s t : State Double) : List (ℕ × GelfMessage Double) → Prop
  | same (hqueue : t.service.queue = s.service.queue) (hhistory : t.history = s.history)
      (hhands : hands t = hands s) : Moves s t []
  | connected (hqueue : t.service.queue = s.service.queue) (hhistory : t.history = s.history)
      (hhands : hands t = hands s ++ [none]) : Moves s t []
  | created (g : GelfMessage Double)
      (hqueue : t.service.queue = s.service.queue ∨ t.service.queue = s.service.queue ++ [g])
      (hcreated : t.history.created = s.history.created ++ [g])
      (hwritten : t.history.written = s.history.written) (hhands : hands t = hands s) :
      Moves s t []
  | taken (i : ℕ) (g : GelfMessage Double) (hi : (hands s)[i]? = some none)
      (hqueue : s.service.queue = g :: t.service.queue) (hhistory : t.history = s.history)
      (hhands : hands t = (hands s).set i (some g)) : Moves s t []
  | dropped (i : ℕ) (g : GelfMessage Double) (hi : (hands s)[i]? = some (some g))
      (hqueue : t.service.queue = s.service.queue) (hhistory : t.history = s.history)
      (hhands : hands t = (hands s).set i none) : Moves s t []
  | written (i : ℕ) (g : GelfMessage Double) (hi : (hands s)[i]? = some (some g))
      (hqueue : t.service.queue = s.service.queue)
      (hcreated : t.history.created = s.history.created)
      (hwritten : t.history.written = s.history.written ++ [g])
      (hhands : hands t = (hands s).set i none) : Moves s t [(i, g)]

variable {p : ServerProperties} {D : Doubles Double} {first : FirstEntry} {s t u : State Double}
variable {b b' : Bootstrap Double} {i : ℕ} {trace : List (ℕ × GelfMessage Double)}

lemma hands_setBootstrap (hboots : u.bootstraps = s.bootstraps) :
    hands (State.setBootstrap i (u, b')) = (hands s).set i b'.sender.gelfMessage := by
  simp [hands, State.setBootstrap, hboots, List.map_set]

lemma getElem?_hands (hi : s.bootstraps[i]? = some b) :
    (hands s)[i]? = some b.sender.gelfMessage := by
  rw [hands, List.getElem?_map, hi]
  rfl

/-- A step at a bootstrap that leaves the hand of its thread alone. -/
lemma hands_same (hi : s.bootstraps[i]? = some b) (hboots : u.bootstraps = s.bootstraps)
    (hhand : b'.sender.gelfMessage = b.sender.gelfMessage) :
    hands (State.setBootstrap i (u, b')) = hands s := by
  rw [hands_setBootstrap hboots, hhand]
  obtain ⟨hlt, hb⟩ := List.getElem?_eq_some_iff.mp (getElem?_hands hi)
  rw [← hb, List.set_getElem_self]

/-- The handlers have nothing to do with the messages. -/
lemma onChannel_same {e : ChannelEvent} (h : onChannel s b e = some (u, b')) :
    (u.service.queue = s.service.queue ∧ u.history = s.history ∧ u.calls = s.calls) ∧
      u.bootstraps = s.bootstraps ∧ b'.sender.gelfMessage = b.sender.gelfMessage := by
  cases e with
  | connectFailed | connectSucceeded | closed =>
    simp only [onChannel] at h
    split_ifs at h
    cases h
    exact ⟨⟨rfl, rfl, rfl⟩, rfl, rfl⟩
  | handle =>
    simp only [onChannel, handle] at h
    split at h
    all_goals
      cases h
      try exact ⟨⟨rfl, rfl, rfl⟩, rfl, rfl⟩

lemma failed_same (g : GelfMessage Double) :
    ((failed s b g).1.service.queue = s.service.queue ∧ (failed s b g).1.history = s.history ∧
        (failed s b g).1.calls = s.calls) ∧
      (failed s b g).1.bootstraps = s.bootstraps ∧
      (failed s b g).2.sender.gelfMessage = b.sender.gelfMessage := by
  unfold failed
  split_ifs
  · cases g.logMessage <;> exact ⟨⟨rfl, rfl, rfl⟩, rfl, rfl⟩
  · exact ⟨⟨rfl, rfl, rfl⟩, rfl, rfl⟩

lemma retrySuccessful_same (g : GelfMessage Double) :
    ((retrySuccessful s g).service.queue = s.service.queue ∧
        (retrySuccessful s g).history = s.history ∧ (retrySuccessful s g).calls = s.calls) ∧
      (retrySuccessful s g).bootstraps = s.bootstraps := by
  unfold retrySuccessful
  cases g.logMessage with
  | none => exact ⟨⟨rfl, rfl, rfl⟩, rfl⟩
  | some m =>
    simp only
    split_ifs
    · unfold Service.retrySuccessful
      cases m.id <;> exact ⟨⟨rfl, rfl, rfl⟩, rfl⟩
    · exact ⟨⟨rfl, rfl, rfl⟩, rfl⟩

/-- A thread that goes on with what it has in the hand. -/
lemma moves_on (hi : s.bootstraps[i]? = some b) (hqueue : u.service.queue = s.service.queue)
    (hhistory : u.history = s.history) (hboots : u.bootstraps = s.bootstraps)
    (hhand : b'.sender.gelfMessage = b.sender.gelfMessage) :
    Moves s (State.setBootstrap i (u, b')) [] :=
  .same hqueue hhistory (hands_same hi hboots hhand)

/-- What one statement of a sender thread does: only in `write` is anything written. -/
lemma sender_moves (hi : s.bootstraps[i]? = some b) (h : senderStep s b = some (u, b')) :
    Moves s (State.setBootstrap i (u, b')) (sends s (.sender i)) := by
  have hquiet : b.sender.point ≠ .write → sends s (.sender i) = [] := by
    intro hp
    simp [sends, hi, hp]
  unfold senderStep at h
  cases hp : b.sender.point with
  | notStarted | ended | crashed => simp [hp] at h
  | loop | wait =>
    rw [hquiet (by rw [hp]; decide)]
    simp only [hp] at h
    cases h
    exact moves_on hi rfl rfl rfl rfl
  | await =>
    rw [hquiet (by rw [hp]; decide)]
    simp only [hp] at h
    split_ifs at h <;> cases h <;> exact moves_on hi rfl rfl rfl rfl
  | poll =>
    rw [hquiet (by rw [hp]; decide)]
    simp only [hp] at h
    split at h
    · cases h
      exact moves_on hi rfl rfl rfl rfl
    · next hnone =>
      split_ifs at h
      · cases h
        exact moves_on hi rfl rfl rfl rfl
      · split at h
        · cases h
          exact moves_on hi rfl rfl rfl rfl
        · next g queue hqueue =>
          cases h
          refine .taken i g ?_ hqueue rfl (hands_setBootstrap rfl)
          rw [getElem?_hands hi, hnone]
  | check =>
    rw [hquiet (by rw [hp]; decide)]
    simp only [hp] at h
    split at h
    · cases h
      exact moves_on hi rfl rfl rfl rfl
    · next g hg =>
      split_ifs at h
      · cases h
        exact moves_on hi rfl rfl rfl rfl
      · obtain ⟨rfl, rfl⟩ := Prod.mk.inj (Option.some_inj.mp h)
        obtain ⟨⟨hqueue, hhistory, -⟩, hboots, hhand⟩ := failed_same (s := s) (b := b) g
        exact moves_on hi hqueue hhistory hboots hhand
  | write =>
    simp only [hp] at h
    split at h
    · next hnone =>
      have hempty : sends s (.sender i) = [] := by simp [sends, hi, hnone]
      rw [hempty]
      cases h
      exact moves_on hi rfl rfl rfl rfl
    · next g hg =>
      obtain ⟨rfl, rfl⟩ := Prod.mk.inj (Option.some_inj.mp h)
      obtain ⟨⟨hqueue, hhistory, -⟩, hboots⟩ :=
        retrySuccessful_same (s := writeAndFlush s b.channel g) g
      have hflush : (writeAndFlush s b.channel g).service.queue = s.service.queue ∧
          (writeAndFlush s b.channel g).bootstraps = s.bootstraps := by
        unfold writeAndFlush
        split_ifs <;> exact ⟨rfl, rfl⟩
      have hhand : (hands s)[i]? = some (some g) := by rw [getElem?_hands hi, hg]
      by_cases hactive : b.channel.isActive = true
      · have hsends : sends s (.sender i) = [(i, g)] := by simp [sends, hi, hp, hactive, hg]
        have hwrote : (writeAndFlush s b.channel g).history =
            { s.history with written := s.history.written ++ [g] } := by
          rw [writeAndFlush, if_pos hactive]
        rw [hsends]
        exact .written i g hhand (hqueue.trans hflush.1)
          (by rw [State.setBootstrap, hhistory, hwrote])
          (by rw [State.setBootstrap, hhistory, hwrote])
          (hands_setBootstrap (hboots.trans hflush.2))
      · have hsends : sends s (.sender i) = [] := by simp [sends, hi, hactive]
        have hwrote : (writeAndFlush s b.channel g).history = s.history := by
          rw [writeAndFlush, if_neg hactive]
        rw [hsends]
        exact .dropped i g hhand (hqueue.trans hflush.1) (hhistory.trans hwrote)
          (hands_setBootstrap (hboots.trans hflush.2))

/-- **What a step does with the messages.** -/
lemma step_moves {e : Event} (h : step p D first s e = some t) : Moves s t (sends s e) := by
  cases e with
  | setListener =>
    simp only [step] at h
    split_ifs at h
    cases h
    exact .same rfl rfl rfl
  | write m =>
    cases h
    unfold write
    split_ifs <;> exact .same rfl rfl rfl
  | put j interrupted =>
    obtain ⟨m, hj, hput⟩ := step_put_cases h
    unfold put at hput
    split at hput
    · cases hput
      exact .same rfl rfl rfl
    · cases hput
      exact .same rfl rfl rfl
    · next layouts g hcreate =>
      split_ifs at hput
      · cases hput
        exact .created g (.inl rfl) rfl rfl rfl
      · cases hput
        exact .created g (.inr rfl) rfl rfl rfl
  | channel i e =>
    obtain ⟨b, u, b', hi, hb, rfl⟩ := step_channel_cases h
    obtain ⟨⟨hqueue, hhistory, -⟩, hboots, hhand⟩ := onChannel_same hb
    exact moves_on hi hqueue hhistory hboots hhand
  | sender i =>
    obtain ⟨b, u, b', hi, hb, rfl⟩ := step_sender_cases h
    exact sender_moves hi hb
  | reconnect =>
    obtain ⟨n, hn, rfl⟩ := step_reconnect_cases h
    refine .connected rfl rfl ?_
    simp [hands, createBootstrap, Sender.new]

/-! ### Each message once, and in order -/

/-- What has been written to a channel, then what its thread holds, then the queue, come in the
order of their creation; and all that was written, is held or is in the queue was created. -/
structure Inv (trace : List (ℕ × GelfMessage Double)) (s : State Double) : Prop where
  ordered : ∀ i, (wire i trace ++ ((hands s)[i]?.bind id).toList ++ s.service.queue).Sublist
    s.history.created
  once : ((trace.map Prod.snd : List (GelfMessage Double)) : Multiset (GelfMessage Double)) +
    ((hands s).map fun hand => (hand.toList : Multiset (GelfMessage Double))).sum +
    s.service.queue ≤ s.history.created

lemma Moves.written_eq {out : List (ℕ × GelfMessage Double)} (h : Moves s t out) :
    t.history.written = s.history.written ++ out.map Prod.snd := by
  cases h with
  | same _ hhistory | connected _ hhistory | taken _ _ _ _ hhistory | dropped _ _ _ _ hhistory =>
    rw [hhistory]
    exact (List.append_nil _).symm
  | created _ _ _ hwritten => rw [hwritten]; exact (List.append_nil _).symm
  | written _ _ _ _ _ hwritten => exact hwritten

lemma wire_append (i : ℕ) (trace trace' : List (ℕ × GelfMessage Double)) :
    wire i (trace ++ trace') = wire i trace ++ wire i trace' := by
  simp [wire]

/-- A free hand takes a message. -/
lemma sum_hands_take {hands : List (Option (GelfMessage Double))} (hi : hands[i]? = some none)
    (g : GelfMessage Double) :
    ((hands.set i (some g)).map fun hand =>
        (hand.toList : Multiset (GelfMessage Double))).sum =
      (hands.map fun hand => (hand.toList : Multiset (GelfMessage Double))).sum + {g} := by
  have hsum := sum_map_set_add
    (fun hand => (Option.toList hand : Multiset (GelfMessage Double))) (some g) hi
  have hnone : ((none : Option (GelfMessage Double)).toList :
    Multiset (GelfMessage Double)) = 0 := rfl
  rwa [hnone, add_zero] at hsum

/-- A hand lets go of its message. -/
lemma sum_hands_release {hands : List (Option (GelfMessage Double))} {g : GelfMessage Double}
    (hi : hands[i]? = some (some g)) :
    ((hands.set i none).map fun hand =>
        (hand.toList : Multiset (GelfMessage Double))).sum + {g} =
      (hands.map fun hand => (hand.toList : Multiset (GelfMessage Double))).sum := by
  have hsum := sum_map_set_add
    (fun hand => (Option.toList hand : Multiset (GelfMessage Double))) none hi
  have hnone : ((none : Option (GelfMessage Double)).toList :
    Multiset (GelfMessage Double)) = 0 := rfl
  rwa [hnone, add_zero] at hsum

/-- Behind its move a hand is what it has become; the others are as they were. -/
lemma getElem?_hands_set {hands hands' : List (Option (GelfMessage Double))}
    {old hand : Option (GelfMessage Double)} (hi : hands[i]? = some old)
    (h : hands' = hands.set i hand) (j : ℕ) :
    hands'[j]? = if j = i then some hand else hands[j]? := by
  rw [h]
  split_ifs with hij
  · rw [hij, List.getElem?_set_self (List.getElem?_eq_some_iff.mp hi).1]
  · exact List.getElem?_set_ne (Ne.symm hij)

lemma ordered_moves {out : List (ℕ × GelfMessage Double)} (hs : Inv trace s) (h : Moves s t out)
    (j : ℕ) : (wire j (trace ++ out) ++ ((hands t)[j]?.bind id).toList ++ t.service.queue).Sublist
      t.history.created := by
  have hj := hs.ordered j
  cases h with
  | same hqueue hhistory hhands =>
    rw [List.append_nil, hhands, hqueue, congrArg History.created hhistory]
    exact hj
  | connected hqueue hhistory hhands =>
    have hhand : ((hands t)[j]?.bind id) = ((hands s)[j]?.bind id) := by
      rw [hhands]
      rcases Nat.lt_trichotomy j (hands s).length with hlt | heq | hgt
      · rw [List.getElem?_append_left hlt]
      · rw [heq, List.getElem?_concat_length, List.getElem?_eq_none (Nat.le_refl _)]
        rfl
      · rw [List.getElem?_eq_none (by simp; omega), List.getElem?_eq_none (by omega)]
    rw [List.append_nil, hhand, hqueue, congrArg History.created hhistory]
    exact hj
  | created g hqueue hcreated hwritten hhands =>
    rw [List.append_nil, hhands, hcreated]
    rcases hqueue with hqueue | hqueue
    · rw [hqueue]
      exact hj.trans (List.sublist_append_left _ _)
    · rw [hqueue, ← List.append_assoc]
      exact hj.append (List.Sublist.refl [g])
  | taken i g hi hqueue hhistory hhands =>
    rw [hqueue] at hj
    rw [List.append_nil, congrArg History.created hhistory, getElem?_hands_set hi hhands]
    split_ifs with hij
    · rw [hij, hi] at hj
      rw [hij]
      simpa using hj
    · exact (List.Sublist.append_left (List.sublist_cons_self g _) _).trans hj
  | dropped i g hi hqueue hhistory hhands =>
    rw [List.append_nil, congrArg History.created hhistory, hqueue, getElem?_hands_set hi hhands]
    split_ifs with hij
    · rw [hij, hi] at hj
      rw [hij]
      refine List.Sublist.trans (List.Sublist.append ?_ (List.Sublist.refl _)) hj
      exact List.Sublist.append_left (List.nil_sublist _) _
    · exact hj
  | written i g hi hqueue hcreated hwritten hhands =>
    rw [hcreated, hqueue, wire_append, getElem?_hands_set hi hhands]
    split_ifs with hij
    · rw [hij, hi] at hj
      rw [hij]
      simpa [wire] using hj
    · have hnone : wire j [(i, g)] = [] := by simp [wire, Ne.symm hij]
      rw [hnone, List.append_nil]
      exact hj

lemma once_moves {out : List (ℕ × GelfMessage Double)} (hs : Inv trace s) (h : Moves s t out) :
    (((trace ++ out).map Prod.snd : List (GelfMessage Double)) : Multiset (GelfMessage Double)) +
      ((hands t).map fun hand => (hand.toList : Multiset (GelfMessage Double))).sum +
      t.service.queue ≤ t.history.created := by
  have honce := hs.once
  cases h with
  | same hqueue hhistory hhands =>
    rw [List.append_nil, hhands, hqueue, congrArg History.created hhistory]
    exact honce
  | connected hqueue hhistory hhands =>
    rw [List.append_nil, hhands, hqueue, congrArg History.created hhistory, List.map_append,
      List.sum_append]
    simpa using honce
  | created g hqueue hcreated hwritten hhands =>
    have hadd : ((s.history.created ++ [g] : List (GelfMessage Double)) :
        Multiset (GelfMessage Double)) = s.history.created + {g} := rfl
    rw [List.append_nil, hhands, hcreated, hadd]
    rcases hqueue with hqueue | hqueue
    · rw [hqueue]
      exact honce.trans (Multiset.le_add_right _ _)
    · have hq : ((s.service.queue ++ [g] : List (GelfMessage Double)) :
          Multiset (GelfMessage Double)) = s.service.queue + {g} := rfl
      rw [hqueue, hq, ← add_assoc]
      exact add_le_add honce (le_refl _)
  | taken i g hi hqueue hhistory hhands =>
    have hq : ((g :: t.service.queue : List (GelfMessage Double)) :
        Multiset (GelfMessage Double)) = {g} + t.service.queue := rfl
    rw [hqueue, hq, ← add_assoc] at honce
    rw [List.append_nil, hhands, congrArg History.created hhistory, sum_hands_take hi g,
      ← add_assoc]
    exact honce
  | dropped i g hi hqueue hhistory hhands =>
    rw [List.append_nil, hhands, congrArg History.created hhistory, hqueue]
    rw [← sum_hands_release hi] at honce
    exact (add_le_add (add_le_add (le_refl _) (Multiset.le_add_right _ _)) (le_refl _)).trans honce
  | written i g hi hqueue hcreated hwritten hhands =>
    have hout : (((trace ++ [(i, g)]).map Prod.snd : List (GelfMessage Double)) :
        Multiset (GelfMessage Double)) = trace.map Prod.snd + {g} := by
      rw [List.map_append]
      rfl
    rw [← sum_hands_release hi] at honce
    rw [hhands, hcreated, hqueue, hout]
    refine le_trans (le_of_eq ?_) honce
    abel

lemma inv_moves {out : List (ℕ × GelfMessage Double)} (hs : Inv trace s) (h : Moves s t out) :
    Inv (trace ++ out) t :=
  ⟨ordered_moves hs h, once_moves hs h⟩

/-- A run adds what it writes to what was written before. -/
lemma inv_run {l : List Event} (hs : Inv trace s) (h : run (step p D first) s l = some t) :
    Inv (trace ++ sent p D first s l) t := by
  induction l generalizing s trace with
  | nil =>
    cases h
    simpa [sent] using hs
  | cons e l ih =>
    obtain ⟨u, hstep, hrun⟩ := (run_cons_eq_some _).mp h
    have hnext := ih (inv_moves hs (step_moves hstep)) hrun
    rw [List.append_assoc] at hnext
    simpa [sent, hstep] using hnext

lemma written_run {l : List Event} (h : run (step p D first) s l = some t) :
    t.history.written = s.history.written ++ (sent p D first s l).map Prod.snd := by
  induction l generalizing s with
  | nil =>
    cases h
    exact (List.append_nil _).symm
  | cons e l ih =>
    obtain ⟨u, hstep, hrun⟩ := (run_cons_eq_some _).mp h
    rw [ih hrun, (step_moves hstep).written_eq]
    simp [sent, hstep]

/-! ### Nothing that was not asked for -/

/-- Every call of `write`, and every message that was created, is of one of these log messages. -/
structure Asked (D : Doubles Double) (asked : Entity ObjectId LogMessage → Prop)
    (s : State Double) : Prop where
  calls : ∀ m ∈ s.calls, asked m
  created : ∀ g ∈ s.history.created, ∃ m, asked m ∧ created D m.body = some g

/-- The event hands over one of these, if it is a call of `write`. -/
def Asks (asked : Entity ObjectId LogMessage → Prop) : Event → Prop
  | .write m => asked m
  | _ => True

variable {asked : Entity ObjectId LogMessage → Prop}

lemma asked_of_same (hs : Asked D asked s) (hcalls : t.calls = s.calls)
    (hcreated : t.history.created = s.history.created) : Asked D asked t :=
  ⟨hcalls ▸ hs.calls, hcreated ▸ hs.created⟩

/-- A sender thread makes no calls and creates nothing. -/
lemma senderStep_same (h : senderStep s b = some (u, b')) :
    u.calls = s.calls ∧ u.history.created = s.history.created := by
  unfold senderStep at h
  cases hp : b.sender.point with
  | notStarted | ended | crashed => simp [hp] at h
  | loop | wait =>
    simp only [hp] at h
    cases h
    exact ⟨rfl, rfl⟩
  | await =>
    simp only [hp] at h
    split_ifs at h <;> cases h <;> exact ⟨rfl, rfl⟩
  | poll =>
    simp only [hp] at h
    split at h
    · cases h
      exact ⟨rfl, rfl⟩
    · split_ifs at h
      · cases h
        exact ⟨rfl, rfl⟩
      · split at h <;> cases h <;> exact ⟨rfl, rfl⟩
  | check =>
    simp only [hp] at h
    split at h
    · cases h
      exact ⟨rfl, rfl⟩
    · next g hg =>
      split_ifs at h
      · cases h
        exact ⟨rfl, rfl⟩
      · obtain ⟨rfl, rfl⟩ := Prod.mk.inj (Option.some_inj.mp h)
        obtain ⟨⟨-, hhistory, hcalls⟩, -⟩ := failed_same (s := s) (b := b) g
        exact ⟨hcalls, congrArg History.created hhistory⟩
  | write =>
    simp only [hp] at h
    split at h
    · cases h
      exact ⟨rfl, rfl⟩
    · next g hg =>
      obtain ⟨rfl, rfl⟩ := Prod.mk.inj (Option.some_inj.mp h)
      obtain ⟨⟨-, hhistory, hcalls⟩, -⟩ :=
        retrySuccessful_same (s := writeAndFlush s b.channel g) g
      have hflush : (writeAndFlush s b.channel g).calls = s.calls ∧
          (writeAndFlush s b.channel g).history.created = s.history.created := by
        unfold writeAndFlush
        split_ifs <;> exact ⟨rfl, rfl⟩
      exact ⟨hcalls.trans hflush.1, (congrArg History.created hhistory).trans hflush.2⟩

lemma asked_step {e : Event} (hs : Asked D asked s) (he : Asks asked e)
    (h : step p D first s e = some t) : Asked D asked t := by
  cases e with
  | setListener =>
    simp only [step] at h
    split_ifs at h
    cases h
    exact asked_of_same hs rfl rfl
  | write m =>
    cases h
    unfold write
    split_ifs
    · refine ⟨fun n hn => ?_, hs.created⟩
      rcases List.mem_append.mp hn with hn | hn
      · exact hs.calls n hn
      · rw [List.mem_singleton.mp hn]
        exact he
    · exact asked_of_same hs rfl rfl
  | put j interrupted =>
    obtain ⟨m, hj, hput⟩ := step_put_cases h
    have hm : asked m := hs.calls m (List.mem_of_getElem? hj)
    have hcalls : ∀ n ∈ s.calls.eraseIdx j, asked n :=
      fun n hn => hs.calls n (List.mem_of_mem_eraseIdx hn)
    unfold put at hput
    split at hput
    · cases hput
      exact ⟨hcalls, hs.created⟩
    · cases hput
      exact ⟨hcalls, hs.created⟩
    · next layouts g hcreate =>
      have hcreated : ∀ g' ∈ s.history.created ++ [g], ∃ m, asked m ∧
          created D m.body = some g' := by
        intro g' hg'
        rcases List.mem_append.mp hg' with hg' | hg'
        · exact hs.created g' hg'
        · rw [List.mem_singleton.mp hg']
          exact ⟨m, hm, created_of_createMessage hcreate⟩
      split_ifs at hput
      · cases hput
        exact ⟨hcalls, hcreated⟩
      · cases hput
        exact ⟨hcalls, hcreated⟩
  | channel i e =>
    obtain ⟨b, u, b', hi, hb, rfl⟩ := step_channel_cases h
    obtain ⟨⟨-, hhistory, hcalls⟩, -⟩ := onChannel_same hb
    exact asked_of_same hs hcalls (congrArg History.created hhistory)
  | sender i =>
    obtain ⟨b, u, b', hi, hb, rfl⟩ := step_sender_cases h
    obtain ⟨hcalls, hcreated⟩ := senderStep_same hb
    exact asked_of_same hs hcalls hcreated
  | reconnect =>
    obtain ⟨n, hn, rfl⟩ := step_reconnect_cases h
    exact asked_of_same hs rfl rfl

/-! ### What Graylog reads -/

lemma inv_create {layouts : LayoutCache} {messages : Documents.Collection ObjectId LogMessage}
    (h : create p layouts messages = .ok s) :
    Inv [] s ∧ Asked D asked s ∧ s.history.written = [] := by
  unfold create at h
  split_ifs at h
  cases h
  refine ⟨⟨fun i => ?_, le_of_eq rfl⟩, ⟨fun m hm => (nomatch hm), fun g hg => (nomatch hg)⟩, rfl⟩
  have hhand : ((hands (createBootstrap ⟨⟨false, layouts, [], messages⟩, false, [], 0, [],
      ⟨[], [], []⟩⟩ : State Double))[i]?.bind id) = none := by
    rcases i with _ | i <;> rfl
  rw [hhand]
  exact List.nil_sublist _

/-- **What Graylog reads.** In every run from a transport that is being created: what is written
to a channel is written in the order in which it was created; over all channels no message is
written more often than it was created, and each was created from a log message that was handed
to `write`; and whatever beginning of the stream of a channel has come, Graylog has read the
first messages of the channel, each with its own members. -/
theorem read_of_run (J : JsonGenerator Double) (p : ServerProperties) (D : Doubles Double)
    (first : FirstEntry) (layouts : LayoutCache)
    (messages : Documents.Collection ObjectId LogMessage) (s₀ s : State Double)
    (hcreate : create p layouts messages = .ok s₀) (l : List Event)
    (h : run (step p D first) s₀ l = some s) :
    (∀ i, (wire i (sent p D first s₀ l)).Sublist s.history.created) ∧
    ((sent p D first s₀ l).map Prod.snd = s.history.written ∧
      (s.history.written : Multiset (GelfMessage Double)) ≤ s.history.created) ∧
    (∀ g ∈ s.history.created, ∃ m, .write m ∈ l ∧ created D m.body = some g) ∧
    ∀ i bytes, bytes <+: streamOf J ((wire i (sent p D first s₀ l)).map .ofCreated) →
      ∃ k, (receive 0 bytes).frames.map J.read =
        ((wire i (sent p D first s₀ l)).take k).map fun g => some (members J (.ofCreated g)) := by
  obtain ⟨hinv, -, hempty⟩ : Inv [] s₀ ∧ Asked D (fun _ => True) s₀ ∧ s₀.history.written = [] :=
    inv_create hcreate
  have hasked : Asked D (fun m => .write m ∈ l) s₀ := (inv_create hcreate).2.1
  have hrun := inv_run hinv h
  rw [List.nil_append] at hrun
  have hwritten := written_run h
  rw [hempty, List.nil_append] at hwritten
  have hevents : EachStep (step p D first) (fun _ e => Asks (fun m => .write m ∈ l) e) s₀ l := by
    refine eachStep_of_forall_mem (fun e he _ => ?_) s₀
    cases e with
    | write m => exact he
    | _ => trivial
  refine ⟨fun i => ?_, ⟨hwritten.symm, ?_⟩, ?_, fun i bytes hbytes => ?_⟩
  · refine List.Sublist.trans ?_ (hrun.ordered i)
    rw [List.append_assoc]
    exact List.sublist_append_left _ _
  · rw [hwritten]
    refine le_trans ?_ hrun.once
    rw [add_assoc]
    exact Multiset.le_add_right _ _
  · exact (run_invariant_of_eachStep (I := Asked D fun m => .write m ∈ l)
      (fun _ _ _ he hs hv => asked_step hs he hv) hevents hasked h).created
  · obtain ⟨k, -, hk⟩ := (receive_streamOf J _).1 bytes hbytes
    refine ⟨k, hk.trans ?_⟩
    rw [← List.map_take, List.map_map]
    rfl

theorem read_of_run_delivered :
    ∃ s₀ s : State Unit, create localGraylog .empty .empty = .ok s₀ ∧
      run (step localGraylog noDoubles fun _ => none) s₀ delivered = some s ∧
      wire 0 (sent localGraylog noDoubles (fun _ => none) s₀ delivered) ≠ [] ∧
      (wire 0 (sent localGraylog noDoubles (fun _ => none) s₀ delivered)).Sublist
        s.history.created ∧
      ∀ g ∈ s.history.created, ∃ m, .write m ∈ delivered ∧ created noDoubles m.body = some g :=
  have h := read_of_run plainGenerator localGraylog noDoubles (fun _ => none) .empty .empty _ _ rfl
    delivered rfl
  ⟨_, _, rfl, rfl, List.cons_ne_nil _ _, h.1 0, h.2.2.1⟩

end Logful.GelfStream
