import Logful.GraylogClientService
import Mathlib.Data.List.Perm.Basic

/-!
The Graylog half of `retryPutQueue`, with the sender thread on a channel that stays active.

The sender reports a message as sent only if the GELF message carries its log message, and
`createMessage` never puts it there. So no record changes its status, and every tick sends
the same page of records once more.
-/

namespace Logful.GraylogRetry

open Logful.Documents Logful.Entity Logful.GlobalReference Logful.GraylogClientService

variable {Double : Type}

def PAGE_LIMIT : ℕ := 2048

abbrev Messages := Collection ObjectId LogMessage

/-- The service, and what has been written to the channel. -/
structure State (Double : Type) where
  service : Service Double
  sent : List (GelfMessage Double)

/-! ### The steps -/

def findAllNotSendLimit (c : Messages) (limit : ℕ) : List (Document ObjectId LogMessage) :=
  c.findLimit (fun m => m.status = .STATE_NORMAL) limit

/-- The loop over the records of a tick, which an exception of `createMessage` leaves. -/
def sendAll (D : Doubles Double) (first : FirstEntry) :
    List (Document ObjectId LogMessage) → Service Double → Service Double
  | [], s => s
  | logMessage :: l, s =>
    match s.write D first false none logMessage.entity with
    | (s', some _) => s'
    | (s', none) => sendAll D first l s'

def retryPutQueue (D : Doubles Double) (first : FirstEntry) (s : State Double) : State Double :=
  if s.service.connected then
    let list := findAllNotSendLimit s.service.messages PAGE_LIMIT
    { s with service := sendAll D first list s.service }
  else s

/-- A turn of the sender thread while the channel is active. -/
def senderTurn (s : State Double) : State Double :=
  match s.service.queue with
  | [] => s
  | gelfMessage :: queue =>
    let service := { s.service with queue := queue }
    { service := match gelfMessage.logMessage with
        | some logMessage => service.retrySuccessful logMessage
        | none => service
      sent := s.sent ++ [gelfMessage] }

/-- The sender thread empties the queue. -/
def drain (s : State Double) : State Double := senderTurn^[s.service.queue.length] s

/-- A tick, and the queue emptied before the next one. -/
def round (D : Doubles Double) (first : FirstEntry) (s : State Double) : State Double :=
  drain (retryPutQueue D first s)

def rounds (D : Doubles Double) (first : FirstEntry) (k : ℕ) (s : State Double) : State Double :=
  (round D first)^[k] s

/-- A connection on which nothing has been sent yet. -/
def start (layouts : LayoutCache) (messages : Messages) : State Double :=
  ⟨⟨true, layouts, [], messages⟩, []⟩

/-! ### The backlog drained once -/

/-- The records that are to be sent. -/
def backlog (messages : Messages) : List (Document ObjectId LogMessage) :=
  messages.docs.filter fun d => d.body.status = .STATE_NORMAL

/-- As many ticks as the backlog has pages. -/
def ticksNeeded (messages : Messages) : ℕ :=
  ((backlog messages).length + PAGE_LIMIT - 1) / PAGE_LIMIT

/-- From then on, every record that has a GELF message has been sent once, and is marked. -/
def DrainedOnce (D : Doubles Double) (first : FirstEntry) (layouts : LayoutCache)
    (messages : Messages) : Prop :=
  ∀ k, ticksNeeded messages ≤ k →
    (rounds D first k (start layouts messages)).sent.Perm
        ((backlog messages).filterMap fun d => created D d.body) ∧
      ∀ d ∈ backlog messages, (created D d.body).isSome →
        ∃ e ∈ (rounds D first k (start layouts messages)).service.messages.docs,
          e.id = d.id ∧ e.body.status = .STATE_SUCCESSFUL

/-! ### What a tick sends -/

/-- Creating the message of a record throws. -/
def throws (m : LogMessage) : Bool :=
  m.message = none ∨ (layoutOf m.msgLayout).toOption.isNone

/-- The messages of a page, up to a record whose message cannot be created. -/
def page (D : Doubles Double) (messages : Messages) : List (GelfMessage Double) :=
  ((findAllNotSendLimit messages PAGE_LIMIT).takeWhile fun d => !throws d.body).filterMap
    fun d => created D d.body

lemma createMessage_error_iff (D : Doubles Double) (first : FirstEntry) (c : LayoutCache)
    (m : LogMessage) : (createMessage D first c m).toOption = none ↔ throws m = true := by
  have hcache := getLayout_snd first c m.msgLayout
  unfold createMessage throws
  rw [← hcache]
  cases m.message with
  | none => simp [Except.toOption]
  | some msg => cases getLayout first c m.msgLayout <;> simp [Except.map, Except.toOption]

/-- What `write` does while the connection is up: it leaves the repository alone and puts
the message that is created, if one is. -/
lemma write_connected (D : Doubles Double) (first : FirstEntry) {s : Service Double}
    (hs : s.connected = true) (m : Entity ObjectId LogMessage) :
    (s.write D first false none m).1.connected = true ∧
      (s.write D first false none m).1.messages = s.messages ∧
      (s.write D first false none m).1.queue = s.queue ++ (created D m.body).toList ∧
      ((s.write D first false none m).2 = none ↔ throws m.body = false) := by
  have hthrows := createMessage_error_iff D first s.layouts m.body
  unfold Service.write
  rw [if_pos hs]
  rcases hc : createMessage D first s.layouts m.body with e | ⟨c, _ | g⟩
  · have hnone : created D m.body = none := by
      rw [← createMessage_created D first s.layouts m.body, hc]
      rfl
    rw [hc] at hthrows
    simp [hs, hnone, hthrows.mp rfl]
  · have hnone := created_of_createMessage hc
    have hok : throws m.body = false := by
      rw [← Bool.not_eq_true, ← hthrows, hc]
      simp [Except.toOption]
    simp [hs, hnone, hok]
  · have hsome := created_of_createMessage hc
    have hok : throws m.body = false := by
      rw [← Bool.not_eq_true, ← hthrows, hc]
      simp [Except.toOption]
    simp [hs, hsome, hok]

/-- The state between two steps: connected, the repository as it was, and no message in the
queue that carries its log message. -/
structure Unmarked (messages : Messages) (s : Service Double) : Prop where
  connected : s.connected = true
  messages : s.messages = messages
  queue : ∀ g ∈ s.queue, g.logMessage = none

variable {D : Doubles Double} {first : FirstEntry} {messages : Messages}

lemma sendAll_spec (D : Doubles Double) (first : FirstEntry)
    (l : List (Document ObjectId LogMessage)) {s : Service Double}
    (h : Unmarked messages s) : Unmarked messages (sendAll D first l s) ∧
      (sendAll D first l s).queue = s.queue ++
        (l.takeWhile fun d => !throws d.body).filterMap fun d => created D d.body := by
  induction l generalizing s with
  | nil => exact ⟨h, by simp [sendAll]⟩
  | cons d l ih =>
    obtain ⟨hconn, hmsgs, hqueue, hthrown⟩ :=
      write_connected D first h.connected d.entity
    have hnext : Unmarked messages (s.write D first false none d.entity).1 := by
      refine ⟨hconn, hmsgs.trans h.messages, fun g hg => ?_⟩
      rw [hqueue, List.mem_append, Option.mem_toList] at hg
      exact hg.elim (h.queue g) fun hg => created_logMessage hg
    rw [sendAll]
    rcases hw : s.write D first false none d.entity with ⟨s', _ | e⟩
    · rw [hw] at hnext hqueue hthrown
      have hok : throws d.body = false := hthrown.mp rfl
      obtain ⟨hu, hq⟩ := ih hnext
      refine ⟨hu, ?_⟩
      simp only [Document.entity_body] at hq hqueue
      simp only [hq, hqueue, List.takeWhile_cons, hok, Bool.not_false, if_true]
      cases hcr : created D d.body <;> simp [hcr]
    · rw [hw] at hnext hqueue hthrown
      simp only [Document.entity_body] at hqueue
      have hbad : throws d.body = true := by
        rw [← Bool.not_eq_false, ← Document.entity_body d, ← hthrown]
        simp
      have hnone : created D d.body = none := by
        have herr := (createMessage_error_iff D first s.layouts d.body).mpr hbad
        rw [← createMessage_created D first s.layouts d.body, herr]
        rfl
      refine ⟨hnext, ?_⟩
      simp [hqueue, hnone, hbad]

lemma senderTurn_iterate (n : ℕ) {s : State Double} (h : Unmarked messages s.service)
    (hn : s.service.queue.length = n) :
    Unmarked messages (senderTurn^[n] s).service ∧ (senderTurn^[n] s).service.queue = [] ∧
      (senderTurn^[n] s).sent = s.sent ++ s.service.queue := by
  induction n generalizing s with
  | zero =>
    rw [List.length_eq_zero_iff] at hn
    exact ⟨h, hn, by simp [hn]⟩
  | succ n ih =>
    obtain ⟨g, queue, hq⟩ := List.exists_cons_of_length_eq_add_one hn
    have hg : g.logMessage = none := h.queue g (by simp [hq])
    have hturn : senderTurn s = ⟨{ s.service with queue := queue }, s.sent ++ [g]⟩ := by
      simp [senderTurn, hq, hg]
    rw [Function.iterate_succ_apply, hturn]
    have hrest : Unmarked messages { s.service with queue := queue } :=
      ⟨h.connected, h.messages, fun g' hg' => h.queue g' (by simp [hq, hg'])⟩
    obtain ⟨hu, he, hsent⟩ := ih (s := ⟨{ s.service with queue := queue }, s.sent ++ [g]⟩) hrest
      (by simpa [hq] using hn)
    exact ⟨hu, he, by simp [hsent, hq]⟩

/-- **A tick sends the first page**, and changes no record. -/
lemma round_spec (D : Doubles Double) (first : FirstEntry) {s : State Double}
    (h : Unmarked messages s.service) (hq : s.service.queue = []) :
    Unmarked messages (round D first s).service ∧
      (round D first s).service.queue = [] ∧
      (round D first s).sent = s.sent ++ page D messages := by
  set list := findAllNotSendLimit s.service.messages PAGE_LIMIT with hlist
  obtain ⟨hu, hqueue⟩ := sendAll_spec D first list h
  have htick : retryPutQueue D first s = { s with service := sendAll D first list s.service } := by
    rw [retryPutQueue, if_pos h.connected]
  obtain ⟨hu', he, hsent⟩ := senderTurn_iterate _
    (s := { s with service := sendAll D first list s.service }) hu rfl
  rw [round, htick, drain]
  refine ⟨hu', he, ?_⟩
  rw [hsent, hqueue, hq, List.nil_append, hlist, h.messages]
  rfl

/-- **Every tick sends the same page again**, and no record is ever marked as sent. -/
theorem rounds_spec (D : Doubles Double) (first : FirstEntry) (layouts : LayoutCache)
    (messages : Messages) (k : ℕ) :
    (rounds D first k (start layouts messages)).service.messages = messages ∧
      (rounds D first k (start layouts messages)).sent =
        (List.replicate k (page D messages)).flatten := by
  have hall : ∀ k, Unmarked messages (rounds D first k (start layouts messages)).service ∧
      (rounds D first k (start layouts messages)).service.queue = [] ∧
      (rounds D first k (start layouts messages)).sent =
        (List.replicate k (page D messages)).flatten := by
    intro k
    induction k with
    | zero => exact ⟨⟨rfl, rfl, by simp [rounds, start]⟩, rfl, rfl⟩
    | succ k ih =>
      obtain ⟨hu, hq, hsent⟩ := ih
      obtain ⟨hu', hq', hsent'⟩ := round_spec D first hu hq
      rw [rounds, Function.iterate_succ_apply']
      refine ⟨hu', hq', ?_⟩
      rw [← rounds, hsent', hsent, List.replicate_succ', List.flatten_append]
      simp
  exact ⟨(hall k).1.messages, (hall k).2.2⟩

/-- A record with a message to send is never marked, so the backlog is not drained. -/
lemma not_drainedOnce {layouts : LayoutCache} {d : Document ObjectId LogMessage}
    (hd : d ∈ backlog messages) (hsome : (created D d.body).isSome) :
    ¬ DrainedOnce D first layouts messages := by
  intro h
  obtain ⟨-, hmarked⟩ := h (ticksNeeded messages) le_rfl
  obtain ⟨e, he, hid, hstatus⟩ := hmarked d hd hsome
  rw [(rounds_spec D first layouts messages _).1] at he
  obtain ⟨hd, hnormal⟩ := List.mem_filter.mp hd
  rw [List.inj_on_of_nodup_map messages.nodup he hd hid, decide_eq_true_eq.mp hnormal] at hstatus
  cases hstatus

/-- **The retry never drains a backlog.** It has sent every record once and marked it, from
the needed number of ticks on, if and only if no record of the backlog has a message to
send. -/
theorem drainedOnce_iff (D : Doubles Double) (first : FirstEntry) (layouts : LayoutCache)
    (messages : Messages) : DrainedOnce D first layouts messages ↔
      ∀ d ∈ backlog messages, created D d.body = none := by
  constructor
  · intro h d hd
    by_contra hne
    exact not_drainedOnce hd (Option.isSome_iff_ne_none.mpr hne) h
  · intro h k _
    have hpage : page D messages = [] := by
      rw [page, List.filterMap_eq_nil_iff]
      intro d hd
      have hd := List.takeWhile_subset _ hd
      exact h d (List.mem_filter.mpr (List.mem_filter.mp (List.mem_of_mem_take hd)))
    constructor
    · rw [(rounds_spec D first layouts messages k).2, hpage, List.filterMap_eq_nil_iff.mpr h]
      simp
    · intro d hd hsome
      rw [h d hd] at hsome
      cases hsome

/-- Numbers with no fractional values. -/
def noDoubles : Doubles Unit := ⟨fun _ => none, fun _ => ()⟩

/-- A repository with one message of one column. -/
def oneMessage : Messages where
  docs := [⟨1, .create 1 (some "u") (some "app") (some "log") none 3 0 (some "t") (some "m")
    none none⟩]
  nodup := by simp

/-- The backlog is not drained once: a single message is sent by each of two ticks and stays
unsent in the repository. -/
theorem not_drainedOnce_oneMessage :
    ¬ DrainedOnce noDoubles (fun _ => none) .empty oneMessage ∧
      (rounds noDoubles (fun _ => none) 2 (start .empty oneMessage)).sent.length = 2 ∧
      (rounds noDoubles (fun _ => none) 2 (start .empty oneMessage)).service.messages =
        oneMessage := by
  have hspec := rounds_spec noDoubles (fun _ => none) .empty oneMessage 2
  refine ⟨?_, ?_, hspec.1⟩
  · exact not_drainedOnce (d := oneMessage.docs.head (by simp [oneMessage])) (by decide) (by decide)
  · rw [hspec.2]
    decide

end Logful.GraylogRetry
