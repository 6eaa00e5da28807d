import Mathlib.Data.List.Infix
import Mathlib.Data.List.Lemmas
import Mathlib.Tactic.Common

/-!
Streams of frames that end with a delimiter, and the receiver of such a stream.

The receiver takes one element after another, so what it has does not depend on how the stream
was cut into segments on its way.
-/

namespace Logful.Delimited

variable {α : Type} [DecidableEq α] {d : α}

/-- The frames that have come to their end, and what has come of the next one. -/
structure Receiver (α : Type) where
  frames : List (List α)
  pending : List α

def Receiver.feed (d : α) (r : Receiver α) (a : α) : Receiver α :=
  if a = d then ⟨r.frames ++ [r.pending], []⟩ else { r with pending := r.pending ++ [a] }

def Receiver.feedAll (d : α) (r : Receiver α) (l : List α) : Receiver α := l.foldl (.feed d) r

/-- What the receiver has of a stream. -/
def receive (d : α) (l : List α) : Receiver α := Receiver.feedAll d ⟨[], []⟩ l

/-- The stream of frames. -/
def stream (d : α) (frames : List (List α)) : List α := frames.flatMap (· ++ [d])

lemma Receiver.feedAll_append (r : Receiver α) (l m : List α) :
    r.feedAll d (l ++ m) = (r.feedAll d l).feedAll d m := by
  simp [feedAll, List.foldl_append]

/-- **Segments.** However the stream is cut, the receiver has the same in the end. -/
theorem receive_flatten (segments : List (List α)) :
    segments.foldl (Receiver.feedAll d) ⟨[], []⟩ = receive d segments.flatten := by
  have hfold : ∀ r : Receiver α, segments.foldl (Receiver.feedAll d) r =
      r.feedAll d segments.flatten := by
    induction segments with
    | nil => intro r; rfl
    | cons l segments ih =>
      intro r
      rw [List.foldl_cons, ih, List.flatten_cons, Receiver.feedAll_append]
  exact hfold _

lemma feedAll_of_notMem (r : Receiver α) {l : List α} (h : d ∉ l) :
    r.feedAll d l = { r with pending := r.pending ++ l } := by
  induction l generalizing r with
  | nil => simp [Receiver.feedAll]
  | cons a l ih =>
    rw [List.mem_cons, not_or] at h
    have hfeed : r.feed d a = { r with pending := r.pending ++ [a] } :=
      if_neg (Ne.symm h.1)
    change (r.feed d a).feedAll d l = _
    rw [hfeed, ih _ h.2]
    simp

lemma feedAll_stream (r : Receiver α) (hr : r.pending = []) {frames : List (List α)}
    (h : ∀ f ∈ frames, d ∉ f) :
    r.feedAll d (stream d frames) = ⟨r.frames ++ frames, []⟩ := by
  induction frames generalizing r with
  | nil =>
    obtain ⟨done, pending⟩ := r
    simp only at hr
    subst hr
    simp [stream, Receiver.feedAll]
  | cons f frames ih =>
    have hf : d ∉ f := h f List.mem_cons_self
    have hend : r.feedAll d (f ++ [d]) = ⟨r.frames ++ [f], []⟩ := by
      rw [Receiver.feedAll_append, feedAll_of_notMem r hf, hr]
      simp [Receiver.feedAll, Receiver.feed]
    have hcons : stream d (f :: frames) = f ++ [d] ++ stream d frames := rfl
    rw [hcons, Receiver.feedAll_append, hend,
      ih _ rfl fun g hg => h g (List.mem_cons_of_mem f hg)]
    simp

/-- **Round trip.** Frames without the delimiter are received as they were sent. -/
theorem receive_stream {frames : List (List α)} (h : ∀ f ∈ frames, d ∉ f) :
    receive d (stream d frames) = ⟨frames, []⟩ :=
  feedAll_stream ⟨[], []⟩ rfl h

/-- What has come to its end stays so. -/
lemma frames_prefix_feedAll (r : Receiver α) (l : List α) :
    r.frames <+: (r.feedAll d l).frames := by
  induction l generalizing r with
  | nil => exact List.prefix_rfl
  | cons a l ih =>
    refine List.IsPrefix.trans ?_ (ih (r.feed d a))
    unfold Receiver.feed
    split_ifs
    · exact List.prefix_append _ _
    · exact List.prefix_rfl

/-- **A stream that is cut off.** The frames received of it are the first of those sent. -/
theorem frames_prefix_of_prefix {frames : List (List α)} {l : List α}
    (h : ∀ f ∈ frames, d ∉ f) (hl : l <+: stream d frames) :
    (receive d l).frames <+: frames := by
  obtain ⟨rest, hrest⟩ := hl
  have hall := receive_stream h
  rw [← hrest, receive, Receiver.feedAll_append] at hall
  have hprefix := frames_prefix_feedAll (d := d) (receive d l) rest
  rw [receive, hall] at hprefix
  exact hprefix

end Logful.Delimited
