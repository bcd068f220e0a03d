import KartStack.Transitions
import Mathlib.Data.List.Induction

/-! # Messages on topics

Messages go out on topics.  Those of one topic arrive in the order sent, those of
different topics in any order; a queue that is full drops its oldest messages, so
that some may be missing, but never the last one of a topic (`Delivered`).

A receiver that keeps what it got last on each topic, and in which the topics do not
interfere, ends up with the last message of each (`holds_of_last`).
-/
namespace KartStack.TopicOrder
open Transitions

variable {T M : Type} [DecidableEq T] (topic : M → T)

/-- The messages on a topic. -/
def onTopic (t : T) (ms : List M) : List M := ms.filter fun m => topic m = t

/-- The last message on a topic. -/
def lastOn (t : T) (ms : List M) : Option M := (onTopic topic t ms).getLast?

/-- What is received of the messages sent: on each topic some of them, in order, the
last among them. -/
def Delivered (sent received : List M) : Prop :=
  ∀ t, (onTopic topic t received).Sublist (onTopic topic t sent) ∧
    lastOn topic t received = lastOn topic t sent

theorem Delivered.refl (ms : List M) : Delivered topic ms ms := fun _ => ⟨List.Sublist.refl _, rfl⟩

variable {topic}

/-- What is received was sent. -/
theorem Delivered.mem {sent received : List M} (h : Delivered topic sent received) {m : M}
    (hm : m ∈ received) : m ∈ sent := by
  have hon : m ∈ onTopic topic (topic m) received := List.mem_filter.mpr ⟨hm, by simp⟩
  exact (List.mem_filter.mp ((h (topic m)).1.subset hon)).1

theorem lastOn_append_self (ms : List M) (m : M) :
    lastOn topic (topic m) (ms ++ [m]) = some m := by
  have hself : [m].filter (fun m' => topic m' = topic m) = [m] := by simp
  rw [lastOn, onTopic, List.filter_append, hself, List.getLast?_append]
  rfl

theorem lastOn_append_of_ne {t : T} {m : M} (h : topic m ≠ t) (ms : List M) :
    lastOn topic t (ms ++ [m]) = lastOn topic t ms := by
  have hnone : [m].filter (fun m' => topic m' = t) = [] := by simpa using h
  rw [lastOn, onTopic, List.filter_append, hnone, List.append_nil]
  rfl

theorem lastOn_map {A : Type} (f : A → M) (t : T) (as : List A) :
    lastOn topic t (as.map f) = (lastOn (fun a => topic (f a)) t as).map f := by
  rw [lastOn, onTopic, List.filter_map, List.getLast?_map]
  rfl

variable {S : Type} {step : S → M → Option S} {P : M → S → Prop}

/-- What a message establishes, and messages on other topics keep, holds at the end if
the message was the last one on its topic. -/
theorem holds_of_last {s s' : S} {ms : List M} (hset : ∀ s m s', step s m = some s' → P m s')
    (hkeep : ∀ s m s', ∀ m' ∈ ms, topic m' ≠ topic m → P m s → step s m' = some s' → P m s')
    (hrun : run step s ms = some s') {m : M} (hlast : lastOn topic (topic m) ms = some m) :
    P m s' := by
  induction ms using List.reverseRecOn generalizing s' with
  | nil => cases hlast
  | append_singleton ms m' ih =>
    obtain ⟨s₁, hs₁, hstep⟩ := run_append_eq_some step hrun
    obtain ⟨s₂, hs₂, hnil⟩ := run_cons_eq_some step hstep
    obtain rfl := Option.some.inj hnil
    by_cases ht : topic m' = topic m
    · rw [← ht, lastOn_append_self] at hlast
      obtain rfl := Option.some.inj hlast
      exact hset s₁ m' s₂ hs₂
    · rw [lastOn_append_of_ne ht] at hlast
      have hbefore := ih (fun s m s' m' hm' => hkeep s m s' m' (List.mem_append_left _ hm')) hs₁ hlast
      exact hkeep s₁ m s₂ m' (by simp) ht hbefore hs₂

end KartStack.TopicOrder
