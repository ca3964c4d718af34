import Mathlib.Logic.Function.Basic

/-!
# Atomic objects

An object that several threads use has a history: the calls that were made and the replies that
were given, in the order in which that happened.

`Atomic` is what an object does that takes every call at one moment, which lies between the call and
its reply.  The calls, in the order of these moments, are a run of the object in one thread.  A
history is linearizable if the atomic object has it.
-/

/-- What the users of an object see. -/
inductive Atomic.Event (T C R : Type)
  /-- A thread makes a call. -/
  | invoke (t : T) (c : C)
  /-- The thread gets the reply. -/
  | respond (t : T) (r : R)

/-- What a thread has to do with an atomic object. -/
inductive Atomic.Stage (C R : Type)
  /-- It is in no call. -/
  | idle
  /-- Its call has not taken effect. -/
  | called (c : C)
  /-- Its call has taken effect, and will get the reply. -/
  | decided (r : R)

/-- The atomic object with the transition function `step` has the history, with the threads at the
given stages and the object in the given state. -/
inductive Atomic {T C R S : Type} [DecidableEq T] (step : S → C → R × S) (s₀ : S) :
    List (Atomic.Event T C R) → (T → Atomic.Stage C R) → S → Prop
  /-- No call was made. -/
  | init : Atomic step s₀ [] (fun _ => .idle) s₀
  /-- A thread makes a call. -/
  | invoke {H : List (Atomic.Event T C R)} {st : T → Atomic.Stage C R} {s : S} {t : T}
      (h : Atomic step s₀ H st s) (c : C) (ht : st t = .idle) :
      Atomic step s₀ (H ++ [.invoke t c]) (Function.update st t (.called c)) s
  /-- A call takes effect. -/
  | effect {H : List (Atomic.Event T C R)} {st : T → Atomic.Stage C R} {s : S} {t : T}
      (h : Atomic step s₀ H st s) {c : C} (ht : st t = .called c) :
      Atomic step s₀ H (Function.update st t (.decided (step s c).1)) (step s c).2
  /-- A thread gets the reply. -/
  | respond {H : List (Atomic.Event T C R)} {st : T → Atomic.Stage C R} {s : S} {t : T}
      (h : Atomic step s₀ H st s) {r : R} (ht : st t = .decided r) :
      Atomic step s₀ (H ++ [.respond t r]) (Function.update st t .idle) s

namespace Atomic

variable {T C R S : Type} [DecidableEq T] {step : S → C → R × S} {s₀ s : S}
variable {H : List (Event T C R)} {st : T → Stage C R} {t : T}

/-- A thread gets the reply at the moment when its call takes effect. -/
lemma effect_respond (h : Atomic step s₀ H st s) {c : C} (ht : st t = .called c) :
    Atomic step s₀ (H ++ [.respond t (step s c).1]) (Function.update st t .idle) (step s c).2 := by
  have hresp := (h.effect ht).respond (Function.update_self t _ st)
  rwa [Function.update_idem] at hresp

/-- Nothing happens that the users of the object see. -/
lemma stutter (h : Atomic step s₀ H st s) {x : Stage C R} (ht : st t = x) :
    Atomic step s₀ (H ++ []) (Function.update st t x) s := by
  rw [List.append_nil, Function.update_eq_self_iff.2 ht.symm]
  exact h

end Atomic
