import Mathlib.Logic.Function.Basic
import Mathlib.Logic.Relation
import Mathlib.Order.Basic
import Mathlib.Tactic

/-!
# A critical section with a single holder

Clients move through ordered stages, and some of the stages are critical.  A
shared variable names the client in a critical stage, if there is one.  The
moves a client may make are those that keep this variable true: it moves inside
or outside the critical stages freely, enters them when the variable is free,
frees the variable when it leaves them, or leaves them and passes the variable
on to a client that enters.

`exclusive_of_run` is the result: along every run of such moves the variable
names exactly the clients in a critical stage, so there is at most one.
`stage_le_of_run` adds that no client ever moves back.
-/

namespace Turnstile

open Relation

variable {P S : Type*} [DecidableEq P] [Preorder S] {critical : S → Prop}

/-- The stages of all clients and the holder of the critical ones. -/
@[ext] structure State (P S : Type*) where
  stage : P → S
  holder : Option P

/-- The moves that keep the holder true. -/
inductive Move (critical : S → Prop) : State P S → State P S → Prop
  | stay (s : State P S) : Move critical s s
  | advance {s : State P S} {p : P} {t : S} (hle : s.stage p ≤ t)
      (hsame : critical (s.stage p) ↔ critical t) :
      Move critical s ⟨Function.update s.stage p t, s.holder⟩
  | enter {s : State P S} {p : P} {t : S} (hle : s.stage p ≤ t) (hfree : s.holder = none)
      (hin : critical t) : Move critical s ⟨Function.update s.stage p t, some p⟩
  | leave {s : State P S} {p : P} {t : S} (hle : s.stage p ≤ t) (hholder : s.holder = some p)
      (hout : ¬ critical t) : Move critical s ⟨Function.update s.stage p t, none⟩
  | pass {s : State P S} {p q : P} {t u : S} (hholder : s.holder = some p) (hne : p ≠ q)
      (hle : s.stage p ≤ t) (hout : ¬ critical t) (hle' : s.stage q ≤ u) (hin : critical u) :
      Move critical s ⟨Function.update (Function.update s.stage q u) p t, some q⟩

/-- The holder is the one client in a critical stage. -/
def Exclusive (critical : S → Prop) (s : State P S) : Prop :=
  ∀ p, critical (s.stage p) ↔ s.holder = some p

/-- **Step lemma**: one move keeps the holder true. A client gets into the critical stages where
it becomes the holder, and out of them where it gives the turnstile up or passes it on. -/
theorem Move.exclusive {s s' : State P S} (h : Exclusive critical s) (hmove : Move critical s s') :
    Exclusive critical s' := by
  intro r
  have hr := h r
  cases hmove with
  | stay => exact hr
  | @advance p t hle hsame =>
      dsimp only
      by_cases hrp : r = p
      · subst hrp
        rw [Function.update_self, ← hsame]
        exact hr
      · rw [Function.update_of_ne hrp]
        exact hr
  | @enter p t hle hfree hin =>
      dsimp only
      by_cases hrp : r = p
      · subst hrp
        rw [Function.update_self]
        exact ⟨fun _ => rfl, fun _ => hin⟩
      · rw [Function.update_of_ne hrp, hr, hfree]
        constructor
        · exact fun hnone => by cases hnone
        · exact fun hsome => absurd (Option.some.inj hsome).symm hrp
  | @leave p t hle hholder hout =>
      dsimp only
      by_cases hrp : r = p
      · subst hrp
        rw [Function.update_self]
        exact ⟨fun hin => absurd hin hout, fun hnone => by cases hnone⟩
      · rw [Function.update_of_ne hrp, hr, hholder]
        constructor
        · exact fun hsome => absurd (Option.some.inj hsome).symm hrp
        · exact fun hnone => by cases hnone
  | @pass p q t u hholder hne hle hout hle' hin =>
      dsimp only
      by_cases hrp : r = p
      · subst hrp
        rw [Function.update_self]
        constructor
        · exact fun hcritical => absurd hcritical hout
        · exact fun hsome => absurd (Option.some.inj hsome).symm hne
      · rw [Function.update_of_ne hrp]
        by_cases hrq : r = q
        · subst hrq
          rw [Function.update_self]
          exact ⟨fun _ => rfl, fun _ => hin⟩
        · rw [Function.update_of_ne hrq, hr, hholder]
          constructor
          · exact fun hsome => absurd (Option.some.inj hsome).symm hrp
          · exact fun hsome => absurd (Option.some.inj hsome).symm hrq

/-- One move takes no client back: the stage of every client is at least what it was, its own as
well as that of the others. -/
theorem Move.stage_le {s s' : State P S} (hmove : Move critical s s') (r : P) :
    s.stage r ≤ s'.stage r := by
  have hupdate : ∀ (f : P → S) p t, f p ≤ t → f r ≤ Function.update f p t r := by
    intro f p t hle
    by_cases hrp : r = p
    · subst hrp
      rw [Function.update_self]
      exact hle
    · rw [Function.update_of_ne hrp]
  cases hmove with
  | stay => exact le_refl _
  | advance hle _ => exact hupdate _ _ _ hle
  | enter hle _ _ => exact hupdate _ _ _ hle
  | leave hle _ _ => exact hupdate _ _ _ hle
  | pass _ hne hle _ hle' _ =>
      refine le_trans (hupdate _ _ _ hle') (hupdate _ _ _ ?_)
      rw [Function.update_of_ne hne]
      exact hle

/-- **Run lemma**: along every run the holder is the one client in a critical
stage. -/
theorem exclusive_of_run {s s' : State P S} (h : Exclusive critical s)
    (hrun : ReflTransGen (Move critical) s s') : Exclusive critical s' := by
  induction hrun with
  | refl => exact h
  | tail _ hmove ih => exact hmove.exclusive ih

/-- Along every run no client moves back. -/
theorem stage_le_of_run {s s' : State P S} (hrun : ReflTransGen (Move critical) s s') (r : P) :
    s.stage r ≤ s'.stage r := by
  induction hrun with
  | refl => exact le_refl _
  | tail _ hmove ih => exact le_trans ih (hmove.stage_le r)

end Turnstile
