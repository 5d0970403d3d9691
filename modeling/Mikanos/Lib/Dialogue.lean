import Mikanos.Lib.BoundedTable

/-!
# Programs that talk to a partner

A driver asks its hardware, a boot loader its firmware.  A `Dialogue` is such a program: it
asks a question `q`, goes on with the answer, an element of `A q`, and in the end has a result.
A loop that waits for an answer is a node of its own, `poll`, so that a program may wait for
ever.

There are two ways to run one.  `Runs` admits every answer, and a `Protocol` says which
questions may be asked and which answers are to be expected; `Keeps` is the weakest
precondition that a program keeps to it (`Keeps.sound`).  A `Machine` is a partner with a
state, and `run` plays the program against it.

`Yields` is for programs that only look: what they compute depends on what can be seen of the
machine, and they leave that as it is.
-/

namespace Mikanos

variable {Q : Type} {A : Q → Type} {R R' S σ V : Type}

/-- A program that asks questions. -/
inductive Dialogue {Q : Type} (A : Q → Type) (R : Type) : Type where
  | done (result : R)
  | ask (q : Q) (next : A q → Dialogue A R)
  /-- The question is asked again until the answer passes the test. -/
  | poll (q : Q) (stop : A q → Bool) (next : A q → Dialogue A R)

namespace Dialogue

/-- One program after the other. -/
def bind : Dialogue A R → (R → Dialogue A R') → Dialogue A R'
  | .done r, f => f r
  | .ask q next, f => .ask q fun a => (next a).bind f
  | .poll q stop next, f => .poll q stop fun a => (next a).bind f

instance : Monad (Dialogue A) where
  pure := .done
  bind := .bind

/-- One program after the other, unless the first ends in a fault. -/
def bindOk {ε : Type} (p : Dialogue A (Except ε R)) (f : R → Dialogue A (Except ε R')) :
    Dialogue A (Except ε R') :=
  p.bind fun
    | .error e => .done (.error e)
    | .ok r => f r

/-- The rounds of a loop up to the first one that does not end in `ok`. -/
def forEach {β ε E : Type} [DecidableEq E] (ok : E)
    (round : β → S → Dialogue A (Except ε (E × S))) : List β → S → Dialogue A (Except ε (E × S))
  | [], s => .done (.ok (ok, s))
  | b :: bs, s => (round b s).bindOk fun result =>
      if result.1 ≠ ok then .done (.ok result) else forEach ok round bs result.2

/-! ## Every run -/

/-- A question with its answer. -/
structure Exchange {Q : Type} (A : Q → Type) where
  question : Q
  answer : A question

/-- The program, the exchanges of a run of it, and what is left to do. -/
inductive Runs : Dialogue A R → List (Exchange A) → Dialogue A R → Prop
  | stop {p : Dialogue A R} : Runs p [] p
  | ask {q : Q} {next : A q → Dialogue A R} {a : A q} {trace : List (Exchange A)}
      {p : Dialogue A R} (rest : Runs (next a) trace p) :
      Runs (.ask q next) (⟨q, a⟩ :: trace) p
  | again {q : Q} {stop : A q → Bool} {next : A q → Dialogue A R} {a : A q}
      {trace : List (Exchange A)} {p : Dialogue A R} (ha : stop a = false)
      (rest : Runs (.poll q stop next) trace p) :
      Runs (.poll q stop next) (⟨q, a⟩ :: trace) p
  | leave {q : Q} {stop : A q → Bool} {next : A q → Dialogue A R} {a : A q}
      {trace : List (Exchange A)} {p : Dialogue A R} (ha : stop a = true)
      (rest : Runs (next a) trace p) : Runs (.poll q stop next) (⟨q, a⟩ :: trace) p

end Dialogue

open Dialogue

/-- What a dialogue is to keep to: a state that follows the exchanges, the questions that may
be asked in it, and the answers to be expected. -/
structure Protocol {Q : Type} (A : Q → Type) (S : Type) where
  next : S → Exchange A → S
  allowed : S → Q → Prop
  expected : S → Exchange A → Prop

namespace Protocol

variable (c : Protocol A S)

/-- The state after some exchanges. -/
def after (s : S) (trace : List (Exchange A)) : S := trace.foldl c.next s

/-- The answers are as expected. -/
def Answered : S → List (Exchange A) → Prop
  | _, [] => True
  | s, e :: trace => c.expected s e ∧ Answered (c.next s e) trace

/-- The questions were allowed. -/
def Obeyed : S → List (Exchange A) → Prop
  | _, [] => True
  | s, e :: trace => c.allowed s e.question ∧ Obeyed (c.next s e) trace

variable {c} in
/-- A protocol that every answer is expected of. -/
theorem answered_of_expected (h : ∀ s e, c.expected s e) (s : S) (trace : List (Exchange A)) :
    c.Answered s trace := by
  induction trace generalizing s with
  | nil => trivial
  | cons e trace ih => exact ⟨h s e, ih _⟩

variable {c} in
/-- What holds of every question that the contract allows holds of every question asked in a
dialogue that obeys it. -/
theorem Obeyed.forall {P : Q → Prop} (h : ∀ s q, c.allowed s q → P q) {s : S}
    {trace : List (Exchange A)} (hobeyed : c.Obeyed s trace) : ∀ e ∈ trace, P e.question := by
  induction trace generalizing s with
  | nil => exact fun e he => nomatch he
  | cons first trace ih =>
      intro e he
      rcases List.mem_cons.mp he with rfl | he
      · exact h s _ hobeyed.1
      · exact ih hobeyed.2 e he

/-- The program asks only what is allowed as long as it is answered as expected, and its
result is as in `post`.  A loop that waits has an invariant. -/
def Keeps (post : R → S → Prop) : Dialogue A R → S → Prop
  | .done r, s => post r s
  | .ask q next, s => c.allowed s q ∧
      ∀ a, c.expected s ⟨q, a⟩ → Keeps post (next a) (c.next s ⟨q, a⟩)
  | .poll q stop next, s => ∃ inv : S → Prop, inv s ∧ ∀ s, inv s → c.allowed s q ∧
      ∀ a, c.expected s ⟨q, a⟩ →
        (stop a = false → inv (c.next s ⟨q, a⟩)) ∧
        (stop a = true → Keeps post (next a) (c.next s ⟨q, a⟩))

variable {c} {post : R → S → Prop} {p p' : Dialogue A R} {s : S}

/-- The program keeps to the protocol from every state with the invariant, and ends in one. -/
def Maintains (c : Protocol A S) (inv : S → Prop) (p : Dialogue A R) : Prop :=
  ∀ s, inv s → c.Keeps (fun _ s => inv s) p s

/-- A program that keeps the contract and ends in a stronger result keeps it with the weaker
one. -/
theorem Keeps.mono {post' : R → S → Prop} (h : c.Keeps post p s)
    (hpost : ∀ r s, post r s → post' r s) : c.Keeps post' p s := by
  induction p generalizing s with
  | done r => exact hpost r s h
  | ask q next ih => exact ⟨h.1, fun a ha => ih a (h.2 a ha)⟩
  | poll q stop next ih =>
      obtain ⟨inv, hinv, hstep⟩ := h
      refine ⟨inv, hinv, fun s hs => ⟨(hstep s hs).1, fun a ha => ?_⟩⟩
      obtain ⟨hagain, hleave⟩ := (hstep s hs).2 a ha
      exact ⟨hagain, fun hstop => ih a (hleave hstop)⟩

/-- **Sequence rule**: two programs one after the other keep the contract if the first does and
ends where the second, for its result, keeps it. -/
theorem keeps_bind {f : R → Dialogue A R'} {post : R' → S → Prop}
    (h : c.Keeps (fun r s => c.Keeps post (f r) s) p s) : c.Keeps post (p.bind f) s := by
  induction p generalizing s with
  | done r => exact h
  | ask q next ih => exact ⟨h.1, fun a ha => ih a (h.2 a ha)⟩
  | poll q stop next ih =>
      obtain ⟨inv, hinv, hstep⟩ := h
      refine ⟨inv, hinv, fun s hs => ⟨(hstep s hs).1, fun a ha => ?_⟩⟩
      obtain ⟨hagain, hleave⟩ := (hstep s hs).2 a ha
      exact ⟨hagain, fun hstop => ih a (hleave hstop)⟩

variable {inv : S → Prop}

theorem maintains_done (r : R) : c.Maintains inv (.done r) := fun _ hs => hs

/-- Two programs in a row keep the invariant if both do. -/
theorem Maintains.bind {f : R → Dialogue A R'} (hp : c.Maintains inv p)
    (hf : ∀ r, c.Maintains inv (f r)) : c.Maintains inv (p.bind f) :=
  fun s hs => keeps_bind ((hp s hs).mono fun r s hs => hf r s hs)

/-- An invariant that both parts of a dialogue maintain is maintained where the second part runs
only if the first has not failed. -/
theorem Maintains.bindOk {ε : Type} {p : Dialogue A (Except ε R)}
    {f : R → Dialogue A (Except ε R')} (hp : c.Maintains inv p)
    (hf : ∀ r, c.Maintains inv (f r)) : c.Maintains inv (p.bindOk f) :=
  hp.bind fun
    | .error e => maintains_done (Except.error e)
    | .ok r => hf r

/-- A branch. -/
theorem maintains_ite {P : Prop} [Decidable P] {q : Dialogue A R} (hp : c.Maintains inv p)
    (hq : c.Maintains inv q) : c.Maintains inv (if P then p else q) := by
  split
  · exact hp
  · exact hq

/-- The rounds of a loop. -/
theorem maintains_forEach {β ε E σ : Type} [DecidableEq E] {ok : E}
    {round : β → σ → Dialogue A (Except ε (E × σ))} (h : ∀ b s, c.Maintains inv (round b s))
    (bs : List β) (s : σ) : c.Maintains inv (forEach ok round bs s) := by
  induction bs generalizing s with
  | nil => exact maintains_done _
  | cons b bs ih =>
      exact (h b s).bindOk fun result => maintains_ite (maintains_done _) (ih result.2)

/-- **A program that keeps to the protocol asks nothing else in any run**, and what is left of
it keeps to the protocol still.  By induction on the run. -/
theorem Keeps.sound {trace : List (Exchange A)} (h : c.Keeps post p s)
    (hrun : Runs p trace p') (hanswered : c.Answered s trace) :
    c.Obeyed s trace ∧ c.Keeps post p' (c.after s trace) := by
  induction hrun generalizing s with
  | stop => exact ⟨trivial, h⟩
  | ask rest ih =>
      obtain ⟨hallowed, hnext⟩ := h
      obtain ⟨hobeyed, hleft⟩ := ih (hnext _ hanswered.1) hanswered.2
      exact ⟨⟨hallowed, hobeyed⟩, hleft⟩
  | again ha rest ih =>
      obtain ⟨inv, hinv, hstep⟩ := h
      obtain ⟨hallowed, hnext⟩ := hstep _ hinv
      have hagain := (hnext _ hanswered.1).1 ha
      obtain ⟨hobeyed, hleft⟩ := ih ⟨inv, hagain, hstep⟩ hanswered.2
      exact ⟨⟨hallowed, hobeyed⟩, hleft⟩
  | leave ha rest ih =>
      obtain ⟨inv, hinv, hstep⟩ := h
      obtain ⟨hallowed, hnext⟩ := hstep _ hinv
      obtain ⟨hobeyed, hleft⟩ := ih ((hnext _ hanswered.1).2 ha) hanswered.2
      exact ⟨⟨hallowed, hobeyed⟩, hleft⟩

end Protocol

/-! ## Runs against a machine -/

/-- A partner with a state. -/
abbrev Machine {Q : Type} (A : Q → Type) (σ : Type) := σ → (q : Q) → A q × σ

namespace Machine

variable (m : Machine A σ)

/-- The rounds of a loop that waits, at most `n`. -/
def await (q : Q) (stop : A q → Bool) : Nat → σ → Option (A q × σ)
  | 0, _ => none
  | n + 1, s => if stop (m s q).1 then some (m s q) else await q stop n (m s q).2

/-- The program against the machine; each of its loops waits for `n` rounds at most. -/
def run (n : Nat) : Dialogue A R → σ → Option (R × σ)
  | .done r, s => some (r, s)
  | .ask q next, s => run n (next (m s q).1) (m s q).2
  | .poll q stop next, s => (m.await q stop n s).bind fun answered =>
      run n (next answered.1) answered.2

variable {m} {n : Nat} {s : σ}

/-- A machine runs one program after the other by running the first and then, from the state it
has left and with its result, the second. -/
theorem run_bind {p : Dialogue A R} {f : R → Dialogue A R'} :
    m.run n (p.bind f) s = (m.run n p s).bind fun result => m.run n (f result.1) result.2 := by
  induction p generalizing s with
  | done r => rfl
  | ask q next ih => exact ih _
  | poll q stop next ih =>
      simp only [Dialogue.bind, run]
      cases m.await q stop n s with
      | none => rfl
      | some answered => exact ih _

/-- The exchanges of the program with the machine, up to the first round of waiting. -/
def exchanges : Dialogue A R → σ → List (Exchange A)
  | .done _, _ => []
  | .ask q next, s => ⟨q, (m s q).1⟩ :: exchanges (next (m s q).1) (m s q).2
  | .poll q stop next, s => ⟨q, (m s q).1⟩ ::
      if stop (m s q).1 then exchanges (next (m s q).1) (m s q).2 else []

/-- The questions of a program with the answers that a machine gives are a run of the program,
by induction over the program. -/
theorem runs_exchanges (p : Dialogue A R) (s : σ) : ∃ rest, Runs p (m.exchanges p s) rest := by
  induction p generalizing s with
  | done r => exact ⟨_, .stop⟩
  | ask q next ih =>
      obtain ⟨rest, hrest⟩ := ih (m s q).1 (m s q).2
      exact ⟨rest, .ask hrest⟩
  | poll q stop next ih =>
      unfold exchanges
      by_cases hstop : stop (m s q).1 = true
      · obtain ⟨rest, hrest⟩ := ih (m s q).1 (m s q).2
        rw [if_pos hstop]
        exact ⟨rest, .leave hstop hrest⟩
      · rw [if_neg hstop]
        exact ⟨_, .again (Bool.eq_false_iff.mpr hstop) .stop⟩

section Expected

variable {c : Protocol A S} {sim : σ → S → Prop}
  (hanswers : ∀ s t q, sim s t →
    c.expected t ⟨q, (m s q).1⟩ ∧ sim (m s q).2 (c.next t ⟨q, (m s q).1⟩))

include hanswers

/-- A machine that answers as expected, as long as its state and the one of the protocol are
related. -/
theorem answered_exchanges (p : Dialogue A R) {t : S} (hsim : sim s t) :
    c.Answered t (m.exchanges p s) := by
  induction p generalizing s t with
  | done r => trivial
  | ask q next ih => exact ⟨(hanswers s t q hsim).1, ih _ (hanswers s t q hsim).2⟩
  | poll q stop next ih =>
      refine ⟨(hanswers s t q hsim).1, ?_⟩
      split
      · exact ih _ (hanswers s t q hsim).2
      · trivial

/-- **A program that ends against a machine has a run that ends so**, and its answers are those
that the contract expects, if the machine simulates the contract's state. -/
theorem runs_of_run {p : Dialogue A R} {r : R} {s' : σ} {t : S} (hsim : sim s t)
    (h : m.run n p s = some (r, s')) : ∃ trace, Runs p trace (.done r) ∧ c.Answered t trace := by
  induction p generalizing s t with
  | done r =>
      cases h
      exact ⟨[], .stop, trivial⟩
  | ask q next ih =>
      obtain ⟨trace, hrun, hrest⟩ := ih _ (hanswers s t q hsim).2 h
      exact ⟨_ :: trace, .ask hrun, (hanswers s t q hsim).1, hrest⟩
  | poll q stop next ih =>
      obtain ⟨answered, hawait, hrest⟩ := Option.bind_eq_some_iff.mp h
      have hrounds : ∀ k s t, sim s t → m.await q stop k s = some answered →
          ∃ trace, Runs (.poll q stop next) trace (.done r) ∧ c.Answered t trace := by
        intro k
        induction k with
        | zero => exact fun s t _ h => nomatch h
        | succ k ihk =>
            intro s t hst hs
            obtain ⟨hexpected, hnext⟩ := hanswers s t q hst
            unfold await at hs
            by_cases hstop : stop (m s q).1 = true
            · rw [if_pos hstop] at hs
              cases hs
              obtain ⟨trace, hrun, hafter⟩ := ih _ hnext hrest
              exact ⟨_ :: trace, .leave hstop hrun, hexpected, hafter⟩
            · rw [if_neg hstop] at hs
              obtain ⟨trace, hrun, hafter⟩ := ihk _ _ hnext hs
              exact ⟨_ :: trace, .again (Bool.eq_false_iff.mpr hstop) hrun, hexpected, hafter⟩
      exact hrounds n s t hsim hawait

end Expected

/-! ## Programs that only look -/

/-- On a machine that shows `v` the program computes `r`, and the machine shows `v` still. -/
def Yields (m : Machine A σ) (view : σ → V) (v : V) (p : Dialogue A R) (r : R) : Prop :=
  ∀ n s, view s = v → ∃ s', m.run n p s = some (r, s') ∧ view s' = v

variable {view : σ → V} {v : V}

theorem yields_done (r : R) : m.Yields view v (.done r) r :=
  fun _ s hs => ⟨s, rfl, hs⟩

/-- Looking twice. -/
theorem Yields.bind {p : Dialogue A R} {r : R} {f : R → Dialogue A R'} {r' : R'}
    (hp : m.Yields view v p r) (hf : m.Yields view v (f r) r') : m.Yields view v (p.bind f) r' := by
  intro n s hs
  obtain ⟨s', hrun, hs'⟩ := hp n s hs
  obtain ⟨s'', hrun', hs''⟩ := hf n s' hs'
  refine ⟨s'', ?_, hs''⟩
  rw [run_bind, hrun, Option.bind_some, hrun']

/-- A value is handed on, and a failure ends the program. -/
theorem Yields.bindOk {ε : Type} {p : Dialogue A (Except ε R)} {r : Except ε R}
    {f : R → Dialogue A (Except ε R')} {g : R → Except ε R'} (hp : m.Yields view v p r)
    (hf : ∀ a, m.Yields view v (f a) (g a)) : m.Yields view v (p.bindOk f) (r.bind g) := by
  refine hp.bind ?_
  cases r with
  | error e => exact yields_done _
  | ok a => exact hf a

/-- A branch. -/
theorem yields_ite {P : Prop} [Decidable P] {p q : Dialogue A R} {a b : R}
    (hp : m.Yields view v p a) (hq : m.Yields view v q b) :
    m.Yields view v (if P then p else q) (if P then a else b) := by
  by_cases h : P
  · rwa [if_pos h, if_pos h]
  · rwa [if_neg h, if_neg h]

/-- The rounds of a loop. -/
theorem yields_forEach {β ε E S : Type} [DecidableEq E] {ok : E}
    {round : β → S → Dialogue A (Except ε (E × S))} {round' : β → S → Except ε (E × S)}
    (h : ∀ b s, m.Yields view v (round b s) (round' b s)) (bs : List β) (s : S) :
    m.Yields view v (forEach ok round bs s) (BoundedTable.forEach ok round' bs s) := by
  induction bs generalizing s with
  | nil => exact yields_done _
  | cons b bs ih => exact (h b s).bindOk fun result => yields_ite (yields_done _) (ih result.2)

end Machine

end Mikanos
