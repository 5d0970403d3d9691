import Mathlib.Tactic

/-!
# Tables of bounded size, filled by loops that stop at the first error

A `Table` has room for `N` entries.  `fill` appends as much of a list as there is
room for.  An operation `Appends` a list if it does that, and reports `full` exactly
if the list did not fit.

`forEach` is a loop that ends at the first result other than `ok`.  If each round
appends a list, then the loop appends all of them one after the other
(`forEach_appends`): nothing is lost before the table is full, and nothing is added
after it.
-/

namespace BoundedTable

/-- A table with room for `N` entries. -/
@[ext] structure Table (α : Type) (N : Nat) where
  entries : List α
  bound : entries.length ≤ N

variable {α β φ E : Type} {N : Nat}

/-- The empty table. -/
def Table.empty : Table α N := ⟨[], Nat.zero_le N⟩

/-- Append as much of a list as there is room for. -/
def Table.fill (t : Table α N) (xs : List α) : Table α N :=
  ⟨(t.entries ++ xs).take N, List.length_take_le N _⟩

/-- There is room for the whole list. -/
def Table.Fits (t : Table α N) (xs : List α) : Prop := t.entries.length + xs.length ≤ N

instance (t : Table α N) (xs : List α) : Decidable (t.Fits xs) :=
  inferInstanceAs (Decidable (_ ≤ _))

/-- A full table drops what comes after: the entries are the first `N` of all. -/
@[simp] theorem Table.entries_fill (t : Table α N) (xs : List α) :
    (t.fill xs).entries = (t.entries ++ xs).take N := rfl

theorem Table.fill_nil (t : Table α N) : t.fill [] = t := by
  apply Table.ext
  rw [entries_fill, List.append_nil, List.take_of_length_le t.bound]

/-- A list that fits is appended whole. -/
theorem Table.entries_fill_of_fits {t : Table α N} {xs : List α} (h : t.Fits xs) :
    (t.fill xs).entries = t.entries ++ xs := by
  rw [entries_fill, List.take_of_length_le]
  rw [List.length_append]
  exact h

/-- If the first part fits, then the second part is appended to it. -/
theorem Table.fill_append_of_fits {t : Table α N} {xs : List α} (h : t.Fits xs) (ys : List α) :
    t.fill (xs ++ ys) = (t.fill xs).fill ys := by
  apply Table.ext
  rw [entries_fill, entries_fill, entries_fill_of_fits h, List.append_assoc]

/-- A list fits in two pieces. -/
theorem Table.fits_append_iff {t : Table α N} {xs : List α} (h : t.Fits xs) (ys : List α) :
    t.Fits (xs ++ ys) ↔ (t.fill xs).Fits ys := by
  rw [Fits, Fits, entries_fill_of_fits h, List.length_append, List.length_append, Nat.add_assoc]

/-- One entry fits as long as the table is not full. -/
theorem Table.fits_singleton {t : Table α N} {a : α} : t.Fits [a] ↔ t.entries.length < N :=
  Iff.rfl

/-- If it does not, then the table is full. -/
theorem Table.fill_append_of_not_fits {t : Table α N} {xs : List α} (h : ¬ t.Fits xs)
    (ys : List α) : t.fill (xs ++ ys) = t.fill xs := by
  unfold Fits at h
  apply Table.ext
  rw [entries_fill, entries_fill, ← List.append_assoc, List.take_append_of_le_length]
  rw [List.length_append]
  omega

/-! ## Loops -/

/-- The rounds of a loop up to the first one that does not end in `ok`. -/
def forEach [DecidableEq E] {σ : Type} (ok : E) (round : β → σ → Except φ (E × σ)) :
    List β → σ → Except φ (E × σ)
  | [], s => .ok (ok, s)
  | b :: bs, s => (round b s).bind fun result =>
      if result.1 ≠ ok then .ok result else forEach ok round bs result.2

/-- The operation appends `xs` to a table that holds `m` entries at least. -/
def Appends (ok full : E) (m : Nat) (op : Table α N → Except φ (E × Table α N))
    (xs : List α) : Prop :=
  ∀ t : Table α N, m ≤ t.entries.length →
    op t = .ok (if t.Fits xs then ok else full, t.fill xs)

variable {ok full : E} {m : Nat}

/-- An operation that appends from a size on, does so from a larger size on. -/
theorem Appends.mono {k : Nat} {op : Table α N → Except φ (E × Table α N)} {xs : List α}
    (h : Appends ok full m op xs) (hle : m ≤ k) : Appends ok full k op xs :=
  fun t ht => h t (hle.trans ht)

/-- Doing nothing. -/
theorem appends_nil : Appends ok full m (fun t : Table α N => (.ok (ok, t) : Except φ _)) [] := by
  intro t _
  have hfits : t.Fits [] := t.bound
  rw [if_pos hfits, Table.fill_nil]

variable [DecidableEq E]

/-- One operation, and then the next one unless the first failed: what both append is the one
list behind the other, and a full table cuts it off where it would have anyway. -/
theorem Appends.andThen (hfull : full ≠ ok) {op₁ op₂ : Table α N → Except φ (E × Table α N)}
    {xs ys : List α} (h₁ : Appends ok full m op₁ xs)
    (h₂ : Appends ok full (m + xs.length) op₂ ys) :
    Appends ok full m (fun t => (op₁ t).bind fun result =>
      if result.1 ≠ ok then .ok result else op₂ result.2) (xs ++ ys) := by
  intro t ht
  change (op₁ t).bind _ = _
  rw [h₁ t ht]
  by_cases hfits : t.Fits xs
  · have hlength : m + xs.length ≤ (t.fill xs).entries.length := by
      rw [Table.entries_fill_of_fits hfits, List.length_append]
      omega
    have hnext := h₂ (t.fill xs) hlength
    rw [if_pos hfits]
    change (if ok ≠ ok then _ else op₂ (t.fill xs)) = _
    rw [if_neg (not_not.mpr rfl), hnext, Table.fill_append_of_fits hfits]
    simp only [Table.fits_append_iff hfits]
  · have hover : ¬ t.Fits (xs ++ ys) := by
      unfold Table.Fits at hfits ⊢
      rw [List.length_append]
      omega
    rw [if_neg hfits, if_neg hover, Table.fill_append_of_not_fits hfits]
    change (if full ≠ ok then _ else _) = _
    rw [if_pos hfull]

/-- **A loop over rounds that append**, appends everything. -/
theorem forEach_appends (hfull : full ≠ ok) {round : β → Table α N → Except φ (E × Table α N)}
    {xs : β → List α} {bs : List β} (h : ∀ b ∈ bs, Appends ok full m (round b) (xs b)) :
    Appends ok full m (forEach ok round bs) (bs.flatMap xs) := by
  induction bs with
  | nil => exact appends_nil
  | cons b bs ih =>
      have hrest := ih fun b' hb' => h b' (List.mem_cons_of_mem b hb')
      exact (h b List.mem_cons_self).andThen hfull (hrest.mono (Nat.le_add_right m _))

/-! ## The rounds of a loop -/

variable {σ : Type}

/-- The rounds that a loop starts, each with the state it starts in. -/
def started (ok : E) (round : β → σ → Except φ (E × σ)) : List β → σ → List (β × σ)
  | [], _ => []
  | b :: bs, s => (b, s) ::
      match round b s with
      | .error _ => []
      | .ok (err, s') => if err ≠ ok then [] else started ok round bs s'

/-- A loop ends in its first round, with the result of that round, or goes on with the rest
after a round that ended in `ok`. -/
theorem forEach_cons_eq_ok_iff {round : β → σ → Except φ (E × σ)} {b : β} {bs : List β} {s : σ}
    {r : E × σ} : forEach ok round (b :: bs) s = .ok r ↔
      (round b s = .ok r ∧ r.1 ≠ ok) ∨
        ∃ s', round b s = .ok (ok, s') ∧ forEach ok round bs s' = .ok r := by
  rw [forEach]
  cases hround : round b s with
  | error e =>
      constructor
      · intro h
        cases h
      · rintro (⟨h, -⟩ | ⟨s', h, -⟩)
        · cases h
        · cases h
  | ok mid =>
      obtain ⟨err, s'⟩ := mid
      change (if err ≠ ok then _ else _) = _ ↔ _
      by_cases herr : err ≠ ok
      · rw [if_pos herr]
        constructor
        · intro h
          cases h
          exact Or.inl ⟨rfl, herr⟩
        · rintro (⟨h, -⟩ | ⟨s'', h, -⟩)
          · exact h
          · cases h
            exact absurd rfl herr
      · rw [if_neg herr]
        obtain rfl := not_not.mp herr
        constructor
        · exact fun h => Or.inr ⟨s', rfl, h⟩
        · rintro (⟨h, hne⟩ | ⟨s'', h, hrest⟩)
          · cases h
            exact absurd rfl hne
          · cases h
            exact hrest

/-- A round that is started is the first one, or one of the rest of the loop from the state that
the first round has left. -/
theorem mem_started_cons {round : β → σ → Except φ (E × σ)} {b : β} {bs : List β} {s : σ}
    {c : β × σ} (h : c ∈ started ok round (b :: bs) s) :
    c = (b, s) ∨ ∃ s', round b s = .ok (ok, s') ∧ c ∈ started ok round bs s' := by
  rw [started] at h
  refine (List.mem_cons.mp h).imp_right fun hc => ?_
  cases hround : round b s with
  | error e =>
      rw [hround] at hc
      cases hc
  | ok mid =>
      obtain ⟨err, s'⟩ := mid
      rw [hround] at hc
      change c ∈ if err ≠ ok then [] else started ok round bs s' at hc
      by_cases herr : err ≠ ok
      · rw [if_pos herr] at hc
        cases hc
      · rw [if_neg herr] at hc
        exact ⟨s', by rw [not_not.mp herr], hc⟩

/-- `op'` ends as `op` does, where that ends. -/
def Extends (op' op : σ → Except φ (E × σ)) : Prop := ∀ s r, op s = .ok r → op' s = .ok r

/-- Loops whose rounds end alike end alike, so a loop over rounds with more fuel returns
whatever the one with less did. -/
theorem Extends.forEach {round round' : β → σ → Except φ (E × σ)}
    (h : ∀ b, Extends (round' b) (round b)) (bs : List β) :
    Extends (forEach ok round' bs) (forEach ok round bs) := by
  induction bs with
  | nil => exact fun _ _ hr => hr
  | cons b bs ih =>
      intro s r hr
      apply forEach_cons_eq_ok_iff.mpr
      rcases forEach_cons_eq_ok_iff.mp hr with ⟨hround, herr⟩ | ⟨s', hround, hrest⟩
      · exact Or.inl ⟨h b s r hround, herr⟩
      · exact Or.inr ⟨s', h b s _ hround, ih s' r hrest⟩

/-- The measure `μ` of the state never falls. -/
def Raises (μ : σ → Nat) (op : σ → Except φ (E × σ)) : Prop :=
  ∀ s r, op s = .ok r → μ s ≤ μ r.2

/-- **A round starts no lower than its loop**, if no round lowers the measure, and it is a round
for one of the items. -/
theorem le_of_mem_started {μ : σ → Nat} {round : β → σ → Except φ (E × σ)} {bs : List β}
    (h : ∀ b ∈ bs, Raises μ (round b)) {s : σ} {c : β × σ}
    (hc : c ∈ started ok round bs s) : c.1 ∈ bs ∧ μ s ≤ μ c.2 := by
  induction bs generalizing s with
  | nil => cases hc
  | cons b bs ih =>
      rcases mem_started_cons hc with rfl | ⟨s', hround, hc⟩
      · exact ⟨List.mem_cons_self, Nat.le_refl _⟩
      · obtain ⟨hmem, hle⟩ := ih (fun b' hb' => h b' (List.mem_cons_of_mem b hb')) hc
        exact ⟨List.mem_cons_of_mem b hmem, (h b List.mem_cons_self s _ hround).trans hle⟩

/-- A loop does not lower the measure if none of its rounds does, by induction over the items.
-/
theorem Raises.forEach {μ : σ → Nat} {round : β → σ → Except φ (E × σ)} {bs : List β}
    (h : ∀ b ∈ bs, Raises μ (round b)) : Raises μ (forEach ok round bs) := by
  induction bs with
  | nil =>
      intro s r hr
      cases hr
      exact Nat.le_refl _
  | cons b bs ih =>
      intro s r hr
      rcases forEach_cons_eq_ok_iff.mp hr with ⟨hround, -⟩ | ⟨s', hround, hrest⟩
      · exact h b List.mem_cons_self s r hround
      · have hfirst := h b List.mem_cons_self s _ hround
        exact hfirst.trans (ih (fun b' hb' => h b' (List.mem_cons_of_mem b hb')) s' r hrest)

end BoundedTable
