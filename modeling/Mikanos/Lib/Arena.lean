import Mathlib

/-!
# Memory that is handed out upwards

An allocator that takes nothing back has handed out addresses from `lo` up to a border
`top`, which only rises.  Who has which of them is a family `own` of sets of addresses,
one for each owner, and `Apart` says that these sets lie below the border and share no
address.

`Grows` is what a step does that takes memory from the allocator: an owner has
afterwards nothing but what it had before and memory from between the two borders, and of
that no two owners have the same.  Such steps compose (`Grows.trans`) and keep the owners
apart (`Apart.grows`), and memory below the border does not change hands
(`Grows.mem_of_lt`).  A step that concerns one owner (`Grows.of_one`), or the owners that
are parts of one component (`Grows.lift`), is a step of the whole.
-/

namespace Arena

variable {O P : Type*} {lo top top' top'' : Nat} {own own' own'' : O → Set Nat}

/-- Every owner has memory between `lo` and `top`, and no two of them share any. -/
structure Apart (lo top : Nat) (own : O → Set Nat) : Prop where
  inside : ∀ o, own o ⊆ Set.Ico lo top
  disjoint : ∀ {o o'}, o ≠ o' → Disjoint (own o) (own o')

/-- A step that takes memory between the borders `top` and `top'`. -/
structure Grows (top top' : Nat) (own own' : O → Set Nat) : Prop where
  border : top ≤ top'
  held : ∀ o, own' o ⊆ own o ∪ Set.Ico top top'
  fresh : ∀ {o o'}, o ≠ o' → Disjoint (own' o \ own o) (own' o' \ own o')

/-- Owners without memory are apart. -/
theorem Apart.of_empty (hempty : ∀ o, own o = ∅) : Apart lo top own where
  inside := fun o => by rw [hempty o]; exact Set.empty_subset _
  disjoint := fun {o} _ _ => by rw [hempty o]; exact Set.empty_disjoint _

/-- A step in which nobody takes anything. -/
theorem Grows.of_subset (hborder : top ≤ top') (hsub : ∀ o, own' o ⊆ own o) :
    Grows top top' own own' where
  border := hborder
  held := fun o => (hsub o).trans Set.subset_union_left
  fresh := fun {o} _ _ => by
    rw [Set.sdiff_eq_empty.mpr (hsub o)]
    exact Set.empty_disjoint _

theorem Grows.refl (top : Nat) (own : O → Set Nat) : Grows top top own own :=
  .of_subset (Nat.le_refl top) fun _ => subset_rfl

/-- What an owner has taken lies above the old border. -/
theorem Grows.mem_of_diff (h : Grows top top' own own') {o : O} {x : Nat} (hx : x ∈ own' o)
    (hnot : x ∉ own o) : top ≤ x ∧ x < top' := by
  rcases h.held o hx with hold | hnew
  · exact absurd hold hnot
  · exact hnew

/-- **Memory below the border does not change hands.** -/
theorem Grows.mem_of_lt (h : Grows top top' own own') {o : O} {x : Nat} (hx : x ∈ own' o)
    (hlt : x < top) : x ∈ own o := by
  by_contra hnot
  exact absurd (h.mem_of_diff hx hnot).1 (Nat.not_le.mpr hlt)

/-- One step after the other.  What the second owner took in another step than the first
lies on the other side of the border between the steps. -/
theorem Grows.trans (h : Grows top top' own own') (h' : Grows top' top'' own' own'') :
    Grows top top'' own own'' where
  border := Nat.le_trans h.border h'.border
  held := by
    intro o x hx
    have hfirst := h.border
    have hsecond := h'.border
    rcases h'.held o hx with hx | ⟨hge, hlt⟩
    · rcases h.held o hx with hx | ⟨hge, hlt⟩
      · exact Or.inl hx
      · exact Or.inr ⟨hge, by omega⟩
    · exact Or.inr ⟨by omega, hlt⟩
  fresh := by
    intro o o' hne
    rw [Set.disjoint_left]
    rintro x ⟨hx, hnot⟩ ⟨hx', hnot'⟩
    by_cases hmid : x ∈ own' o
    · by_cases hmid' : x ∈ own' o'
      · exact Set.disjoint_left.mp (h.fresh hne) ⟨hmid, hnot⟩ ⟨hmid', hnot'⟩
      · have hbelow := (h.mem_of_diff hmid hnot).2
        have habove := (h'.mem_of_diff hx' hmid').1
        omega
    · by_cases hmid' : x ∈ own' o'
      · have hbelow := (h.mem_of_diff hmid' hnot').2
        have habove := (h'.mem_of_diff hx hmid).1
        omega
      · exact Set.disjoint_left.mp (h'.fresh hne) ⟨hx, hmid⟩ ⟨hx', hmid'⟩

/-- **Owners stay apart**: what an owner gains lies above the old border, where nobody had
anything, and no two owners gain the same, so a step that only grows keeps them apart. -/
theorem Apart.grows (ha : Apart lo top own) (hlo : lo ≤ top) (h : Grows top top' own own') :
    Apart lo top' own' where
  inside := by
    intro o x hx
    have hborder := h.border
    rcases h.held o hx with hx | ⟨hge, hlt⟩
    · obtain ⟨hge, hlt⟩ := ha.inside o hx
      exact ⟨hge, by omega⟩
    · exact ⟨by omega, hlt⟩
  disjoint := by
    intro o o' hne
    rw [Set.disjoint_left]
    intro x hx hx'
    by_cases hold : x ∈ own o
    · by_cases hold' : x ∈ own o'
      · exact Set.disjoint_left.mp (ha.disjoint hne) hold hold'
      · have hbelow := (ha.inside o hold).2
        have habove := (h.mem_of_diff hx' hold').1
        omega
    · by_cases hold' : x ∈ own o'
      · have hbelow := (ha.inside o' hold').2
        have habove := (h.mem_of_diff hx hold).1
        omega
      · exact Set.disjoint_left.mp (h.fresh hne) ⟨hx, hold⟩ ⟨hx', hold'⟩

/-- A step in which one owner takes memory above the border, and every other owner keeps at most
what it had, grows the arena. -/
theorem Grows.of_one (o : O) (hborder : top ≤ top') (hone : own' o ⊆ own o ∪ Set.Ico top top')
    (hrest : ∀ o', o' ≠ o → own' o' ⊆ own o') : Grows top top' own own' where
  border := hborder
  held := by
    intro o'
    by_cases heq : o' = o
    · rw [heq]
      exact hone
    · exact (hrest o' heq).trans Set.subset_union_left
  fresh := by
    intro o₁ o₂ hne
    by_cases heq : o₁ = o
    · have hother : o₂ ≠ o := fun h => hne (heq.trans h.symm)
      rw [Set.sdiff_eq_empty.mpr (hrest o₂ hother)]
      exact Set.disjoint_empty _
    · rw [Set.sdiff_eq_empty.mpr (hrest o₁ heq)]
      exact Set.empty_disjoint _

/-- A step of a component whose parts are the owners `f p` is a step of the whole, if the owners
outside the component gain nothing. -/
theorem Grows.lift (f : P → O) (h : Grows top top' (own ∘ f) (own' ∘ f))
    (hrest : ∀ o, (∀ p, o ≠ f p) → own' o ⊆ own o) : Grows top top' own own' where
  border := h.border
  held := by
    intro o
    by_cases hpart : ∃ p, o = f p
    · obtain ⟨p, rfl⟩ := hpart
      exact h.held p
    · exact (hrest o (not_exists.mp hpart)).trans Set.subset_union_left
  fresh := by
    intro o o' hne
    by_cases hpart : ∃ p, o = f p
    · by_cases hpart' : ∃ p, o' = f p
      · obtain ⟨p, rfl⟩ := hpart
        obtain ⟨p', rfl⟩ := hpart'
        exact h.fresh fun heq => hne (congrArg f heq)
      · rw [Set.sdiff_eq_empty.mpr (hrest o' (not_exists.mp hpart'))]
        exact Set.disjoint_empty _
    · rw [Set.sdiff_eq_empty.mpr (hrest o (not_exists.mp hpart))]
      exact Set.empty_disjoint _

end Arena
