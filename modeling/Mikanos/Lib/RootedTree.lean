import Mathlib.Data.Fintype.Card
import Mathlib.Data.List.Nodup
import Mathlib.Tactic

/-!
# Trees listed in preorder

A graph is given by the list of items that stand at each node and, for some of the
items, the node it leads to.  `listing n v` is the depth-first listing from node `v`
down to `n` levels: an item comes before everything that stands behind it.

The nodes behind `root` form a tree if no two items lead to the same node, and none
leads back to `root`.  Then a node has one level only (`level_unique`), so with
finitely many nodes the levels are bounded (`level_lt_card`) and the listing down to
that bound is complete: it holds each item of each reachable node once
(`mem_preorder`, `nodup_preorder`) and satisfies the equation that has no levels in it
(`preorder_eq`).
-/

namespace RootedTree

variable {V I : Type} (items : V → List I) (child : I → Option V)

/-- The items from node `v` on, depth first, down to `n` levels. -/
def listing : Nat → V → List I
  | 0, _ => []
  | n + 1, v => (items v).flatMap fun i =>
      i :: match child i with
        | none => []
        | some w => listing n w

/-- Node `v` is `n` levels behind `u`. -/
inductive Below (u : V) : Nat → V → Prop
  | refl : Below u 0 u
  | step {n : Nat} {v w : V} {i : I} (h : Below u n v) (hi : i ∈ items v)
      (hchild : child i = some w) : Below u (n + 1) w

/-- Node `v` is behind `u`, or the same. -/
def Reachable (u v : V) : Prop := ∃ n, Below items child u n v

/-- The nodes behind `root` form a tree. -/
structure IsTree (root : V) : Prop where
  parent : ∀ {v v' w : V} {i i' : I}, Reachable items child root v →
    Reachable items child root v' → i ∈ items v → i' ∈ items v' → child i = some w →
    child i' = some w → i = i'
  root : ∀ {v : V} {i : I}, Reachable items child root v → i ∈ items v → child i ≠ some root

variable {items child} {u v w root : V} {n m k : Nat}

/-! ## Levels -/

theorem Below.trans (huv : Below items child u n v) (hvw : Below items child v m w) :
    Below items child u (n + m) w := by
  induction hvw with
  | refl => exact huv
  | step _ hi hchild ih => exact ih.step hi hchild

/-- A node further behind is reached by a first step, to a child of the node, and then by the
others. -/
theorem Below.head (h : Below items child u (n + 1) w) :
    ∃ i v, i ∈ items u ∧ child i = some v ∧ Below items child v n w := by
  induction n generalizing w with
  | zero =>
      cases h with
      | step h hi hchild =>
          cases h with
          | refl => exact ⟨_, _, hi, hchild, .refl⟩
  | succ n ih =>
      cases h with
      | step h hi hchild =>
          obtain ⟨i', v', hi', hchild', hbelow⟩ := ih h
          exact ⟨i', v', hi', hchild', hbelow.step hi hchild⟩

/-- On the way to a node there is one at every level. -/
theorem Below.exists_level (h : Below items child u n v) (hk : k ≤ n) :
    ∃ w, Below items child u k w := by
  induction h with
  | refl => exact ⟨u, Nat.le_zero.mp hk ▸ .refl⟩
  | @step n' v' w i hbelow hi hchild ih =>
      rcases Nat.eq_or_lt_of_le hk with rfl | hlt
      · exact ⟨w, hbelow.step hi hchild⟩
      · exact ih (Nat.le_of_lt_succ hlt)

/-- **What is listed**: the items of the nodes that are less than `n` levels behind, by
induction on `n`. -/
theorem mem_listing {i : I} : i ∈ listing items child n v ↔
    ∃ k w, k < n ∧ Below items child v k w ∧ i ∈ items w := by
  induction n generalizing v with
  | zero =>
      constructor
      · intro h
        cases h
      · rintro ⟨k, w, hk, -⟩
        exact absurd hk (Nat.not_lt_zero k)
  | succ n ih =>
      rw [listing, List.mem_flatMap]
      constructor
      · rintro ⟨i', hi', hmem⟩
        rcases List.mem_cons.mp hmem with rfl | hmem
        · exact ⟨0, v, Nat.succ_pos n, .refl, hi'⟩
        · cases hchild : child i' with
          | none =>
              rw [hchild] at hmem
              cases hmem
          | some v' =>
              rw [hchild] at hmem
              obtain ⟨k, w, hk, hbelow, hi⟩ := ih.mp hmem
              have hfirst : Below items child v 1 v' := .step .refl hi' hchild
              exact ⟨1 + k, w, by omega, hfirst.trans hbelow, hi⟩
      · rintro ⟨k, w, hk, hbelow, hi⟩
        cases k with
        | zero =>
            cases hbelow with
            | refl => exact ⟨i, hi, List.mem_cons_self⟩
        | succ k =>
            obtain ⟨i', v', hi', hchild, hrest⟩ := hbelow.head
            refine ⟨i', hi', List.mem_cons_of_mem _ ?_⟩
            rw [hchild]
            exact ih.mpr ⟨k, w, Nat.lt_of_succ_lt_succ hk, hrest, hi⟩

/-- A listing is complete if nothing is further behind: one more level adds nothing to it. -/
theorem listing_succ (h : ∀ w, ¬ Below items child v n w) :
    listing items child (n + 1) v = listing items child n v := by
  induction n generalizing v with
  | zero => exact absurd .refl (h v)
  | succ n ih =>
      rw [listing, listing]
      refine List.flatMap_congr fun i hi => ?_
      cases hchild : child i with
      | none => rfl
      | some v' =>
          have hrest : ∀ w, ¬ Below items child v' n w := by
            intro w hbelow
            have hfirst : Below items child v 1 v' := .step .refl hi hchild
            have hall := hfirst.trans hbelow
            rw [Nat.add_comm] at hall
            exact h w hall
          exact congrArg (i :: ·) (ih hrest)

/-! ## Trees -/

section Tree

variable {owner : I → V} (howner : ∀ v, ∀ i ∈ items v, owner i = v)
  (htree : IsTree items child root)

include howner htree

/-- **A node has one level**: two paths from the root to a node are equally long, since a node
has one parent and the root has none. -/
theorem level_unique (h : Below items child root n v) (h' : Below items child root m v) :
    n = m := by
  induction h generalizing m with
  | refl =>
      cases h' with
      | refl => rfl
      | step hbelow hi hchild => exact absurd hchild (htree.root ⟨_, hbelow⟩ hi)
  | step hbelow hi hchild ih =>
      cases h' with
      | refl => exact absurd hchild (htree.root ⟨_, hbelow⟩ hi)
      | step hbelow' hi' hchild' =>
          have hitem := htree.parent ⟨_, hbelow⟩ ⟨_, hbelow'⟩ hi hi' hchild hchild'
          subst hitem
          obtain rfl := (howner _ _ hi).symm.trans (howner _ _ hi')
          exact congrArg (· + 1) (ih hbelow')

/-- Two nodes of one level from which a common node is reached at the same distance are the same
node. -/
theorem ancestor_unique {v' : V} (hv : Below items child root k v)
    (hv' : Below items child root k v') (h : Below items child v n w)
    (h' : Below items child v' n w) : v = v' := by
  induction n generalizing w with
  | zero =>
      cases h with
      | refl =>
          cases h' with
          | refl => rfl
  | succ n ih =>
      cases h with
      | step hbelow hi hchild =>
          cases h' with
          | step hbelow' hi' hchild' =>
              have hitem := htree.parent ⟨_, hv.trans hbelow⟩ ⟨_, hv'.trans hbelow'⟩ hi hi' hchild
                hchild'
              subst hitem
              obtain rfl := (howner _ _ hi).symm.trans (howner _ _ hi')
              exact ih hbelow hbelow'

/-- Levels are bounded by the number of nodes: the nodes on a path from the root are all
different. -/
theorem level_lt_card [Fintype V] (h : Below items child root n v) : n < Fintype.card V := by
  have hlevels : ∀ k : Fin (n + 1), ∃ w, Below items child root k w :=
    fun k => h.exists_level (Nat.le_of_lt_succ k.isLt)
  choose node hnode using hlevels
  have hinjective : Function.Injective node := by
    intro k k' heq
    have hk := hnode k
    rw [heq] at hk
    exact Fin.ext (level_unique howner htree hk (hnode k'))
  have hcard := Fintype.card_le_of_injective node hinjective
  rw [Fintype.card_fin] at hcard
  omega

/-- **No item is listed twice**, if no node has an item twice: an item belongs to one node, and
a node is reached in one way. By induction on the levels, with the parts behind two items kept
apart. -/
theorem nodup_listing (hitems : ∀ v, (items v).Nodup) (hv : Below items child root k v) :
    (listing items child n v).Nodup := by
  induction n generalizing v k with
  | zero => exact List.nodup_nil
  | succ n ih =>
      rw [listing, List.nodup_flatMap]
      -- What stands behind an item is listed at a deeper level.
      have hdeeper : ∀ {i x v'}, i ∈ items v → child i = some v' →
          x ∈ listing items child n v' → ∃ a w, Below items child v' a w ∧ x ∈ items w ∧
            Below items child root (k + 1 + a) w := by
        intro i x v' hi hchild hx
        obtain ⟨a, w, -, hbelow, hx⟩ := mem_listing.mp hx
        exact ⟨a, w, hbelow, hx, (hv.step hi hchild).trans hbelow⟩
      have hnot : ∀ {i x v'}, i ∈ items v → child i = some v' →
          x ∈ listing items child n v' → x ∉ items v := by
        intro i x v' hi hchild hx hxv
        obtain ⟨a, w, -, hxw, hlevel⟩ := hdeeper hi hchild hx
        obtain rfl := (howner _ _ hxv).symm.trans (howner _ _ hxw)
        have hsame := level_unique howner htree hv hlevel
        omega
      constructor
      · intro i hi
        refine List.nodup_cons.mpr ?_
        cases hchild : child i with
        | none => exact ⟨List.not_mem_nil, List.nodup_nil⟩
        | some v' => exact ⟨fun hmem => hnot hi hchild hmem hi, ih (hv.step hi hchild)⟩
      · refine (hitems v).imp_of_mem fun {i i'} hi hi' hne => ?_
        intro x hx hx'
        rcases List.mem_cons.mp hx with rfl | hx
        · rcases List.mem_cons.mp hx' with rfl | hx'
          · exact hne rfl
          · cases hchild' : child i' with
            | none =>
                rw [hchild'] at hx'
                cases hx'
            | some v' =>
                rw [hchild'] at hx'
                exact hnot hi' hchild' hx' hi
        · cases hchild : child i with
          | none =>
              rw [hchild] at hx
              cases hx
          | some v₁ =>
              rw [hchild] at hx
              rcases List.mem_cons.mp hx' with rfl | hx'
              · exact hnot hi hchild hx hi'
              · cases hchild' : child i' with
                | none =>
                    rw [hchild'] at hx'
                    cases hx'
                | some v₂ =>
                    rw [hchild'] at hx'
                    obtain ⟨a, w, hbelow, hxw, hlevel⟩ := hdeeper hi hchild hx
                    obtain ⟨a', w', hbelow', hxw', hlevel'⟩ := hdeeper hi' hchild' hx'
                    obtain rfl := (howner _ _ hxw).symm.trans (howner _ _ hxw')
                    have hdistance := level_unique howner htree hlevel hlevel'
                    obtain rfl : a = a' := by omega
                    obtain rfl := ancestor_unique howner htree (hv.step hi hchild)
                      (hv.step hi' hchild') hbelow hbelow'
                    exact hne (htree.parent ⟨_, hv⟩ ⟨_, hv⟩ hi hi' hchild hchild')

end Tree

/-! ## The complete listing -/

section Preorder

variable [Fintype V]

variable (items child) in
/-- All items from node `v` on, depth first. -/
def preorder (v : V) : List I := listing items child (Fintype.card V) v

variable {owner : I → V} (howner : ∀ v, ∀ i ∈ items v, owner i = v)
  (htree : IsTree items child root)

include howner htree

/-- **The preorder of a tree holds the items of all its nodes.** -/
theorem mem_preorder {i : I} : i ∈ preorder items child root ↔
    ∃ v, Reachable items child root v ∧ i ∈ items v := by
  rw [preorder, mem_listing]
  constructor
  · rintro ⟨n, v, -, hbelow, hi⟩
    exact ⟨v, ⟨n, hbelow⟩, hi⟩
  · rintro ⟨v, ⟨n, hbelow⟩, hi⟩
    exact ⟨n, v, level_lt_card howner htree hbelow, hbelow, hi⟩

/-- Each of them once. -/
theorem nodup_preorder (hitems : ∀ v, (items v).Nodup) :
    (preorder items child root).Nodup :=
  nodup_listing howner htree hitems .refl

/-- **An item comes before what stands behind it**, and that before the next item: the equation
of the listing in preorder, without a bound on the levels. -/
theorem preorder_eq (hv : Reachable items child root v) :
    preorder items child v = (items v).flatMap fun i =>
      i :: match child i with
        | none => []
        | some w => preorder items child w := by
  obtain ⟨k, hbelow⟩ := hv
  have hcomplete : ∀ w, ¬ Below items child v (Fintype.card V) w := by
    intro w hdeep
    have hlevel := level_lt_card howner htree (hbelow.trans hdeep)
    omega
  rw [preorder, ← listing_succ hcomplete, listing]
  rfl

end Preorder

end RootedTree
