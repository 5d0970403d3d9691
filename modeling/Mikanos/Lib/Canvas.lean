import Mathlib.Tactic

/-!
# Painting a canvas

A canvas gives every point an ink, and a stroke changes the ink of one point.
What a list of strokes leaves at a point is the ink of the last stroke there
(`paint_append` takes the list apart at any place), so for a list in a single
ink only the set of points it covers counts (`paint_uniform`).  Where several
layers draw, a point shows the one that drew on it last (`paint_top`).
-/

namespace Mikanos.Canvas

variable {P C : Type}

/-- One stroke: the point it touches and the ink it leaves. -/
structure Stroke (P C : Type) where
  point : P
  ink : C

/-- The strokes touch the point. -/
def Covers (strokes : List (Stroke P C)) (p : P) : Prop := ∃ s ∈ strokes, s.point = p

/-- All strokes are made in one ink. -/
def InOneInk (strokes : List (Stroke P C)) (ink : C) : Prop := ∀ s ∈ strokes, s.ink = ink

/-- One picture over another covers what either of them covers. -/
theorem covers_append {xs ys : List (Stroke P C)} {p : P} :
    Covers (xs ++ ys) p ↔ Covers xs p ∨ Covers ys p := by
  simp only [Covers, List.mem_append, or_and_right, exists_or]

/-- A picture that is made of parts covers what one of them covers. -/
theorem covers_flatMap {α : Type} {items : List α} {strokes : α → List (Stroke P C)} {p : P} :
    Covers (items.flatMap strokes) p ↔ ∃ i ∈ items, Covers (strokes i) p := by
  constructor
  · rintro ⟨s, hs, hp⟩
    obtain ⟨i, hi, hsi⟩ := List.mem_flatMap.mp hs
    exact ⟨i, hi, s, hsi, hp⟩
  · rintro ⟨i, hi, s, hsi, hp⟩
    exact ⟨s, List.mem_flatMap.mpr ⟨i, hi, hsi⟩, hp⟩

/-- A picture put together from parts is in one ink if every part is, whatever the list of
parts. -/
theorem InOneInk.flatMap {α : Type} {items : List α} {strokes : α → List (Stroke P C)} {ink : C}
    (h : ∀ i ∈ items, InOneInk (strokes i) ink) : InOneInk (items.flatMap strokes) ink := by
  intro s hs
  obtain ⟨i, hi, hsi⟩ := List.mem_flatMap.mp hs
  exact h i hi s hsi

section Painting

variable [DecidableEq P]

/-- The canvas after the strokes, made from left to right. -/
def paint : List (Stroke P C) → (P → C) → (P → C)
  | [], canvas => canvas
  | s :: strokes, canvas => paint strokes (Function.update canvas s.point s.ink)

/-- Painting in two goes. -/
theorem paint_append (xs ys : List (Stroke P C)) (canvas : P → C) :
    paint (xs ++ ys) canvas = paint ys (paint xs canvas) := by
  induction xs generalizing canvas with
  | nil => rfl
  | cons s xs ih => exact ih _

/-- A point that no stroke touches keeps the ink it had, whatever is drawn around it. -/
theorem paint_of_not_covers {strokes : List (Stroke P C)} {p : P} (h : ¬ Covers strokes p)
    (canvas : P → C) : paint strokes canvas p = canvas p := by
  induction strokes generalizing canvas with
  | nil => rfl
  | cons s strokes ih =>
      have hrest : ¬ Covers strokes p := fun ⟨t, ht, hp⟩ => h ⟨t, List.mem_cons_of_mem _ ht, hp⟩
      have hfirst : p ≠ s.point := fun hp => h ⟨s, List.mem_cons_self, hp.symm⟩
      calc paint strokes (Function.update canvas s.point s.ink) p
          = Function.update canvas s.point s.ink p := ih hrest _
        _ = canvas p := Function.update_of_ne hfirst _ _

/-- What a point shows in the end depends on what that point alone showed before, and on no
other point of the canvas. -/
theorem paint_congr {strokes : List (Stroke P C)} {p : P} {canvas canvas' : P → C}
    (h : canvas p = canvas' p) : paint strokes canvas p = paint strokes canvas' p := by
  induction strokes generalizing canvas canvas' with
  | nil => exact h
  | cons s strokes ih =>
      apply ih
      by_cases hp : p = s.point
      · rw [hp, Function.update_self, Function.update_self]
      · rw [Function.update_of_ne hp, Function.update_of_ne hp, h]

/-- A point touched by strokes of one ink has that ink in the end, in whatever order and how
often it is touched. -/
theorem paint_of_covers {strokes : List (Stroke P C)} {ink : C} (hink : InOneInk strokes ink)
    {p : P} (h : Covers strokes p) (canvas : P → C) : paint strokes canvas p = ink := by
  induction strokes generalizing canvas with
  | nil =>
      obtain ⟨s, hs, -⟩ := h
      cases hs
  | cons s strokes ih =>
      by_cases hrest : Covers strokes p
      · exact ih (fun t ht => hink t (List.mem_cons_of_mem _ ht)) hrest _
      · obtain ⟨t, ht, hp⟩ := h
        have hts : t = s := by
          rcases List.mem_cons.mp ht with hts | ht
          · exact hts
          · exact absurd ⟨t, ht, hp⟩ hrest
        subst hts hp
        calc paint strokes (Function.update canvas t.point t.ink) t.point
            = Function.update canvas t.point t.ink t.point := paint_of_not_covers hrest _
          _ = t.ink := Function.update_self _ _ _
          _ = ink := hink t ht

/-- **Strokes in one ink** leave it on the points they cover, and there only. -/
theorem paint_uniform {strokes : List (Stroke P C)} {ink : C} (hink : InOneInk strokes ink)
    (p : P) [Decidable (Covers strokes p)] (canvas : P → C) :
    paint strokes canvas p = if Covers strokes p then ink else canvas p := by
  split
  case isTrue h => exact paint_of_covers hink h canvas
  case isFalse h => exact paint_of_not_covers h canvas

/-- A point that is touched shows nothing of what was there before: the last stroke that touches
it decides. -/
theorem paint_eq_of_covers {strokes : List (Stroke P C)} {p : P} (h : Covers strokes p)
    (canvas canvas' : P → C) : paint strokes canvas p = paint strokes canvas' p := by
  induction strokes generalizing canvas canvas' with
  | nil =>
      obtain ⟨s, hs, -⟩ := h
      cases hs
  | cons s strokes ih =>
      by_cases hrest : Covers strokes p
      · exact ih hrest _ _
      · obtain ⟨t, ht, hp⟩ := h
        rcases List.mem_cons.mp ht with rfl | ht
        · subst hp
          change paint strokes (Function.update canvas t.point t.ink) t.point =
            paint strokes (Function.update canvas' t.point t.ink) t.point
          apply paint_congr
          rw [Function.update_self, Function.update_self]
        · exact absurd ⟨t, ht, hp⟩ hrest

instance (strokes : List (Stroke P C)) (p : P) : Decidable (Covers strokes p) :=
  inferInstanceAs (Decidable (∃ s ∈ strokes, s.point = p))

/-! ## Layers

Several things draw on one canvas, each on a layer of its own that has a picture in every state.
Nobody restores what was below, so a point shows the layer that drew on it last; but as long as a
layer that changes draws wherever it looks different, the point shows this layer as it is now.
-/

section Layers

variable {L S : Type} {picture : S → L → P → C}

variable (picture) in
/-- A step in which one layer draws: where it does, its new picture is seen, and elsewhere no layer
looks different. -/
structure Redraws (layer : L) (strokes : List (Stroke P C)) (s s' : S) : Prop where
  shown : ∀ p, Covers strokes p → ∀ canvas, paint strokes canvas p = picture s' layer p
  kept : ∀ p, ¬ Covers strokes p → ∀ l, picture s' l p = picture s l p

variable (picture) in
/-- Any number of such steps. -/
inductive Redrawn : S → List (L × List (Stroke P C)) → S → Prop where
  | refl (s : S) : Redrawn s [] s
  | step {layer : L} {strokes : List (Stroke P C)} {drawn : List (L × List (Stroke P C))}
      {s s' s'' : S} (hstep : Redraws picture layer strokes s s') (hrest : Redrawn s' drawn s'') :
      Redrawn s ((layer, strokes) :: drawn) s''

/-- All the strokes. -/
def strokesOf (drawn : List (L × List (Stroke P C))) : List (Stroke P C) :=
  drawn.flatMap Prod.snd

/-- The layer that has drawn last on the point, the layer `l` at first. -/
def top (p : P) (l : L) : List (L × List (Stroke P C)) → L
  | [] => l
  | (layer, strokes) :: drawn => top p (if Covers strokes p then layer else l) drawn

/-- **A point shows the layer that drew on it last**, as this layer is now: whoever redraws only
where its picture has changed leaves the others to what they drew before. -/
theorem paint_top {s s' : S} {drawn : List (L × List (Stroke P C))}
    (h : Redrawn picture s drawn s') {l : L} {p : P} {canvas : P → C}
    (hp : canvas p = picture s l p) :
    paint (strokesOf drawn) canvas p = picture s' (top p l drawn) p := by
  induction h generalizing l canvas with
  | refl s => exact hp
  | @step s s' s'' drawn layer strokes hstep hrest ih =>
      rw [strokesOf, List.flatMap_cons, paint_append, top]
      apply ih
      split
      case isTrue hcovers => exact hstep.shown p hcovers canvas
      case isFalse hcovers => rw [paint_of_not_covers hcovers, hp, hstep.kept p hcovers l]

end Layers

end Painting

end Mikanos.Canvas
