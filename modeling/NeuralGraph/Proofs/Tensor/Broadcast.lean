import Mathlib.Order.Bounds.Basic
import NeuralGraph.Proofs.Tensor.RowMajor

/-! Broadcasting as a join. Shapes are ordered by what they stretch to, two of them broadcast when
some shape lies above both, and the broadcast is the least such shape; the laws of a partial join
follow from that alone. -/

namespace NeuralGraph

namespace Extent.StretchesTo

variable {a b c whole extent : Extent}

theorem refl (extent : Extent) : StretchesTo extent extent := .inl rfl

theorem trans (first : StretchesTo a b) (second : StretchesTo b c) : StretchesTo a c := by
  rcases first with rfl | one
  · exact second
  · exact .inr one

theorem antisymm (first : StretchesTo a b) (second : StretchesTo b a) : a = b := by
  rcases first with same | one
  · exact same
  · rcases second with same | one'
    · exact same.symm
    · exact one.trans one'.symm

end Extent.StretchesTo

namespace Shape

section Axis

variable {a b extent whole : Extent}

/-- What stretches to the extent of an axis are the extents that both operands stretch to. -/
theorem stretchesTo_iff_of_stretch (joined : stretch a b = some extent) :
    Extent.StretchesTo extent whole ↔
      Extent.StretchesTo a whole ∧ Extent.StretchesTo b whole := by
  obtain ⟨left, right⟩ := stretch_eq_some joined
  refine ⟨fun above => ⟨left.trans above, right.trans above⟩, fun ⟨aboveLeft, aboveRight⟩ => ?_⟩
  rcases left with rfl | rfl
  · exact aboveLeft
  · rcases right with rfl | rfl
    · exact aboveRight
    · -- Two extents of one: the axis is the first of them.
      obtain rfl : (1 : Extent) = extent := by simpa [stretch] using joined
      exact aboveLeft

theorem exists_stretch (left : Extent.StretchesTo a whole) (right : Extent.StretchesTo b whole) :
    ∃ extent, stretch a b = some extent := by
  rcases right with rfl | rfl
  · rcases left with rfl | rfl
    · exact ⟨a, if_pos (.inl rfl)⟩
    · unfold stretch
      split
      · exact ⟨_, rfl⟩
      · exact ⟨b, if_pos rfl⟩
  · exact ⟨a, if_pos (.inr rfl)⟩

end Axis

/-- Extents that stretch to the first ones of others. -/
inductive Aligned : List Extent → List Extent → Prop
  | nil (wholes : List Extent) : Aligned [] wholes
  | cons {extent whole : Extent} {extents wholes : List Extent}
      (first : Extent.StretchesTo extent whole) (rest : Aligned extents wholes) :
      Aligned (extent :: extents) (whole :: wholes)

namespace Aligned

variable {a b c : List Extent}

theorem refl (extents : List Extent) : Aligned extents extents := by
  induction extents with
  | nil => exact .nil _
  | cons extent _ ih => exact .cons (.refl extent) ih

theorem trans (first : Aligned a b) (second : Aligned b c) : Aligned a c := by
  induction first generalizing c with
  | nil => exact .nil _
  | cons stretches _ ih =>
    cases second with
    | cons stretches' rest => exact .cons (stretches.trans stretches') (ih rest)

theorem antisymm (first : Aligned a b) (second : Aligned b a) : a = b := by
  induction first with
  | nil => cases second; rfl
  | cons stretches _ ih =>
    cases second with
    | cons stretches' rest => rw [stretches.antisymm stretches', ih rest]

theorem iff_take : Aligned a b ↔
    a.length ≤ b.length ∧ List.Forall₂ Extent.StretchesTo a (b.take a.length) := by
  constructor
  · intro aligned
    induction aligned with
    | nil => exact ⟨Nat.zero_le _, .nil⟩
    | cons stretches _ ih => exact ⟨Nat.succ_le_succ ih.1, .cons stretches ih.2⟩
  · rintro ⟨length, stretch⟩
    induction a generalizing b with
    | nil => exact .nil _
    | cons extent a ih =>
      cases b with
      | nil => cases length
      | cons whole b =>
        cases stretch with
        | cons first rest => exact .cons first (ih (Nat.le_of_succ_le_succ length) rest)

end Aligned

section Reversed

variable {a b extents wholes : List Extent}

theorem aligned_iff_of_broadcastReversed (joined : broadcastReversed a b = some extents) :
    Aligned extents wholes ↔ Aligned a wholes ∧ Aligned b wholes := by
  induction a generalizing b extents wholes with
  | nil =>
    cases joined
    exact ⟨fun above => ⟨.nil _, above⟩, And.right⟩
  | cons first a ih =>
    cases b with
    | nil =>
      cases joined
      exact ⟨fun above => ⟨above, .nil _⟩, And.left⟩
    | cons second b =>
      simp only [broadcastReversed, Option.bind_eq_bind, Option.bind_eq_some_iff] at joined
      obtain ⟨extent, stretched, rest, later, same⟩ := joined
      cases same
      constructor
      · rintro (_ | ⟨stretches, aligned⟩)
        obtain ⟨left, right⟩ := (stretchesTo_iff_of_stretch stretched).mp stretches
        obtain ⟨alignedLeft, alignedRight⟩ := (ih later).mp aligned
        exact ⟨.cons left alignedLeft, .cons right alignedRight⟩
      · rintro ⟨_ | ⟨left, alignedLeft⟩, _ | ⟨right, alignedRight⟩⟩
        exact .cons ((stretchesTo_iff_of_stretch stretched).mpr ⟨left, right⟩)
          ((ih later).mpr ⟨alignedLeft, alignedRight⟩)

theorem exists_broadcastReversed (left : Aligned a wholes) (right : Aligned b wholes) :
    ∃ extents, broadcastReversed a b = some extents := by
  induction left generalizing b with
  | nil => exact ⟨b, rfl⟩
  | cons stretches _ ih =>
    cases right with
    | nil => exact ⟨_, rfl⟩
    | cons stretches' aligned =>
      obtain ⟨extent, stretched⟩ := exists_stretch stretches stretches'
      obtain ⟨rest, later⟩ := ih aligned
      exact ⟨extent :: rest, by simp [broadcastReversed, stretched, later]⟩

end Reversed

theorem stretchesTo_iff_aligned {operand out : Shape} :
    operand.StretchesTo out ↔ Aligned operand.extents.reverse out.extents.reverse := by
  rw [Aligned.iff_take, StretchesTo, rank, rank, List.length_reverse, List.length_reverse,
    List.take_reverse, List.forall₂_reverse_iff]

/-- A shape lies below those that it stretches to; the scalar lies below all of them. -/
instance : PartialOrder Shape where
  le := StretchesTo
  le_refl shape := stretchesTo_iff_aligned.mpr (.refl _)
  le_trans _ _ _ first second := stretchesTo_iff_aligned.mpr
    ((stretchesTo_iff_aligned.mp first).trans (stretchesTo_iff_aligned.mp second))
  le_antisymm a b first second := by
    have same := (stretchesTo_iff_aligned.mp first).antisymm (stretchesTo_iff_aligned.mp second)
    cases a
    cases b
    exact congrArg Shape.mk (List.reverse_inj.mp same)

instance : OrderBot Shape where
  bot := ⟨[]⟩
  bot_le _ := stretchesTo_iff_aligned.mpr (.nil _)

theorem le_iff_aligned {a b : Shape} : a ≤ b ↔ Aligned a.extents.reverse b.extents.reverse :=
  stretchesTo_iff_aligned

end Shape

/-- A join of two elements that need not exist, with an element that adds nothing. -/
structure PartialJoin {α : Type} (join : α → α → Option α) (unit : α) : Prop where
  comm : ∀ a b, join a b = join b a
  idem : ∀ a, join a a = some a
  unit_join : ∀ a, join unit a = some a
  join_unit : ∀ a, join a unit = some a
  assoc : ∀ a b c, (join a b).bind (join · c) = (join b c).bind (join a)
  upper : ∀ a b s, join a b = some s → join a s = some s ∧ join b s = some s
  least : ∀ a b s, join a b = some s →
    ∀ t, join a t = some t → join b t = some t → join s t = some t

/-- A join that exists below every bound of both elements, and is the least bound. -/
structure LeastAbove {α : Type} [PartialOrder α] (join : α → α → Option α) : Prop where
  le_iff : ∀ {a b s}, join a b = some s → ∀ {t}, s ≤ t ↔ a ≤ t ∧ b ≤ t
  bounded : ∀ {a b t}, a ≤ t → b ≤ t → ∃ s, join a b = some s

namespace LeastAbove

variable {α : Type} [PartialOrder α] {join : α → α → Option α} {a b c s : α}

theorem eq_some_iff (least : LeastAbove join) : join a b = some s ↔ IsLUB {a, b} s := by
  have isLUB : ∀ {s}, join a b = some s → IsLUB {a, b} s := fun joined =>
    isLUB_iff_le_iff.mpr fun _ => by simpa [upperBounds] using least.le_iff joined
  refine ⟨isLUB, fun bound => ?_⟩
  obtain ⟨left, right⟩ : a ≤ s ∧ b ≤ s := by simpa [upperBounds] using bound.1
  obtain ⟨met, joined⟩ := least.bounded left right
  rw [joined, (isLUB joined).unique bound]

/-- Three elements are joined in two steps whenever they have a least bound: the first two have one
below it. -/
theorem bind_eq_some_iff (least : LeastAbove join) :
    (join a b).bind (join · c) = some s ↔ IsLUB {a, b, c} s := by
  have isLUB : ∀ {met s}, join a b = some met → join met c = some s → IsLUB {a, b, c} s :=
    fun first second => isLUB_iff_le_iff.mpr fun _ => by
      rw [least.le_iff second, least.le_iff first]
      simp [upperBounds, and_assoc]
  rw [Option.bind_eq_some_iff]
  refine ⟨fun ⟨met, first, second⟩ => isLUB first second, fun bound => ?_⟩
  obtain ⟨left, middle, right⟩ : a ≤ s ∧ b ≤ s ∧ c ≤ s := by simpa [upperBounds] using bound.1
  obtain ⟨met, first⟩ := least.bounded left middle
  obtain ⟨top, second⟩ := least.bounded ((least.le_iff first).mpr ⟨left, middle⟩) right
  exact ⟨met, first, by rw [second, (isLUB first second).unique bound]⟩

theorem comm (least : LeastAbove join) (a b : α) : join a b = join b a :=
  Option.ext fun s => by rw [least.eq_some_iff, least.eq_some_iff, Set.pair_comm]

theorem eq_right_iff (least : LeastAbove join) : join a b = some b ↔ a ≤ b := by
  refine ⟨fun joined => ((least.le_iff joined).mp (le_refl b)).1, fun below => ?_⟩
  rw [least.eq_some_iff]
  exact isLUB_iff_le_iff.mpr fun _ => by
    simpa [upperBounds] using below.trans

theorem assoc (least : LeastAbove join) (a b c : α) :
    (join a b).bind (join · c) = (join b c).bind (join a) := by
  have turned : (join b c).bind (join a) = (join b c).bind (join · a) :=
    congrArg _ (funext fun met => least.comm a met)
  have rotated : ({b, c, a} : Set α) = {a, b, c} := by rw [Set.pair_comm, Set.insert_comm]
  rw [turned]
  exact Option.ext fun s => by rw [least.bind_eq_some_iff, least.bind_eq_some_iff, rotated]

theorem partialJoin [OrderBot α] (least : LeastAbove join) : PartialJoin join ⊥ where
  comm := least.comm
  idem _ := least.eq_right_iff.mpr (le_refl _)
  unit_join _ := least.eq_right_iff.mpr bot_le
  join_unit a := (least.comm a ⊥).trans (least.eq_right_iff.mpr bot_le)
  assoc := least.assoc
  upper _ _ _ joined := by
    rw [least.eq_right_iff, least.eq_right_iff]
    exact (least.le_iff joined).mp (le_refl _)
  least _ _ _ joined _ left right := by
    rw [least.eq_right_iff] at left right ⊢
    exact (least.le_iff joined).mpr ⟨left, right⟩

end LeastAbove

namespace Shape

variable {a b s : Shape}

theorem broadcast_leastAbove : LeastAbove broadcast where
  le_iff joined _ := by
    obtain ⟨reversed, found, rfl⟩ := Option.map_eq_some_iff.mp joined
    rw [le_iff_aligned, le_iff_aligned, le_iff_aligned, List.reverse_reverse]
    exact aligned_iff_of_broadcastReversed found
  bounded left right := by
    obtain ⟨reversed, found⟩ :=
      exists_broadcastReversed (le_iff_aligned.mp left) (le_iff_aligned.mp right)
    exact ⟨⟨reversed.reverse⟩, by rw [broadcast, found]; rfl⟩

/-- The broadcast of two shapes is the least shape that both stretch to. -/
theorem broadcast_eq_some_iff : broadcast a b = some s ↔ IsLUB {a, b} s :=
  broadcast_leastAbove.eq_some_iff

/-- Shapes broadcast exactly when some shape lies above both. -/
theorem broadcast_isSome_iff : (broadcast a b).isSome ↔ ∃ t, a.StretchesTo t ∧ b.StretchesTo t := by
  rw [Option.isSome_iff_exists]
  constructor
  · rintro ⟨s, joined⟩
    exact ⟨s, broadcast_eq_some joined⟩
  · rintro ⟨t, left, right⟩
    exact broadcast_leastAbove.bounded left right

/-- Broadcasting is a partial join over the shapes of all ranks and extents, with the scalar as its
unit. -/
theorem broadcast_partialJoin : PartialJoin broadcast ⟨[]⟩ := broadcast_leastAbove.partialJoin

-- An extent of zero is stretched to, and refuses every extent but one and itself.
example :
    broadcast ⟨[2, 1]⟩ ⟨[0]⟩ = some ⟨[2, 0]⟩ ∧ broadcast ⟨[2, 0]⟩ ⟨[3]⟩ = none := by decide

end Shape

end NeuralGraph
