import DiffTensor.Proofs.Adjoint
import DiffTensor.Proofs.Semilattice

/-!
# Summing down what was broadcast

A buffer is summed down along the map by which broadcasting reads: coordinates of the larger shape
are restricted to the smaller one. Each element of the result is the sum of those whose coordinates
are restricted to its own (`SummedDown`).

So summing down is adjoint to spreading a buffer over the larger shape (`dot_spread`), and as
restricting in two steps is restricting at once (`restrict_restrict`), summing down in two steps is
summing down at once (`reduce_reduce`). Both are proved on positions, and read off at coordinates
(`sum_readers`).

Only sizes can be in the way (`reduce_adjoint_spread`). The smaller shape may be too large for a
buffer where the larger one has no elements at all (`reduce_without_room`).
-/

namespace DiffTensor

open Finset

/-! ## Coordinates of a shape -/

namespace Layout

/-- The coordinates of all positions of a shape. -/
def indices (dims : List Nat) : Finset (List Nat) := (range dims.prod).image (coordinates dims)

theorem mem_indices {dims coords : List Nat} : coords ∈ indices dims ↔ Within dims coords := by
  rw [indices, mem_image]
  constructor
  · rintro ⟨k, hk, rfl⟩
    exact within_coordinates (mem_range.1 hk)
  · intro h
    exact ⟨flatten dims coords, mem_range.2 (flatten_lt h), coordinates_flatten h⟩

/-- Coordinates are told apart by their positions. -/
theorem flatten_inj {dims i j : List Nat} (hi : Within dims i) (hj : Within dims j) :
    flatten dims i = flatten dims j ↔ i = j := by
  constructor
  · intro h
    rw [← coordinates_flatten hi, h, coordinates_flatten hj]
  · intro h
    rw [h]

theorem sum_indices {M : Type} [AddCommMonoid M] (dims : List Nat) (f : Nat → M) :
    ∑ i ∈ indices dims, f (flatten dims i) = ∑ k ∈ range dims.prod, f k := by
  have hinj : Set.InjOn (coordinates dims) (range dims.prod) := by
    intro k hk k' hk' h
    have hk := mem_range.1 hk
    have hk' := mem_range.1 hk'
    rw [← flatten_coordinates hk, h, flatten_coordinates hk']
  rw [indices, sum_image hinj]
  refine sum_congr rfl fun k hk => ?_
  rw [flatten_coordinates (mem_range.1 hk)]

/-- What is read from a position is what its coordinates are restricted from. -/
theorem sum_readers {M : Type} [AddCommMonoid M] {source target : List Nat}
    (ho : Onto source target) {j : List Nat} (hj : Within source j) (f : Nat → M) :
    ∑ k ∈ range target.prod with readAt source target k = flatten source j, f k =
      ∑ i ∈ indices target with restrict source i = j, f (flatten target i) := by
  rw [sum_filter, sum_filter, ← sum_indices target fun k =>
    if readAt source target k = flatten source j then f k else 0]
  refine sum_congr rfl fun i hi => ?_
  have hi := mem_indices.1 hi
  rw [readAt_flatten source hi]
  exact if_congr (flatten_inj (within_restrict ho hi) hj) rfl rfl

/-! ## Restricting in two steps -/

theorem zipWith_keep : ∀ {source middle : List Nat} (coords : List Nat),
    List.Forall₂ (fun d t => d = 1 ∨ d = t) source middle →
    List.zipWith (fun d i => if d = 1 then 0 else i) source
        (List.zipWith (fun d i => if d = 1 then 0 else i) middle coords) =
      List.zipWith (fun d i => if d = 1 then 0 else i) source coords
  | _, _, _, .nil => rfl
  | _ :: _, _ :: _, [], .cons _ _ => rfl
  | d :: source, t :: middle, i :: coords, .cons hd h => by
    simp only [List.zipWith_cons_cons, zipWith_keep coords h, List.cons.injEq, and_true]
    rcases hd with rfl | rfl
    · simp
    · split <;> rfl

/-- Restricting through a shape in between changes nothing. -/
theorem restrict_restrict {source middle coords : List Nat} (h : Onto source middle)
    (hl : middle.length ≤ coords.length) :
    restrict source (restrict middle coords) = restrict source coords := by
  have hle : source.length ≤ middle.length := h.1
  unfold restrict
  rw [List.length_zipWith, List.length_drop, Nat.sub_sub_self hl, Nat.min_self,
    List.drop_zipWith, List.drop_drop, zipWith_keep _ h.2]
  congr 2
  omega

theorem readAt_readAt {source middle target : List Nat} (h : Onto source middle)
    (hm : Onto middle target) {k : Nat} (hk : k < target.prod) :
    readAt source middle (readAt middle target k) = readAt source target k := by
  have hin : Within target (coordinates target k) := within_coordinates hk
  have hl : middle.length ≤ (coordinates target k).length := by
    rw [length_coordinates]
    exact hm.1
  calc readAt source middle (flatten middle (restrict middle (coordinates target k)))
    _ = flatten source (restrict source (restrict middle (coordinates target k))) :=
      readAt_flatten source (within_restrict hm hin)
    _ = flatten source (restrict source (coordinates target k)) := by
      rw [restrict_restrict h hl]

/-- Sums over what is read in two steps are sums over what is read at once. -/
theorem sum_readers_readers {M : Type} [AddCommMonoid M] {source middle target : List Nat}
    (h : Onto source middle) (hm : Onto middle target) (f : Nat → M) (j : Nat) :
    ∑ m ∈ range middle.prod with readAt source middle m = j,
        ∑ k ∈ range target.prod with readAt middle target k = m, f k =
      ∑ k ∈ range target.prod with readAt source target k = j, f k := by
  have hmaps : ∀ k ∈ {k ∈ range target.prod | readAt source target k = j},
      readAt middle target k ∈ {m ∈ range middle.prod | readAt source middle m = j} := by
    intro k hk
    obtain ⟨hk, hkj⟩ := mem_filter.1 hk
    have hk := mem_range.1 hk
    rw [mem_filter, mem_range, readAt_readAt h hm hk]
    exact ⟨readAt_lt hm hk, hkj⟩
  rw [← sum_fiberwise_of_maps_to hmaps f]
  refine sum_congr rfl fun m hmem => ?_
  have hmj := (mem_filter.1 hmem).2
  rw [filter_filter]
  refine sum_congr (filter_congr fun k hk => ?_) fun _ _ => rfl
  constructor
  · rintro rfl
    rw [readAt_readAt h hm (mem_range.1 hk)] at hmj
    exact ⟨hmj, rfl⟩
  · exact And.right

end Layout

namespace Buffer

open Layout (flatten restrict indices Within)

/-! ## Broadcasting onto a shape -/

section

variable {α : Type} [Scalar α]

/-- What is read of a buffer through a larger shape, laid out in that shape. -/
def spread (b : Buffer α) (target : List Nat) : Buffer α :=
  ⟨target, Array.ofFn fun k : Fin target.prod => b.entry (Layout.readAt b.shape target k)⟩

theorem tabulates_spread (b : Buffer α) (target : List Nat) :
    (b.spread target).Tabulates target fun k => b.entry (Layout.readAt b.shape target k) :=
  tabulates_ofFn rfl fun k => b.entry (Layout.readAt b.shape target k)

/-- Over its own shape there is nothing to spread. -/
theorem spread_self {b : Buffer α} (hb : b.WellShaped) : b.spread b.shape = b := by
  refine ((tabulates_spread b b.shape).congr fun k hk => ?_).unique (tabulates_self hb)
  rw [Layout.readAt_self hk]

/-- A combination under broadcasting combines what is spread, element by element. -/
theorem combine_eq_zipMap {a b : Buffer α} {t : List Nat} (ha : a.WellShaped)
    (hb : b.WellShaped) (hj : Shape.join a.shape b.shape = some t)
    (h : Addressable a.shape b.shape t) (name : String) (f : α → α → α) :
    a.combine name b f = zipMap f (a.spread t) (b.spread t) := by
  have sa := tabulates_spread a t
  have sb := tabulates_spread b t
  obtain ⟨c, hc, hT⟩ := combine_eq ha hb hj h name f
  obtain ⟨z, hz, hZ⟩ := zipMap_eq sa.full sb.full rfl f
  have hZ : z.Tabulates t fun k => f (a.entry (Layout.readAt a.shape t k))
      (b.entry (Layout.readAt b.shape t k)) :=
    hZ.congr fun k hk => by rw [sa.entry_eq k hk, sb.entry_eq k hk]
  rw [hc, hz, hT.unique hZ]

/-- With a buffer of the larger shape, it is what is spread over that shape that is combined. -/
theorem combine_onto_eq_zipMap {x y : Buffer α} {s t : List Nat} (hx : x.Shaped s)
    (hy : y.Shaped t) (hj : Shape.join s t = some t) (h : Addressable s t t) (name : String)
    (f : α → α → α) : x.combine name y f = zipMap f (x.spread t) y := by
  obtain ⟨hx, rfl⟩ := hx
  obtain ⟨hy, rfl⟩ := hy
  rw [combine_eq_zipMap hx hy hj h, spread_self hy]

end

/-! ## Sizes -/

/-- The sizes that are in the way of summing down: partial products that count elements or give
strides, and the numbers of elements themselves. -/
theorem addable_iff {s t : List Nat} : Addable s t ↔
    Extent.trailing s < Extent.wordLimit ∧
      (Extent.leading s < Extent.wordLimit ∧ s.prod < Extent.allocationLimit) ∧
      Extent.leading t < Extent.wordLimit ∧ t.prod < Extent.allocationLimit := by
  rw [← Layout.steady_iff, ← Extent.saturated_lt_iff, ← Extent.saturated_lt_iff]
  exact ⟨fun h => ⟨h.steady, h.room, h.room_target⟩, fun ⟨hs, hr, ht⟩ => ⟨hs, hr, ht⟩⟩

/-- Where a buffer can be summed down at once and to a shape in between, it can be summed down from
there. -/
theorem Reducible.from_middle {s u t : List Nat} (h : Reducible s t) (hu : Reducible u t)
    (hsu : Shape.join s u = some u) (hut : Shape.join u t = some t) : Reducible s u := by
  rcases h with rfl | h
  · -- Nothing lies strictly in between.
    rw [Shape.join_comm, hut] at hsu
    exact .inl (Option.some.inj hsu)
  · rcases hu with rfl | hu
    · exact .inr h
    · exact .inr ⟨h.steady, h.room, hu.room⟩

/-! ## Summing down -/

variable {K : Type} [Field K] [LinearOrder K] [Elementary K]

/-- The buffer `c` of shape `s` is `g` summed down: each element of `g` is counted at the
coordinates to which its own are restricted, and nowhere else. -/
structure SummedDown (g : Buffer K) (s : List Nat) (c : Buffer K) : Prop where
  shape_eq : c.shape = s
  full : c.WellShaped
  counted (i : List Nat) : Within g.shape i → Within s (restrict s i)
  entry (j : List Nat) : Within s j → c.entry (flatten s j) =
    ∑ i ∈ indices g.shape with restrict s i = j, g.entry (flatten g.shape i)
  unread (j : List Nat) : Within s j → (∀ i, Within g.shape i → restrict s i ≠ j) →
    c.entry (flatten s j) = 0

theorem Tabulates.summedDown {g c : Buffer K} {s : List Nat} (ho : Layout.Onto s g.shape)
    (hT : c.Tabulates s fun j =>
      ∑ k ∈ range g.shape.prod with Layout.readAt s g.shape k = j, g.entry k) :
    SummedDown g s c := by
  have hentry (j : List Nat) (hj : Within s j) : c.entry (flatten s j) =
      ∑ i ∈ indices g.shape with restrict s i = j, g.entry (flatten g.shape i) := by
    rw [hT.entry_eq _ (Layout.flatten_lt hj), Layout.sum_readers ho hj]
  refine ⟨hT.shape_eq, hT.full, fun i hi => Layout.within_restrict ho hi, hentry,
    fun j hj hnone => ?_⟩
  rw [hentry j hj]
  refine sum_eq_zero fun i hi => ?_
  obtain ⟨hi, hij⟩ := mem_filter.1 hi
  exact absurd hij (hnone i (Layout.mem_indices.1 hi))

/-- Summing down is adjoint to spreading. -/
theorem dot_spread {g c x : Buffer K} {s : List Nat} (ho : Layout.Onto s g.shape)
    (hT : c.Tabulates s fun j =>
      ∑ k ∈ range g.shape.prod with Layout.readAt s g.shape k = j, g.entry k)
    (hx : x.shape = s) : (x.spread g.shape).dot g = x.dot c := by
  have hs := tabulates_spread x g.shape
  calc (x.spread g.shape).dot g
    _ = ∑ k ∈ range g.shape.prod, g.entry k * x.entry (Layout.readAt s g.shape k) := by
      unfold dot
      rw [hs.shape_eq]
      refine sum_congr rfl fun k hk => ?_
      rw [hs.entry_eq k (mem_range.1 hk), hx, mul_comm]
    _ = c.dot x := (hT.dot_readers ho x).symm
    _ = x.dot c := by
      unfold dot
      rw [hT.shape_eq, hx]
      exact sum_congr rfl fun k _ => mul_comm _ _

/-- Summing down to a shape in between does not change what is summed down to in the end. -/
theorem reduce_reduce {g : Buffer K} {s u : List Nat} (hg : g.WellShaped)
    (hj : Shape.join s g.shape = some g.shape) (hr : Reducible s g.shape)
    (hsu : Shape.join s u = some u) (hut : Shape.join u g.shape = some g.shape)
    (hu : Reducible u g.shape) : (g.reduce u >>= fun h => h.reduce s) = g.reduce s := by
  have onto_s := (Layout.onto_of_join hj).1
  have onto_u := (Layout.onto_of_join hut).1
  have onto_su := (Layout.onto_of_join hsu).1
  obtain ⟨c, hc, hT⟩ := exists_reduce_sum hg onto_s hr
  obtain ⟨m, hm, hM⟩ := exists_reduce_sum hg onto_u hu
  obtain rfl := hM.shape_eq
  obtain ⟨d, hd, hD⟩ := exists_reduce_sum hM.full onto_su (hr.from_middle hu hsu hut)
  have hdc : d = c := by
    refine (hD.congr fun j _ => ?_).unique hT
    rw [← Layout.sum_readers_readers onto_su onto_u g.entry j]
    refine sum_congr rfl fun k hk => ?_
    exact hM.entry_eq k (mem_range.1 (mem_filter.1 hk).1)
  rw [hm, Outcome.ok_bind, hd, hc, hdc]

/-- What summing down comes to, in exact arithmetic. Broadcasting combines what is spread. Where
nothing is in the way of summing down, there is a result: each element of it is a sum over what is
read there, it is adjoint to spreading, adding up all elements gives it too, and so does stopping at
a shape in between. Only sizes can be in the way: then, and only then, it breaks off. -/
theorem reduce_adjoint_spread {g : Buffer K} {s : List Nat} (hg : g.WellShaped)
    (hj : Shape.join s g.shape = some g.shape) :
    (∀ (x y : Buffer K) (name : String) (f : K → K → K), x.Shaped s → y.Shaped g.shape →
      Addressable s g.shape g.shape → x.combine name y f = zipMap f (x.spread g.shape) y) ∧
    (Reducible s g.shape → ∃ c, g.reduce s = .ok c ∧ SummedDown g s c ∧
      (∀ x : Buffer K, x.Shaped s → (x.spread g.shape).dot g = x.dot c) ∧
      (Addable s g.shape → g.reduceByAdding s = .ok c) ∧
      ∀ u, Shape.join s u = some u → Shape.join u g.shape = some g.shape →
        Reducible u g.shape → (g.reduce u >>= fun h => h.reduce s) = .ok c) ∧
    (¬Reducible s g.shape → g.reduce s = crash .product ∨ g.reduce s = crash .capacity) := by
  have ho := (Layout.onto_of_join hj).1
  refine ⟨fun x y name f hx hy h => combine_onto_eq_zipMap hx hy hj h name f, fun hr => ?_,
    reduce_crash ho⟩
  obtain ⟨c, hc, hT⟩ := exists_reduce_sum hg ho hr
  refine ⟨c, hc, hT.summedDown ho, fun x hx => dot_spread ho hT hx.2, fun hA => ?_,
    fun u hsu hut hu => ?_⟩
  · obtain ⟨d, hd, hD⟩ := reduceByAdding_sum hg ho hA
    rw [hd, hD.unique hT]
  · rw [reduce_reduce hg hj hr hsu hut hu, hc]

/-- Two blocks of two rows of three are summed down to one column, also by way of one block. -/
theorem reduce_adjoint_spread_blocks :
    let _ := Elementary.plain ℚ
    let g : Buffer ℚ := ⟨[2, 2, 3], #[1, 2, 3, 4, 5, 6, 7, 8, 9, 10, 11, 12]⟩
    let x : Buffer ℚ := ⟨[2, 1], #[1, -1]⟩
    g.WellShaped ∧ Shape.join [2, 1] g.shape = some g.shape ∧
      ∃ c, g.reduce [2, 1] = .ok c ∧ c.shape = [2, 1] ∧ c.entry 1 = 48 ∧
        (x.spread g.shape).dot g = x.dot c ∧ g.reduceByAdding [2, 1] = .ok c ∧
        (g.reduce [2, 3] >>= fun h => h.reduce [2, 1]) = .ok c := by
  intro _ g x
  have hA : Addable [2, 1] g.shape := addable_iff.2 (by decide)
  have hA' : Addable [2, 3] g.shape := addable_iff.2 (by decide)
  obtain ⟨c, hc, hS, hdot, hloop, hmid⟩ :=
    (reduce_adjoint_spread (g := g) (s := [2, 1]) rfl (by decide)).2.1 (.inr hA)
  have hread : {i ∈ indices [2, 2, 3] | restrict [2, 1] i = [1, 0]} =
      {[0, 1, 0], [0, 1, 1], [0, 1, 2], [1, 1, 0], [1, 1, 1], [1, 1, 2]} := by decide
  have hentry := hS.entry [1, 0] (.cons (by decide) (.cons (by decide) .nil))
  refine ⟨rfl, by decide, c, hc, hS.shape_eq, hentry.trans ?_, hdot x ⟨rfl, rfl⟩, hloop hA,
    hmid [2, 3] (by decide) (by decide) (.inr hA')⟩
  rw [show g.shape = [2, 2, 3] from rfl, hread]
  norm_num [flatten, entry, g]

/-- Nothing is to be added up here, and all products are words. But the result has too many elements
to hold. -/
theorem reduce_without_room :
    let _ := Elementary.plain ℚ
    let g : Buffer ℚ := ⟨[0, 1152921504606846976], #[]⟩
    g.Sound ∧ Shape.join [1152921504606846976] g.shape = some g.shape ∧
      Layout.Steady g.shape ∧ Layout.Steady [1152921504606846976] ∧
      Extent.checked [1152921504606846976] = some 1152921504606846976 ∧
      g.reduce [1152921504606846976] = crash .capacity := by
  have hp : Extent.Proper [0, 1152921504606846976] :=
    Extent.proper_two (by decide) (by decide) (by decide)
  exact ⟨⟨hp, rfl⟩, by decide, rfl, rfl, rfl, rfl⟩

end Buffer

end DiffTensor
