import Mathlib.Algebra.BigOperators.Group.List.Basic
import Mathlib.Algebra.GroupWithZero.Nat
import Mathlib.Data.List.Forall2
import DiffTensor.Layout
import DiffTensor.Shape

/-!
# Positions under broadcasting

A position of a buffer and its coordinates determine each other (`flatten_coordinates`).
Reading a buffer through a larger shape drops the leading coordinates it lacks and reads 0
along its dimensions of size 1 (`restrict`); `readAt` is the position that is read.

`offsets` tabulates `readAt`: this is `offsets_eq`, for shapes of which one broadcasts
`Onto` the other. The only thing that can go wrong is the product of the strides, which
leaves the word for some shapes that hold a zero (`strides_cases`).
-/

namespace DiffTensor

namespace Extent

/-- A list of words that lies in memory. -/
structure Storable (dims : List Nat) : Prop where
  short : dims.length < allocationLimit
  words : ∀ d ∈ dims, d < wordLimit

/-- A shape that a buffer in memory can have: it can be stored itself, the product of its
dimensions is counted exactly, and a buffer of so many elements can be asked for. -/
structure Proper (dims : List Nat) : Prop extends Storable dims where
  counted : checked dims = some dims.prod
  room : dims.prod < allocationLimit

theorem Proper.saturated {dims : List Nat} (h : Proper dims) : saturated dims = dims.prod := by
  simp [Extent.saturated, h.counted]

theorem Proper.saturated_lt {dims : List Nat} (h : Proper dims) :
    Extent.saturated dims < allocationLimit := h.saturated ▸ h.room

/-- Where there is room, the count is the exact product. -/
theorem saturated_of_room {dims : List Nat} (h : saturated dims < allocationLimit) :
    saturated dims = dims.prod := saturated_eq_prod (Nat.lt_trans h (by decide))

theorem proper_of_saturated {dims : List Nat} (hd : Storable dims)
    (h : saturated dims < allocationLimit) : Proper dims := by
  refine ⟨hd, ?_, saturated_of_room h ▸ h⟩
  cases hc : checked dims with
  | none =>
    have hlt : Extent.saturated dims < wordLimit - 1 := Nat.lt_trans h (by decide)
    simp [Extent.saturated, hc] at hlt
  | some k => rw [checked_eq_some hc]

theorem storable_nil : Storable [] := ⟨by decide, by simp⟩

theorem storable_one {n : Nat} (h : n < wordLimit) : Storable [n] :=
  ⟨(by decide : 1 < allocationLimit), by simpa using h⟩

theorem storable_two {m n : Nat} (hm : m < wordLimit) (hn : n < wordLimit) : Storable [m, n] :=
  ⟨(by decide : 2 < allocationLimit), by simp [hm, hn]⟩

theorem proper_nil : Proper [] := ⟨storable_nil, rfl, by decide⟩

theorem proper_one {n : Nat} (h : n < allocationLimit) : Proper [n] := by
  have hw : n < wordLimit := Nat.lt_trans h (by decide)
  exact ⟨storable_one hw, by simp [checked, checkedFrom, hw], by simpa using h⟩

/-- The order of the two dimensions of a matrix does not matter. -/
theorem proper_two {m n : Nat} (hm : m < wordLimit) (hn : n < wordLimit)
    (h : m * n < allocationLimit) : Proper [m, n] := by
  have hw : m * n < wordLimit := Nat.lt_trans h (by decide)
  exact ⟨storable_two hm hn, by simp [checked, checkedFrom, hm, hw], by simpa using h⟩

theorem Proper.swap {m n : Nat} (h : Proper [m, n]) : Proper [n, m] := by
  have hw := h.words
  have hr := h.room
  simp only [List.mem_cons, List.not_mem_nil, or_false, forall_eq_or_imp, forall_eq,
    List.prod_cons, List.prod_nil, Nat.mul_one] at hw hr
  exact proper_two hw.2 hw.1 (Nat.mul_comm m n ▸ hr)

end Extent

namespace Layout

/-! ## Positions and coordinates -/

/-- The coordinates of position `k`, first dimension first. -/
def coordinates : List Nat → Nat → List Nat
  | [], _ => []
  | _ :: dims, k => k / dims.prod :: coordinates dims (k % dims.prod)

/-- The position that coordinates stand for. -/
def flatten : List Nat → List Nat → Nat
  | _ :: dims, i :: coords => i * dims.prod + flatten dims coords
  | _, _ => 0

/-- There is one coordinate for each dimension, and it stays below it. -/
def Within (dims coords : List Nat) : Prop := List.Forall₂ (· < ·) coords dims

theorem within_coordinates : ∀ {dims : List Nat} {k : Nat}, k < dims.prod →
    Within dims (coordinates dims k)
  | [], _, _ => .nil
  | d :: dims, k, h => by
    have hp : 0 < dims.prod := Nat.pos_of_ne_zero fun h0 => by simp [h0] at h
    rw [List.prod_cons] at h
    exact .cons (Nat.div_lt_of_lt_mul (Nat.mul_comm d _ ▸ h))
      (within_coordinates (Nat.mod_lt _ hp))

theorem flatten_coordinates : ∀ {dims : List Nat} {k : Nat}, k < dims.prod →
    flatten dims (coordinates dims k) = k
  | [], k, h => by simp at h; simp [flatten, h]
  | d :: dims, k, h => by
    have hp : 0 < dims.prod := Nat.pos_of_ne_zero fun h0 => by simp [h0] at h
    simp only [coordinates, flatten]
    rw [flatten_coordinates (Nat.mod_lt _ hp)]
    exact Nat.div_add_mod' k _

theorem flatten_lt : ∀ {dims coords : List Nat}, Within dims coords →
    flatten dims coords < dims.prod
  | _, _, .nil => by simp [flatten]
  | d :: dims, i :: coords, .cons hi h => by
    have ih := flatten_lt h
    simp only [flatten, List.prod_cons]
    calc i * dims.prod + flatten dims coords < i * dims.prod + dims.prod := by omega
      _ = (i + 1) * dims.prod := by rw [Nat.add_mul, Nat.one_mul]
      _ ≤ d * dims.prod := Nat.mul_le_mul_right _ hi

theorem length_coordinates : ∀ (dims : List Nat) (k : Nat),
    (coordinates dims k).length = dims.length
  | [], _ => rfl
  | _ :: dims, k => by simp [coordinates, length_coordinates dims]

theorem coordinates_zero : ∀ dims : List Nat,
    coordinates dims 0 = List.replicate dims.length 0
  | [] => rfl
  | _ :: dims => by
    rw [coordinates, Nat.zero_div, Nat.zero_mod, coordinates_zero dims, List.length_cons,
      List.replicate_succ]

/-- After the coordinates of a position come those of the next, and after those of the last position
those of the first. -/
theorem advance_coordinates : ∀ {dims : List Nat} {k : Nat}, k < dims.prod →
    advance dims (coordinates dims k) =
      if k + 1 < dims.prod then (false, coordinates dims (k + 1)) else (true, coordinates dims 0)
  | [], k, h => by
    obtain rfl : k = 0 := by simpa using h
    rfl
  | d :: dims, k, h => by
    have hp : 0 < dims.prod := Nat.pos_of_ne_zero fun h0 => by simp [h0] at h
    rw [List.prod_cons] at h ⊢
    have hq : k / dims.prod < d := Nat.div_lt_of_lt_mul (Nat.mul_comm d _ ▸ h)
    have hk : dims.prod * (k / dims.prod) + k % dims.prod = k := Nat.div_add_mod ..
    have ih := advance_coordinates (Nat.mod_lt k hp)
    simp only [coordinates, advance, ih, Nat.zero_div, Nat.zero_mod]
    by_cases hr : k % dims.prod + 1 < dims.prod
    · -- No carry: only the last dimensions move.
      have hlt : k + 1 < d * dims.prod := by
        have := Nat.mul_le_mul_right dims.prod (Nat.succ_le_of_lt hq)
        rw [Nat.succ_mul, Nat.mul_comm] at this
        omega
      obtain ⟨hdiv, hmod⟩ := (Nat.div_mod_unique hp).2
        (⟨by omega, hr⟩ : k % dims.prod + 1 + dims.prod * (k / dims.prod) = k + 1 ∧ _)
      simp only [if_pos hr, if_pos hlt, hdiv, hmod]
    · -- The last dimensions start again, and the first one moves.
      have hr : k % dims.prod + 1 = dims.prod := by
        have := Nat.mod_lt k hp
        omega
      have hnext : k + 1 = (k / dims.prod + 1) * dims.prod := by
        rw [Nat.add_mul, Nat.one_mul, Nat.mul_comm]
        omega
      have hiff : k / dims.prod + 1 < d ↔ k + 1 < d * dims.prod := by
        rw [hnext, Nat.mul_lt_mul_right hp]
      have hdiv : (k + 1) / dims.prod = k / dims.prod + 1 := by
        rw [hnext, Nat.mul_div_cancel _ hp]
      have hmod : (k + 1) % dims.prod = 0 := by rw [hnext, Nat.mul_mod_left]
      simp only [hr, Nat.lt_irrefl, if_false, hiff, hdiv, hmod]

/-- Walking through a shape lists the coordinates of its positions. -/
theorem walk_coordinates (dims : List Nat) : ∀ {count k : Nat}, k + count ≤ dims.prod →
    walk dims count (coordinates dims k) = (List.range' k count).map (coordinates dims)
  | 0, _, _ => rfl
  | count + 1, k, h => by
    rw [walk, List.range'_succ, List.map_cons, advance_coordinates (by omega)]
    by_cases hk : k + 1 < dims.prod
    · rw [if_pos hk, walk_coordinates dims (by omega)]
    · obtain rfl : count = 0 := by omega
      rfl

theorem walk_eq (dims : List Nat) :
    walk dims dims.prod (List.replicate dims.length 0) =
      (List.range dims.prod).map (coordinates dims) := by
  rw [← coordinates_zero, walk_coordinates dims (Nat.le_of_eq (Nat.zero_add _)),
    List.range_eq_range']

/-! ## Shapes that broadcast onto others -/

/-- The first shape broadcasts onto the second: lined up at their ends, each of its dimensions is 1
or the same. -/
def Onto (source target : List Nat) : Prop :=
  source.length ≤ target.length ∧
    List.Forall₂ (fun d t => d = 1 ∨ d = t) source (target.drop (target.length - source.length))

/-- Lists that are lined up at their beginnings. -/
theorem joinReversed_onto : ∀ {as bs ts : List Nat}, Shape.joinReversed as bs = some ts →
    (as.length ≤ ts.length ∧ List.Forall₂ (fun d t => d = 1 ∨ d = t) as (ts.take as.length)) ∧
    (bs.length ≤ ts.length ∧ List.Forall₂ (fun d t => d = 1 ∨ d = t) bs (ts.take bs.length))
  | [], bs, ts, h => by
    simp only [Shape.joinReversed, Option.some.injEq] at h
    subst h
    exact ⟨by simp, Nat.le_refl _, by
      rw [List.take_length]; exact List.forall₂_same.2 fun _ _ => Or.inr rfl⟩
  | a :: as, [], ts, h => by
    simp only [Shape.joinReversed, Option.some.injEq] at h
    subst h
    exact ⟨⟨Nat.le_refl _, by
      rw [List.take_length]; exact List.forall₂_same.2 fun _ _ => Or.inr rfl⟩, by simp⟩
  | a :: as, b :: bs, ts, h => by
    simp only [Shape.joinReversed] at h
    cases hd : Shape.joinDim a b with
    | none => simp [hd] at h
    | some d =>
      cases hr : Shape.joinReversed as bs with
      | none => simp [hd, hr] at h
      | some dims =>
        simp only [hd, hr, Option.some.injEq] at h
        subst h
        obtain ⟨⟨la, fa⟩, lb, fb⟩ := joinReversed_onto hr
        obtain ⟨ha, hb, -⟩ := Shape.joinDim_eq_some_iff.1 hd
        simp only [List.length_cons, Nat.add_le_add_iff_right, List.take_succ_cons]
        exact ⟨⟨la, .cons ha.symm fa⟩, lb, .cons hb.symm fb⟩

/-- From lists lined up at their beginnings to lists lined up at their ends. -/
theorem onto_of_reverse {source : List Nat} {ts : List Nat} (hl : source.length ≤ ts.length)
    (h : List.Forall₂ (fun d t => d = 1 ∨ d = t) source.reverse (ts.take source.length)) :
    Onto source ts.reverse := by
  refine ⟨by simpa using hl, ?_⟩
  have hr : ts.reverse.length = ts.length := List.length_reverse
  have h := List.forall₂_reverse_iff.2 h
  rwa [List.reverse_reverse, List.reverse_take, ← hr] at h

/-- Both shapes broadcast onto their join. -/
theorem onto_of_join {a b t : List Nat} (h : Shape.join a b = some t) : Onto a t ∧ Onto b t := by
  unfold Shape.join at h
  obtain ⟨ts, hts, rfl⟩ := Option.map_eq_some_iff.1 h
  obtain ⟨⟨la, fa⟩, lb, fb⟩ := joinReversed_onto hts
  rw [List.length_reverse] at la lb fa fb
  exact ⟨onto_of_reverse la fa, onto_of_reverse lb fb⟩

/-- Every dimension of a join is a dimension of one of the two shapes. -/
theorem mem_joinReversed : ∀ {as bs ts : List Nat}, Shape.joinReversed as bs = some ts →
    ∀ d ∈ ts, d ∈ as ∨ d ∈ bs
  | [], bs, ts, h, d, hd => by
    simp only [Shape.joinReversed, Option.some.injEq] at h
    exact Or.inr (h ▸ hd)
  | a :: as, [], ts, h, d, hd => by
    simp only [Shape.joinReversed, Option.some.injEq] at h
    exact Or.inl (h ▸ hd)
  | a :: as, b :: bs, ts, h, d, hd => by
    simp only [Shape.joinReversed] at h
    cases hj : Shape.joinDim a b with
    | none => simp [hj] at h
    | some e =>
      cases hr : Shape.joinReversed as bs with
      | none => simp [hj, hr] at h
      | some dims =>
        simp only [hj, hr, Option.some.injEq] at h
        subst h
        obtain ⟨-, -, he⟩ := Shape.joinDim_eq_some_iff.1 hj
        rcases List.mem_cons.1 hd with rfl | hd
        · rcases he with rfl | rfl <;> simp
        · rcases mem_joinReversed hr d hd with h | h <;> simp [h]

theorem mem_join {a b t : List Nat} (h : Shape.join a b = some t) : ∀ d ∈ t, d ∈ a ∨ d ∈ b := by
  unfold Shape.join at h
  obtain ⟨ts, hts, rfl⟩ := Option.map_eq_some_iff.1 h
  intro d hd
  simpa using mem_joinReversed hts d (List.mem_reverse.1 hd)

section

variable {δ : Type} [DecidableEq δ] [OfNat δ 1]

theorem length_joinReversed : ∀ {as bs ts : List δ}, Shape.joinReversed as bs = some ts →
    ts.length = max as.length bs.length
  | [], bs, ts, h => by
    simp only [Shape.joinReversed, Option.some.injEq] at h
    simp [h]
  | a :: as, [], ts, h => by
    simp only [Shape.joinReversed, Option.some.injEq] at h
    simp [← h]
  | a :: as, b :: bs, ts, h => by
    simp only [Shape.joinReversed] at h
    split at h
    · rename_i hr
      cases h
      have ih := length_joinReversed hr
      simp only [List.length_cons]
      omega
    · cases h

/-- A join is as long as the longer of the two shapes. -/
theorem length_join {a b t : List δ} (h : Shape.join a b = some t) :
    t.length = max a.length b.length := by
  unfold Shape.join at h
  obtain ⟨ts, hts, rfl⟩ := Option.map_eq_some_iff.1 h
  simpa using length_joinReversed hts

theorem join_self (a : List δ) : Shape.join a a = some a := by
  have h : ∀ as : List δ, Shape.joinReversed as as = some as := by
    intro as
    induction as with
    | nil => rfl
    | cons a as ih => simp [Shape.joinReversed, Shape.joinDim_self, ih]
  simp [Shape.join, h]

end

/-- The common shape of two shapes in memory has room in memory itself. -/
theorem storable_of_join {a b t : List Nat} (ha : Extent.Storable a) (hb : Extent.Storable b)
    (hj : Shape.join a b = some t) : Extent.Storable t := by
  refine ⟨?_, fun d hd => (mem_join hj d hd).elim (ha.words d) (hb.words d)⟩
  rw [length_join hj]
  exact Nat.max_lt.2 ⟨ha.short, hb.short⟩

/-- A shape onto which another broadcasts absorbs it. -/
theorem joinReversed_absorb : ∀ {ts bs : List Nat}, bs.length ≤ ts.length →
    List.Forall₂ (fun d t => d = 1 ∨ d = t) bs (ts.take bs.length) →
    Shape.joinReversed ts bs = some ts
  | [], [], _, _ => rfl
  | _ :: _, [], _, _ => rfl
  | [], _ :: _, hl, _ => by simp at hl
  | t :: ts, b :: bs, hl, h => by
    simp only [List.length_cons, List.take_succ_cons, List.forall₂_cons] at h
    have hj : Shape.joinDim t b = some t :=
      Shape.joinDim_eq_some_iff.2 ⟨Or.inl rfl, h.1.symm, Or.inl rfl⟩
    simp [Shape.joinReversed, hj, joinReversed_absorb (by simpa using hl) h.2]

theorem join_absorb {b t : List Nat} (h : Onto b t) : Shape.join t b = some t := by
  have hr : b.reverse.length = b.length := List.length_reverse
  have hf := List.forall₂_reverse_iff.2 h.2
  rw [List.reverse_drop, Nat.sub_sub_self h.1, ← hr] at hf
  rw [Shape.join, joinReversed_absorb (by simpa using h.1) hf]
  simp

/-! ## Reading through a larger shape -/

/-- The coordinates at which a smaller shape is read. -/
def restrict (source coords : List Nat) : List Nat :=
  List.zipWith (fun d i => if d = 1 then 0 else i) source
    (coords.drop (coords.length - source.length))

/-- The position of a buffer of shape `source` that position `k` of the shape `target` reads. -/
def readAt (source target : List Nat) (k : Nat) : Nat :=
  flatten source (restrict source (coordinates target k))

theorem within_zip : ∀ {source dims coords : List Nat},
    List.Forall₂ (fun d t => d = 1 ∨ d = t) source dims → Within dims coords →
    Within source (List.zipWith (fun d i => if d = 1 then 0 else i) source coords)
  | _, _, _, .nil, _ => .nil
  | d :: source, t :: dims, i :: coords, .cons hd h, .cons hi hc => by
    refine .cons ?_ (within_zip h hc)
    rcases hd with rfl | rfl
    · simp
    · show (if d = 1 then 0 else i) < d
      split <;> omega

theorem within_restrict {source target coords : List Nat} (h : Onto source target)
    (hc : Within target coords) : Within source (restrict source coords) := by
  have hl : coords.length = target.length := hc.length_eq
  unfold restrict
  rw [hl]
  exact within_zip h.2 (List.forall₂_drop _ hc)

/-- What is read lies inside the smaller buffer. -/
theorem readAt_lt {source target : List Nat} (h : Onto source target) {k : Nat}
    (hk : k < target.prod) : readAt source target k < source.prod :=
  flatten_lt (within_restrict h (within_coordinates hk))

theorem restrict_self : ∀ {dims coords : List Nat}, Within dims coords →
    restrict dims coords = coords := by
  intro dims coords h
  have hl : coords.length = dims.length := h.length_eq
  unfold restrict
  rw [hl, Nat.sub_self, List.drop_zero]
  induction h with
  | nil => rfl
  | cons hi _ ih =>
    rename_i i d coords dims hc
    rw [List.zipWith_cons_cons, ih hc.length_eq]
    split <;> simp; omega

/-- Read through its own shape, a buffer is read where it is. -/
theorem readAt_self {dims : List Nat} {k : Nat} (hk : k < dims.prod) : readAt dims dims k = k := by
  unfold readAt
  rw [restrict_self (within_coordinates hk), flatten_coordinates hk]

/-! ## The table of positions -/

/-- The strides of a shape, if its products stay in the word. -/
def steps : List Nat → List Nat
  | [] => []
  | d :: dims => (if d = 1 then 0 else dims.prod) :: steps dims

/-- The products of the last dimensions stay in the word. -/
def Steady (dims : List Nat) : Prop := strides dims = .ok (steps dims, dims.prod)

/-- Strides are computed unless a product leaves the word. -/
theorem strides_cases : ∀ dims : List Nat,
    (Steady dims ∧ dims.prod < Extent.wordLimit) ∨ strides dims = crash .product
  | [] => Or.inl ⟨rfl, by decide⟩
  | d :: dims => by
    rcases strides_cases dims with ⟨h, -⟩ | h
    · unfold Steady at *
      by_cases hw : dims.prod * d < Extent.wordLimit
      · left
        rw [List.prod_cons, Nat.mul_comm d]
        exact ⟨by simp [strides, h, hw, steps], hw⟩
      · right
        simp [strides, h, hw]
    · right
      simp [strides, h]

theorem Steady.prod_lt {dims : List Nat} (h : Steady dims) : dims.prod < Extent.wordLimit := by
  rcases strides_cases dims with h' | h'
  · exact h'.2
  · rw [Steady, h'] at h
    cases h

/-- The dimensions that are not zero multiply to less than the limit of an allocation. -/
def Moderate (dims : List Nat) : Prop := (dims.filter (· ≠ 0)).prod < Extent.allocationLimit

instance (dims : List Nat) : Decidable (Moderate dims) := inferInstanceAs (Decidable (_ < _))

theorem prod_le_filter_prod : ∀ dims : List Nat, dims.prod ≤ (dims.filter (· ≠ 0)).prod
  | [] => Nat.le_refl _
  | 0 :: dims => by simp
  | (d + 1) :: dims => by
    simpa using Nat.mul_le_mul_left (d + 1) (prod_le_filter_prod dims)

/-- The products of the last dimensions of a moderate shape stay below the limit of an allocation,
and that is far below the word. -/
theorem Moderate.steady : ∀ {dims : List Nat}, Moderate dims → Steady dims
  | [], _ => rfl
  | d :: dims, h => by
    have htail : Moderate dims := by
      refine Nat.lt_of_le_of_lt ?_ h
      rcases Nat.eq_zero_or_pos d with rfl | hd
      · simp
      · simpa [Nat.ne_of_gt hd] using Nat.le_mul_of_pos_left _ hd
    have hlt : dims.prod * d < Extent.wordLimit := by
      rw [Nat.mul_comm, ← List.prod_cons]
      exact Nat.lt_of_le_of_lt (prod_le_filter_prod _) (Nat.lt_trans h (by decide))
    have hs : strides dims = .ok (steps dims, dims.prod) := htail.steady
    rw [Steady, List.prod_cons, Nat.mul_comm d]
    simp [strides, hs, hlt, steps]

/-- The sum of coordinates times strides. -/
def travel (coords steps : List Nat) : Nat := (List.zipWith (· * ·) coords steps).sum

theorem positionFrom_eq : ∀ (coords steps : List Nat) (start : Nat),
    start + travel coords steps < Extent.wordLimit →
    positionFrom start coords steps = .ok (start + travel coords steps)
  | [], _, _, _ => by simp [positionFrom, travel]
  | _ :: _, [], _, _ => by simp [positionFrom, travel]
  | i :: coords, s :: steps, start, h => by
    have e : travel (i :: coords) (s :: steps) = i * s + travel coords steps := by
      simp [travel]
    rw [e] at h ⊢
    have h1 : i * s < Extent.wordLimit := by omega
    have h2 : start + i * s < Extent.wordLimit := by omega
    simp only [positionFrom, h1, h2, if_true]
    rw [positionFrom_eq coords steps (start + i * s) (by omega), Nat.add_assoc]

theorem travel_steps : ∀ {source coords : List Nat}, coords.length = source.length →
    travel coords (steps source) =
      flatten source (List.zipWith (fun d i => if d = 1 then 0 else i) source coords)
  | [], [], _ => rfl
  | d :: source, i :: coords, h => by
    have hl : coords.length = source.length := by simpa using h
    have ih := travel_steps hl
    simp only [travel, steps, List.zipWith_cons_cons, List.sum_cons, flatten] at ih ⊢
    rw [ih]
    split <;> simp

/-- Along the leading dimensions that are missing, nothing is travelled. -/
theorem travel_replicate : ∀ (n : Nat) (coords steps : List Nat),
    travel coords (List.replicate n 0 ++ steps) = travel (coords.drop n) steps
  | 0, _, _ => by simp
  | n + 1, [], steps => by simp [travel]
  | n + 1, i :: coords, steps => by
    have ih := travel_replicate n coords steps
    simp only [travel, List.replicate_succ, List.cons_append, List.zipWith_cons_cons,
      List.sum_cons, Nat.mul_zero, Nat.zero_add, List.drop_succ_cons] at ih ⊢
    exact ih

theorem travel_eq_readAt {source target : List Nat} (h : source.length ≤ target.length)
    (k : Nat) :
    travel (coordinates target k)
        (List.replicate (target.length - source.length) 0 ++ steps source) =
      readAt source target k := by
  rw [travel_replicate, travel_steps (by rw [List.length_drop, length_coordinates]; omega)]
  unfold readAt restrict
  rw [length_coordinates]

end Layout

/-- A list of computations that all succeed. -/
theorem mapM_eq_ok {β γ : Type} {f : β → Outcome γ} {g : β → γ} :
    ∀ {l : List β}, (∀ x ∈ l, f x = .ok (g x)) → l.mapM f = .ok (l.map g)
  | [], _ => rfl
  | x :: l, h => by
    rw [List.mapM_cons, h x (by simp), mapM_eq_ok fun y hy => h y (by simp [hy])]
    rfl

/-- What a list of computations gave, one of them gave. -/
theorem exists_of_mem_mapM {β γ : Type} {f : β → Outcome γ} : ∀ {l : List β} {out : List γ},
    l.mapM f = .ok out → ∀ {y : γ}, y ∈ out → ∃ x ∈ l, f x = .ok y
  | [], out, h, y, hy => by
    obtain rfl : [] = out := Except.ok.inj h
    cases hy
  | x :: l, out, h, y, hy => by
    rw [List.mapM_cons] at h
    simp only [Outcome.bind_eq_ok_iff, Outcome.pure_eq, Except.ok.injEq] at h
    obtain ⟨z, hz, rest, hr, rfl⟩ := h
    rcases List.mem_cons.1 hy with rfl | hy
    · exact ⟨x, List.mem_cons_self, hz⟩
    · obtain ⟨x', hx, hf⟩ := exists_of_mem_mapM hr hy
      exact ⟨x', List.mem_cons_of_mem _ hx, hf⟩

/-- What is known of each result is known of them in order. -/
theorem map_of_mapM {β γ δ : Type} {f : β → Outcome γ} {g : γ → δ} {k : β → δ}
    (hf : ∀ x y, f x = .ok y → g y = k x) : ∀ {l : List β} {out : List γ},
    l.mapM f = .ok out → out.map g = l.map k
  | [], out, h => by
    obtain rfl : [] = out := Except.ok.inj h
    rfl
  | x :: l, out, h => by
    rw [List.mapM_cons] at h
    simp only [Outcome.bind_eq_ok_iff, Outcome.pure_eq, Except.ok.injEq] at h
    obtain ⟨z, hz, rest, hr, rfl⟩ := h
    rw [List.map_cons, List.map_cons, hf x z hz, map_of_mapM hf hr]

namespace Layout

/-- The table of positions, where none of its products leaves the word. -/
theorem offsets_eq {source target : List Nat} (h : Onto source target) (hs : Steady source)
    (ht : Extent.saturated target < Extent.allocationLimit) :
    offsets source target = .ok ((List.range target.prod).map (readAt source target)) := by
  have hl : ¬ target.length < source.length := Nat.not_lt.2 h.1
  have hsize : Extent.saturated target = target.prod := Extent.saturated_of_room ht
  unfold Steady at hs
  unfold offsets
  simp only [hl, if_false, hs, ht, if_true, Outcome.ok_bind]
  have hread (k : Nat) : travel (coordinates target k)
      (List.replicate (target.length - source.length) 0 ++ steps source) =
        readAt source target k := travel_eq_readAt h.1 k
  rw [hsize, walk_eq, mapM_eq_ok (g := fun coords => travel coords
    (List.replicate (target.length - source.length) 0 ++ steps source)), List.map_map]
  · exact congrArg _ (List.map_congr_left fun k _ => hread k)
  · intro coords hmem
    obtain ⟨k, hk, rfl⟩ := List.mem_map.1 hmem
    rw [positionFrom_eq, Nat.zero_add]
    rw [hread, Nat.zero_add]
    exact Nat.lt_trans (readAt_lt h (List.mem_range.1 hk)) (Steady.prod_lt hs)

/-- Where a product leaves the word, there is no table. -/
theorem offsets_crash {source target : List Nat} (h : source.length ≤ target.length)
    (hs : strides source = crash .product) : offsets source target = crash .product := by
  unfold offsets
  simp [Nat.not_lt.2 h, hs]

/-- There is no table of positions for a shape that no buffer has. -/
theorem offsets_of_room {source target : List Nat} (h : source.length ≤ target.length)
    (hs : Steady source) (ht : ¬Extent.saturated target < Extent.allocationLimit) :
    offsets source target = crash .capacity := by
  have hs : strides source = .ok (steps source, source.prod) := hs
  simp [offsets, Nat.not_lt.2 h, hs, ht]

end Layout

end DiffTensor
