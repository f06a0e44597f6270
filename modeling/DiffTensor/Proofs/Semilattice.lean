import DiffTensor.Host.Dims
import DiffTensor.Proofs.Broadcasting

/-!
# The partial semilattice of shapes

A join is known from its rank and its dimensions: at each place, counted from the last one, it has
the join of the two dimensions that are there (`join_eq_some_iff`). So the laws of joining shapes
are the laws of joining two dimensions, read at each place. Associativity is that of a partial
operation: both groupings are defined or none is, and this is decided place by place
(`Agree`). That a join absorbs what it was made of follows from the laws alone.
-/

namespace DiffTensor

namespace Shape

variable {δ : Type} [DecidableEq δ] [OfNat δ 1]

/-! ## Joins are known from their dimensions -/

theorem exists_join {a b : List δ} (h : ¬Clash a b) : ∃ t, join a b = some t := by
  apply Option.ne_none_iff_exists'.1
  intro hn
  exact h (join_eq_none_iff.1 hn)

theorem join_eq_some_iff {a b t : List δ} : join a b = some t ↔
    t.length = max a.length b.length ∧
      ∀ i, joinDim (fromLast a i) (fromLast b i) = some (fromLast t i) := by
  constructor
  · intro h
    exact ⟨Layout.length_join h, fromLast_of_join h⟩
  · rintro ⟨hl, hd⟩
    have hc : ¬Clash a b := by
      rintro ⟨i, hi⟩
      have hn := joinDim_eq_none_iff.2 hi
      rw [hd i] at hn
      cases hn
    obtain ⟨s, hs⟩ := exists_join hc
    have hst : s = t := by
      apply eq_of_fromLast
      · rw [Layout.length_join hs, hl]
      · intro i
        exact Option.some.inj ((fromLast_of_join hs i).symm.trans (hd i))
    rw [hs, hst]

/-! ## The laws -/

theorem join_comm (a b : List δ) : join a b = join b a := by
  apply Option.ext
  intro t
  rw [join_eq_some_iff, join_eq_some_iff, Nat.max_comm]
  apply and_congr_right'
  apply forall_congr'
  intro i
  rw [joinDim_comm]

theorem join_nil_left (a : List δ) : join [] a = some a := by
  apply join_eq_some_iff.2
  constructor
  · simp
  · intro i
    exact joinDim_one_left (fromLast a i)

theorem joinDim_regroup {a b c r t : δ} (hr : joinDim a b = some r) (ht : joinDim r c = some t) :
    ∃ s, joinDim b c = some s ∧ joinDim a s = some t := by
  grind [joinDim]

/-- What is joined to the left can be joined to the right. -/
theorem join_regroup {a b c r t : List δ} (hr : join a b = some r) (ht : join r c = some t) :
    ∃ s, join b c = some s ∧ join a s = some t := by
  have hd (i : Nat) := joinDim_regroup (fromLast_of_join hr i) (fromLast_of_join ht i)
  have hc : ¬Clash b c := by
    rintro ⟨i, hi⟩
    obtain ⟨s, hs, -⟩ := hd i
    rw [joinDim_eq_none_iff.2 hi] at hs
    cases hs
  obtain ⟨s, hs⟩ := exists_join hc
  refine ⟨s, hs, join_eq_some_iff.2 ⟨?_, ?_⟩⟩
  · have hlr := Layout.length_join hr
    have hlt := Layout.length_join ht
    have hls := Layout.length_join hs
    omega
  · intro i
    obtain ⟨d, hd, hdt⟩ := hd i
    have hds : d = fromLast s i := Option.some.inj (hd.symm.trans (fromLast_of_join hs i))
    rw [← hds]
    exact hdt

theorem join_assoc (a b c : List δ) :
    ((join a b).bind fun r => join r c) = (join b c).bind fun s => join a s := by
  apply Option.ext
  intro t
  rw [Option.bind_eq_some_iff, Option.bind_eq_some_iff]
  constructor
  · rintro ⟨r, hr, ht⟩
    exact join_regroup hr ht
  · -- The same, read from the right.
    rintro ⟨s, hs, ht⟩
    rw [join_comm] at hs ht
    obtain ⟨r, hr, ht⟩ := join_regroup hs ht
    rw [join_comm] at hr ht
    exact ⟨r, hr, ht⟩

/-- What a shape has taken part in absorbs it. -/
theorem join_absorb_left {a b r : List δ} (h : join a b = some r) : join a r = some r := by
  have ha := join_assoc a a b
  rw [Layout.join_self, Option.bind_some, h, Option.bind_some] at ha
  exact ha.symm

/-! ## When three shapes have a join -/

/-- At each place, at most one value other than 1 occurs among the shapes. -/
def Agree (shapes : List (List δ)) : Prop :=
  ∀ i, ∀ a ∈ shapes, ∀ b ∈ shapes,
    fromLast a i ≠ 1 → fromLast b i ≠ 1 → fromLast a i = fromLast b i

theorem eq_one_or_of_joinDim {a b d : δ} (h : joinDim a b = some d) :
    (a = 1 ∨ a = d) ∧ (b = 1 ∨ b = d) := by
  obtain ⟨ha, hb, -⟩ := joinDim_eq_some_iff.1 h
  exact ⟨ha.symm, hb.symm⟩

theorem agree_of_join {a b c r t : List δ} (hr : join a b = some r) (ht : join r c = some t) :
    Agree [a, b, c] := by
  intro i
  have hone : ∀ s ∈ [a, b, c], fromLast s i = 1 ∨ fromLast s i = fromLast t i := by
    obtain ⟨ha, hb⟩ := eq_one_or_of_joinDim (fromLast_of_join hr i)
    obtain ⟨hrt, hc⟩ := eq_one_or_of_joinDim (fromLast_of_join ht i)
    intro s hs
    simp only [List.mem_cons, List.not_mem_nil, or_false] at hs
    rcases hs with rfl | rfl | rfl
    · rcases ha with ha | ha
      · exact Or.inl ha
      · rw [ha]
        exact hrt
    · rcases hb with hb | hb
      · exact Or.inl hb
      · rw [hb]
        exact hrt
    · exact hc
  intro s hs s' hs' h1 h1'
  rw [(hone s hs).resolve_left h1, (hone s' hs').resolve_left h1']

theorem exists_join_of_agree {a b c : List δ} (h : Agree [a, b, c]) :
    ∃ r t, join a b = some r ∧ join r c = some t := by
  have hab : ¬Clash a b := by
    rintro ⟨i, hne, ha, hb⟩
    exact hne (h i a (by simp) b (by simp) ha hb)
  obtain ⟨r, hr⟩ := exists_join hab
  have hrc : ¬Clash r c := by
    rintro ⟨i, hne, hr1, hc⟩
    obtain ⟨-, -, hor⟩ := joinDim_eq_some_iff.1 (fromLast_of_join hr i)
    apply hne
    rcases hor with ha | hb
    · rw [← ha] at hr1 ⊢
      exact h i a (by simp) c (by simp) hr1 hc
    · rw [← hb] at hr1 ⊢
      exact h i b (by simp) c (by simp) hr1 hc
  obtain ⟨t, ht⟩ := exists_join hrc
  exact ⟨r, t, hr, ht⟩

theorem isSome_join_join_iff (a b c : List δ) :
    ((join a b).bind fun r => join r c).isSome ↔ Agree [a, b, c] := by
  rw [Option.isSome_iff_exists]
  constructor
  · rintro ⟨t, ht⟩
    obtain ⟨r, hr, ht⟩ := Option.bind_eq_some_iff.1 ht
    exact agree_of_join hr ht
  · intro h
    obtain ⟨r, t, hr, ht⟩ := exists_join_of_agree h
    exact ⟨t, Option.bind_eq_some_iff.2 ⟨r, hr, ht⟩⟩

/-! ## The structure -/

/-- A partial operation on shapes is a semilattice whose identity is the shape of rank 0. Where it
is defined, what it gives is above both shapes. -/
structure Semilattice (join : List δ → List δ → Option (List δ)) : Prop where
  comm (a b : List δ) : join a b = join b a
  idem (a : List δ) : join a a = some a
  nil_left (a : List δ) : join [] a = some a
  nil_right (a : List δ) : join a [] = some a
  assoc (a b c : List δ) :
    ((join a b).bind fun r => join r c) = (join b c).bind fun s => join a s
  isSome_left (a b c : List δ) : ((join a b).bind fun r => join r c).isSome ↔ Agree [a, b, c]
  isSome_right (a b c : List δ) : ((join b c).bind fun s => join a s).isSome ↔ Agree [a, b, c]
  absorb (a b r : List δ) : join a b = some r → join a r = some r ∧ join r b = some r

theorem semilattice_join : Semilattice fun left right : List δ => join left right where
  comm := join_comm
  idem := Layout.join_self
  nil_left := join_nil_left
  nil_right a := by
    rw [join_comm]
    exact join_nil_left a
  assoc := join_assoc
  isSome_left := isSome_join_join_iff
  isSome_right a b c := by
    rw [← join_assoc]
    exact isSome_join_join_iff a b c
  absorb a b r h := by
    constructor
    · exact join_absorb_left h
    · rw [join_comm] at h ⊢
      exact join_absorb_left h

end Shape

theorem Dims.toOption_join (operation : String) (left right : List Int) :
    (Dims.join operation left right).toOption = Shape.join left right := by
  rw [Dims.join]
  cases Shape.join left right with
  | none => rfl
  | some dims => rfl

/-- Library and host each join shapes in a semilattice. -/
theorem broadcasting_semilattice :
    (Shape.Semilattice fun left right : List Nat => Shape.join left right) ∧
    ∀ operation, Shape.Semilattice fun left right => (Dims.join operation left right).toOption := by
  constructor
  · exact Shape.semilattice_join
  · intro operation
    have h : (fun left right => (Dims.join operation left right).toOption) = Shape.join := by
      funext left right
      exact Dims.toOption_join operation left right
    rw [h]
    exact Shape.semilattice_join

end DiffTensor
