import DiffTensor.Buffer.Broadcast
import DiffTensor.Buffer.Matrix
import DiffTensor.Proofs.Layout

/-!
# What operations on buffers result in

A buffer is `Sound` if it can exist in memory and holds exactly the elements of its shape.
`Tabulates` says what a buffer is: its shape, and the element at every position.

For each operation there is one lemma with the buffer that it results in, and, where it can
be refused, one that reads off a result under which conditions there was one. Under these
conditions nothing is ever read out of bounds; only products of strides can leave the word.
-/

namespace DiffTensor

/-- What an operation breaks off with when a product of indices leaves the word. -/
def overflow : Failure := .crashed .product

namespace Buffer

variable {α : Type}

/-- A buffer as it can exist in memory. -/
structure Sound (b : Buffer α) : Prop where
  proper : Extent.Proper b.shape
  full : b.WellShaped

section Arithmetic

variable [Scalar α]

/-- The buffer has the given shape, and the given element at each position. -/
structure Tabulates (b : Buffer α) (shape : List Nat) (f : Nat → α) : Prop where
  shape_eq : b.shape = shape
  full : b.WellShaped
  entry_eq : ∀ k < shape.prod, b.entry k = f k

theorem Tabulates.sound {b : Buffer α} {shape : List Nat} {f : Nat → α} (h : b.Tabulates shape f)
    (hs : Extent.Proper shape) : b.Sound := ⟨h.shape_eq ▸ hs, h.full⟩

theorem Tabulates.congr {b : Buffer α} {shape : List Nat} {f g : Nat → α}
    (h : b.Tabulates shape f) (hfg : ∀ k < shape.prod, f k = g k) : b.Tabulates shape g :=
  ⟨h.shape_eq, h.full, fun k hk => (h.entry_eq k hk).trans (hfg k hk)⟩

theorem tabulates_self {b : Buffer α} (h : b.WellShaped) : b.Tabulates b.shape b.entry :=
  ⟨rfl, h, fun _ _ => rfl⟩

theorem entry_of_lt {b : Buffer α} {k : Nat} (h : k < b.data.size) : b.entry k = b.data[k] := by
  simp [entry, h]

/-- Past the end there are zeros. -/
theorem entry_of_le {b : Buffer α} {k : Nat} (h : b.data.size ≤ k) : b.entry k = 0 := by
  simp [entry, Array.getD_eq_getD_getElem?, h]

theorem entry_of_prod_le {b : Buffer α} (hb : b.WellShaped) {k : Nat} (h : b.shape.prod ≤ k) :
    b.entry k = 0 := entry_of_le (Nat.le_trans (Nat.le_of_eq hb) h)

/-- A buffer is determined by its shape and its elements. -/
theorem ext_entry {a b : Buffer α} (ha : a.WellShaped) (hb : b.WellShaped)
    (hs : a.shape = b.shape) (h : ∀ k < a.shape.prod, a.entry k = b.entry k) : a = b := by
  obtain ⟨shape, x⟩ := a
  obtain ⟨shape', y⟩ := b
  simp only [WellShaped] at *
  subst hs
  congr 1
  refine Array.ext (ha.trans hb.symm) fun k h1 h2 => ?_
  have := h k (ha ▸ h1)
  rwa [entry_of_lt (by simpa using h1), entry_of_lt (by simpa using h2)] at this

/-- A shape and its elements make one buffer. -/
theorem Tabulates.unique {b c : Buffer α} {shape : List Nat} {f : Nat → α}
    (hb : b.Tabulates shape f) (hc : c.Tabulates shape f) : b = c := by
  refine ext_entry hb.full hc.full (hb.shape_eq.trans hc.shape_eq.symm) fun k hk => ?_
  rw [hb.shape_eq] at hk
  rw [hb.entry_eq k hk, hc.entry_eq k hk]

theorem tabulates_ofFn {n : Nat} {shape : List Nat} (hn : shape.prod = n) (f : Nat → α) :
    Tabulates ⟨shape, Array.ofFn fun k : Fin n => f k⟩ shape f := by
  refine ⟨rfl, by simp [WellShaped, hn], fun k hk => ?_⟩
  rw [entry_of_lt (by simpa [← hn] using hk)]
  simp

/-! ## Elementwise operations -/

theorem full_of_room {shape : List Nat} (h : Extent.saturated shape < Extent.allocationLimit)
    (x : α) : ∃ c, full shape x = .ok c ∧ c.Tabulates shape fun _ => x := by
  have hsize : Extent.saturated shape = shape.prod := Extent.saturated_of_room h
  have hr : shape.prod < Extent.allocationLimit := hsize ▸ h
  refine ⟨⟨shape, Array.replicate shape.prod x⟩, by simp [Buffer.full, hsize, hr], rfl,
    by simp [WellShaped], fun k hk => ?_⟩
  rw [entry_of_lt (by simpa using hk)]
  simp

theorem full_eq {shape : List Nat} (h : Extent.Proper shape) (x : α) :
    ∃ c, full shape x = .ok c ∧ c.Tabulates shape fun _ => x := full_of_room h.saturated_lt x

theorem reshape_eq {b : Buffer α} (hb : b.WellShaped) {shape : List Nat}
    (h : Extent.Proper shape) (hp : shape.prod = b.shape.prod) :
    ∃ c, b.reshape shape = .ok c ∧ c.Tabulates shape b.entry := by
  have hs : b.size = shape.prod := hb.trans hp.symm
  exact ⟨{ b with shape }, by simp [reshape, h.saturated, hs], rfl, hs, fun _ _ => rfl⟩

omit [Scalar α] in
theorem shape_of_reshape {b c : Buffer α} {shape : List Nat} (h : b.reshape shape = .ok c) :
    c.shape = shape := by
  unfold reshape at h
  split at h
  · exact Except.ok.inj h ▸ rfl
  · cases h

theorem tabulates_map {b : Buffer α} (hb : b.WellShaped) (f : α → α) :
    (b.map f).Tabulates b.shape fun k => f (b.entry k) := by
  refine ⟨rfl, wellShaped_map hb f, fun k hk => ?_⟩
  have hk' : k < b.data.size := hb ▸ hk
  rw [entry_of_lt hk', entry_of_lt (by simpa [map] using hk')]
  simp [map]

theorem zipMap_eq {a b : Buffer α} (ha : a.WellShaped) (hb : b.WellShaped)
    (hs : a.shape = b.shape) (f : α → α → α) :
    ∃ c, zipMap f a b = .ok c ∧ c.Tabulates a.shape fun k => f (a.entry k) (b.entry k) := by
  refine ⟨{ a with data := Array.zipWith f a.data b.data }, by simp [zipMap, hs], rfl,
    wellShaped_zipMap ha hb (f := f) (by simp [zipMap, hs]), fun k hk => ?_⟩
  have h1 : k < a.data.size := ha ▸ hk
  have h2 : k < b.data.size := hb ▸ hs ▸ hk
  rw [entry_of_lt h1, entry_of_lt h2, entry_of_lt (by simpa using Nat.lt_min.2 ⟨h1, h2⟩)]
  simp

/-- The sum of two buffers of equal shape. -/
def plus (a b : Buffer α) : Buffer α := { a with data := Array.zipWith (· + ·) a.data b.data }

theorem accumulate_eq {held addend : Buffer α} (hs : held.shape = addend.shape) :
    held.accumulate addend = .ok (held.plus addend) := by
  simp [accumulate, plus, hs]

theorem tabulates_plus {a b : Buffer α} (ha : a.WellShaped) (hb : b.WellShaped)
    (hs : a.shape = b.shape) :
    (a.plus b).Tabulates a.shape fun k => a.entry k + b.entry k := by
  obtain ⟨c, hc, ht⟩ := zipMap_eq ha hb hs (· + ·)
  simp only [zipMap, hs, if_true, Except.ok.injEq] at hc
  rw [← hc] at ht
  simpa [plus, hs] using ht

/-! ## Broadcasting -/

/-- The positions of two shapes in their join can be computed. -/
def Combinable (a b : List Nat) : Prop := a = b ∨ Layout.Steady a ∧ Layout.Steady b

/-- The positions of two shapes in their join `t` can be computed, and there is room for it. Equal
shapes need neither. -/
def Addressable (a b t : List Nat) : Prop :=
  a = b ∨ Layout.Steady a ∧ Layout.Steady b ∧ Extent.saturated t < Extent.allocationLimit

theorem Combinable.addressable {a b t : List Nat} (h : Combinable a b) (ht : Extent.Proper t) :
    Addressable a b t := h.imp_right fun ⟨sa, sb⟩ => ⟨sa, sb, ht.saturated_lt⟩

theorem Addressable.combinable {a b t : List Nat} (h : Addressable a b t) : Combinable a b :=
  h.imp_right fun ⟨sa, sb, _⟩ => ⟨sa, sb⟩

theorem read_eq {b : Buffer α} {k : Nat} (h : k < b.data.size) : b.read k = .ok (b.entry k) := by
  simp [read, entry_of_lt h, h]

/-- Elements of buffers that are read in pairs. -/
theorem mapM_read {a b : Buffer α} (f : α → α → α) {pairs : List (Nat × Nat)}
    (h : ∀ p ∈ pairs, p.1 < a.data.size ∧ p.2 < b.data.size) :
    (pairs.mapM fun (i, j) => do return f (← a.read i) (← b.read j) : Outcome (List α)) =
      .ok (pairs.map fun p => f (a.entry p.1) (b.entry p.2)) := by
  refine mapM_eq_ok fun p hp => ?_
  obtain ⟨h1, h2⟩ := h p hp
  simp [read_eq h1, read_eq h2]

/-- A list of elements laid out in a shape of so many positions. -/
theorem fill_eq {shape : List Nat} (h : Extent.saturated shape < Extent.allocationLimit)
    (f : Nat → α) :
    ∃ c, fill ((List.range shape.prod).map f).toArray shape = .ok c ∧ c.Tabulates shape f := by
  have hsize : Extent.saturated shape = shape.prod := Extent.saturated_of_room h
  refine ⟨⟨shape, ((List.range shape.prod).map f).toArray⟩, by simp [fill, hsize], rfl,
    by simp [WellShaped], fun k hk => ?_⟩
  rw [entry_of_lt (by simpa using hk)]
  simp

theorem combine_eq {a b : Buffer α} {t : List Nat} (ha : a.WellShaped) (hb : b.WellShaped)
    (hj : Shape.join a.shape b.shape = some t) (h : Addressable a.shape b.shape t)
    (name : String) (f : α → α → α) :
    ∃ c, a.combine name b f = .ok c ∧ c.Tabulates t fun k =>
      f (a.entry (Layout.readAt a.shape t k)) (b.entry (Layout.readAt b.shape t k)) := by
  obtain ⟨oa, ob⟩ := Layout.onto_of_join hj
  by_cases hs : a.shape = b.shape
  · obtain ⟨c, hc, hT⟩ := zipMap_eq ha hb hs f
    rw [← hs, Layout.join_self, Option.some.injEq] at hj
    subst hj
    refine ⟨c, by simpa only [combine, ← hs, Layout.join_self, if_true] using hc,
      hT.congr fun k hk => ?_⟩
    rw [← hs, Layout.readAt_self hk]
  · obtain ⟨sa, sb, ht⟩ := h.resolve_left hs
    obtain ⟨c, hc, hT⟩ := fill_eq ht fun k =>
      f (a.entry (Layout.readAt a.shape t k)) (b.entry (Layout.readAt b.shape t k))
    refine ⟨c, ?_, hT⟩
    unfold combine
    simp only [hj, hs, if_false, Layout.offsets_eq oa sa ht, Layout.offsets_eq ob sb ht,
      Outcome.ok_bind]
    rw [List.zip_map', mapM_read f]
    · simpa [Function.comp_def] using hc
    · intro p hp
      obtain ⟨k, hk, rfl⟩ := List.mem_map.1 hp
      rw [List.mem_range] at hk
      exact ⟨ha ▸ Layout.readAt_lt oa hk, hb ▸ Layout.readAt_lt ob hk⟩

omit [Scalar α] in
/-- Only sizes break a combination off: a product of strides, or the room for the result. -/
theorem combine_crash {a b : Buffer α} {t : List Nat}
    (hj : Shape.join a.shape b.shape = some t) (h : ¬Addressable a.shape b.shape t)
    (name : String) (f : α → α → α) :
    a.combine name b f = crash .product ∨
      ¬Extent.saturated t < Extent.allocationLimit ∧ a.combine name b f = crash .capacity := by
  obtain ⟨oa, ob⟩ := Layout.onto_of_join hj
  obtain ⟨hs, h⟩ := not_or.1 h
  simp only [combine, hj, if_neg hs]
  rcases Layout.strides_cases a.shape with ⟨sa, -⟩ | sa
  · by_cases ht : Extent.saturated t < Extent.allocationLimit
    · -- The other strides are left.
      rcases Layout.strides_cases b.shape with ⟨sb, -⟩ | sb
      · exact absurd ⟨sa, sb, ht⟩ h
      · left
        simp only [Layout.offsets_eq oa sa ht, Layout.offsets_crash ob.1 sb, Outcome.ok_bind,
          Outcome.crash_bind]
    · exact .inr ⟨ht, by simp only [Layout.offsets_of_room oa.1 sa ht, Outcome.crash_bind]⟩
  · left
    simp only [Layout.offsets_crash oa.1 sa, Outcome.crash_bind]

omit [Scalar α] in
theorem exists_crash_combine {a b : Buffer α} {t : List Nat}
    (hj : Shape.join a.shape b.shape = some t) (h : ¬Addressable a.shape b.shape t)
    (name : String) (f : α → α → α) : ∃ cause, a.combine name b f = crash cause := by
  rcases combine_crash hj h name f with hc | ⟨-, hc⟩
  · exact ⟨_, hc⟩
  · exact ⟨_, hc⟩

/-- What a combination tells about the shapes. -/
theorem combine_inv {a b c : Buffer α} {name : String} {f : α → α → α} (ha : a.Sound)
    (hb : b.Sound) (h : a.combine name b f = .ok c) :
    Shape.join a.shape b.shape = some c.shape ∧ Extent.Proper c.shape ∧
      Combinable a.shape b.shape := by
  cases hj : Shape.join a.shape b.shape with
  | none => simp [combine, hj, refuse] at h
  | some t =>
    by_cases hA : Addressable a.shape b.shape t
    · obtain ⟨c', hc, hT⟩ := combine_eq ha.full hb.full hj hA name f
      obtain rfl : c' = c := Except.ok.inj (hc.symm.trans h)
      rw [hT.shape_eq]
      refine ⟨rfl, ?_, hA.combinable⟩
      rcases hA with hs | ⟨-, -, ht⟩
      · rw [← hs, Layout.join_self, Option.some.injEq] at hj
        exact hj ▸ ha.proper
      · exact Extent.proper_of_saturated
          (Layout.storable_of_join ha.proper.toStorable hb.proper.toStorable hj) ht
    · obtain ⟨cause, hc⟩ := exists_crash_combine hj hA name f
      cases hc.symm.trans h

/-- Under broadcasting onto a shape that exists, only the strides can be too large. -/
theorem combine_eq_or {a b : Buffer α} {t : List Nat} (ha : a.Sound) (hb : b.Sound)
    (hj : Shape.join a.shape b.shape = some t) (ht : Extent.Proper t) (name : String)
    (f : α → α → α) :
    (∃ c, a.combine name b f = .ok c ∧ c.Tabulates t fun k =>
      f (a.entry (Layout.readAt a.shape t k)) (b.entry (Layout.readAt b.shape t k))) ∨
    a.combine name b f = .error overflow := by
  by_cases hA : Addressable a.shape b.shape t
  · exact .inl (combine_eq ha.full hb.full hj hA name f)
  · exact .inr ((combine_crash hj hA name f).resolve_right fun h => h.1 ht.saturated_lt)

/-! ## Summing down -/

theorem getD_setIfInBounds (data : Array α) (i j : Nat) (x : α) (h : i < data.size) :
    (data.setIfInBounds i x).getD j 0 = if i = j then x else data.getD j 0 := by
  simp only [Array.getD_eq_getD_getElem?, Array.getElem?_setIfInBounds]
  split
  · rename_i hij
    subst hij
    simp
  · rfl

/-- Everything is added at its position, in the order given. -/
theorem scatter_eq : ∀ (pairs : List (Nat × α)) (data : Array α),
    (∀ p ∈ pairs, p.1 < data.size) →
    ∃ out, scatter data pairs = .ok out ∧ out.size = data.size ∧ ∀ j,
      out.getD j 0 = (pairs.filter (·.1 = j)).foldl (fun sum p => sum + p.2) (data.getD j 0)
  | [], data, _ => ⟨data, rfl, rfl, fun _ => rfl⟩
  | (i, x) :: rest, data, h => by
    have hi : i < data.size := h (i, x) (by simp)
    obtain ⟨out, ho, hs, he⟩ := scatter_eq rest (data.setIfInBounds i (data[i] + x))
      fun p hp => by simpa using h p (by simp [hp])
    refine ⟨out, by simp [scatter, hi, ho], by simpa using hs, fun j => ?_⟩
    rw [he j, getD_setIfInBounds _ _ _ _ hi]
    by_cases hij : i = j
    · subst hij
      simp [hi]
    · simp [hij]

/-- The elements that are read from position `j`, in order. -/
def readersOf (shape target : List Nat) (g : Nat → α) (j : Nat) : List α :=
  ((List.range target.prod).filter fun k => Layout.readAt shape target k = j).map g

/-- The elements of a buffer as they are listed. -/
theorem toList_eq {b : Buffer α} (hb : b.WellShaped) :
    b.data.toList = (List.range b.shape.prod).map b.entry := by
  refine List.ext_getElem (by simp [show b.data.size = b.shape.prod from hb]) fun k h1 h2 => ?_
  rw [Array.length_toList] at h1
  simp [entry_of_lt h1]

/-- Sums a buffer down by adding up all its elements, also where the shapes are equal and each of
them is the only one at its position. -/
def reduceByAdding (b : Buffer α) (shape : List Nat) : Outcome (Buffer α) := do
  let out ← zeros shape
  let targets ← Layout.offsets shape b.shape
  return { out with data := ← scatter out.data (targets.zip b.data.toList) }

theorem reduce_self {b : Buffer α} {shape : List Nat} (h : b.shape = shape) :
    b.reduce shape = .ok b := if_pos h

theorem reduce_of_ne {b : Buffer α} {shape : List Nat} (h : b.shape ≠ shape) :
    b.reduce shape = b.reduceByAdding shape := if_neg h

/-- The elements of a buffer of shape `t` can be added up in one of shape `s`: the positions can be
computed, and there is room for both. -/
structure Addable (s t : List Nat) : Prop where
  steady : Layout.Steady s
  room : Extent.saturated s < Extent.allocationLimit
  room_target : Extent.saturated t < Extent.allocationLimit

/-- A buffer of shape `t` can be summed down to shape `s`. Equal shapes need nothing. -/
def Reducible (s t : List Nat) : Prop := s = t ∨ Addable s t

theorem reduceByAdding_eq {b : Buffer α} {shape : List Nat} (hb : b.WellShaped)
    (ho : Layout.Onto shape b.shape) (h : Addable shape b.shape) :
    ∃ c, b.reduceByAdding shape = .ok c ∧ c.Tabulates shape fun j =>
      (readersOf shape b.shape b.entry j).foldl (· + ·) 0 := by
  obtain ⟨out, hout, hT⟩ := full_of_room h.room (0 : α)
  have hsize : out.data.size = shape.prod := hT.shape_eq ▸ hT.full
  have hzip : ((List.range b.shape.prod).map (Layout.readAt shape b.shape)).zip b.data.toList =
      (List.range b.shape.prod).map fun k => (Layout.readAt shape b.shape k, b.entry k) := by
    rw [toList_eq hb, List.zip_map']
  obtain ⟨data, hd, hds, hde⟩ := scatter_eq
    ((List.range b.shape.prod).map fun k => (Layout.readAt shape b.shape k, b.entry k)) out.data
    fun p hp => by
      obtain ⟨k, hk, rfl⟩ := List.mem_map.1 hp
      rw [hsize]
      exact Layout.readAt_lt ho (List.mem_range.1 hk)
  refine ⟨{ out with data }, ?_, hT.shape_eq, hds.trans hT.full, fun j hj => ?_⟩
  · simp [reduceByAdding, zeros, hout, Layout.offsets_eq ho h.steady h.room_target, hzip, hd]
  · have h0 : out.data.getD j 0 = 0 := hT.entry_eq j hj
    show data.getD j 0 = _
    rw [hde j, h0, List.filter_map, List.foldl_map]
    simp [readersOf, Function.comp_def, List.foldl_map]

theorem reduce_eq {b : Buffer α} {shape : List Nat} (hb : b.Sound) (hs : Extent.Proper shape)
    (ho : Layout.Onto shape b.shape) (hc : b.shape = shape ∨ Layout.Steady shape) :
    ∃ c, b.reduce shape = .ok c ∧ c.shape = shape ∧ c.WellShaped := by
  by_cases he : b.shape = shape
  · exact ⟨b, reduce_self he, he, hb.full⟩
  · have h : Addable shape b.shape :=
      ⟨hc.resolve_left he, hs.saturated_lt, hb.proper.saturated_lt⟩
    obtain ⟨c, hc, hT⟩ := reduceByAdding_eq hb.full ho h
    exact ⟨c, (reduce_of_ne he).trans hc, hT.shape_eq, hT.full⟩

/-- Reducing to a shape that exists, only the strides can be too large. -/
theorem reduce_eq_or {b : Buffer α} {shape : List Nat} (hs : Extent.Proper shape)
    (ho : Layout.Onto shape b.shape) :
    (b.shape = shape ∨ Layout.Steady shape) ∨ b.reduce shape = .error overflow := by
  by_cases he : b.shape = shape
  · exact Or.inl (Or.inl he)
  rcases Layout.strides_cases shape with ⟨h, -⟩ | h
  · exact Or.inl (Or.inr h)
  · obtain ⟨out, hout, -⟩ := full_eq hs (0 : α)
    right
    simp [reduce_of_ne he, reduceByAdding, zeros, hout, Layout.offsets_crash ho.1 h, crash,
      overflow]

/-- Only sizes break it off: a product of strides, or the room for a buffer. -/
theorem reduce_crash {b : Buffer α} {shape : List Nat} (ho : Layout.Onto shape b.shape)
    (h : ¬Reducible shape b.shape) :
    b.reduce shape = crash .product ∨ b.reduce shape = crash .capacity := by
  obtain ⟨he, hA⟩ := not_or.1 h
  rw [reduce_of_ne (Ne.symm he), reduceByAdding, zeros]
  by_cases hr : Extent.saturated shape < Extent.allocationLimit
  · obtain ⟨out, hout, -⟩ := full_of_room hr (0 : α)
    rw [hout, Outcome.ok_bind]
    rcases Layout.strides_cases shape with ⟨hs, -⟩ | hs
    · have ht : ¬Extent.saturated b.shape < Extent.allocationLimit := fun ht => hA ⟨hs, hr, ht⟩
      right
      rw [Layout.offsets_of_room ho.1 hs ht, Outcome.crash_bind]
    · left
      rw [Layout.offsets_crash ho.1 hs, Outcome.crash_bind]
  · right
    rw [full, if_neg hr, Outcome.crash_bind]

/-! ## Matrices -/

omit [Scalar α] in
theorem position_lt {rows cols i j : Nat} (hi : i < rows) (hj : j < cols) :
    i * cols + j < rows * cols := by
  calc i * cols + j < i * cols + cols := by omega
    _ = (i + 1) * cols := by rw [Nat.add_mul, Nat.one_mul]
    _ ≤ rows * cols := Nat.mul_le_mul_right _ hi

omit [Scalar α] in
theorem position_div {cols i j : Nat} (hj : j < cols) : (i * cols + j) / cols = i := by
  rw [Nat.mul_comm, Nat.mul_add_div (by omega), Nat.div_eq_of_lt hj, Nat.add_zero]

omit [Scalar α] in
theorem position_mod {cols i j : Nat} (hj : j < cols) : (i * cols + j) % cols = j := by
  rw [Nat.mul_add_mod', Nat.mod_eq_of_lt hj]

theorem transpose_eq {b : Buffer α} {rows cols : Nat} (hs : b.shape = [rows, cols]) :
    ∃ c, b.transpose = .ok c ∧ c.Tabulates [cols, rows] fun k =>
      b.entry (k % rows * cols + k / rows) := by
  exact ⟨_, by simp only [transpose, hs]; rfl,
    tabulates_ofFn (by simp) fun k => b.entry (k % rows * cols + k / rows)⟩

/-- Entry `(j, i)` of a transposed matrix is entry `(i, j)` of the matrix. -/
theorem Tabulates.entry_transpose {b c : Buffer α} {rows cols i j : Nat}
    (h : c.Tabulates [cols, rows] fun k => b.entry (k % rows * cols + k / rows))
    (hi : i < rows) (hj : j < cols) : c.entry (j * rows + i) = b.entry (i * cols + j) := by
  rw [h.entry_eq _ (by simpa using position_lt hj hi), position_mod hi, position_div hi]

/-- Matrices of one shape are equal if they have the same entries. -/
theorem ext_matrix {a b : Buffer α} {rows cols : Nat} (ha : a.WellShaped) (hb : b.WellShaped)
    (has : a.shape = [rows, cols]) (hbs : b.shape = [rows, cols])
    (h : ∀ i < rows, ∀ j < cols, a.entry (i * cols + j) = b.entry (i * cols + j)) : a = b := by
  refine ext_entry ha hb (has.trans hbs.symm) fun k hk => ?_
  have hk : k < rows * cols := by simpa [has] using hk
  have hcols : 0 < cols := Nat.pos_of_mul_pos_left (Nat.zero_lt_of_lt hk)
  have := h (k / cols) (Nat.div_lt_of_lt_mul (Nat.mul_comm rows _ ▸ hk)) (k % cols)
    (Nat.mod_lt k hcols)
  rwa [Nat.div_add_mod'] at this

theorem transpose_transpose {b t : Buffer α} {rows cols : Nat} (hb : b.WellShaped)
    (hs : b.shape = [rows, cols]) (h : b.transpose = .ok t) : t.transpose = .ok b := by
  obtain ⟨t', ht', hT⟩ := transpose_eq hs
  obtain rfl : t' = t := Except.ok.inj (ht'.symm.trans h)
  obtain ⟨c, hc, hC⟩ := transpose_eq hT.shape_eq
  rw [hc]
  refine congrArg _ (ext_matrix hC.full hb hC.shape_eq hs fun i hi j hj => ?_)
  rw [hC.entry_transpose hj hi, hT.entry_transpose hi hj]

theorem transpose_of_short {b : Buffer α} (hs : b.shape.length ≤ 1) : b.transpose = .ok b := by
  unfold transpose
  match h : b.shape, hs with
  | [], _ => rfl
  | [_], _ => rfl
  | _ :: _ :: _, hs => simp at hs

theorem transpose_inv {b c : Buffer α} (h : b.transpose = .ok c) :
    (b.shape.length ≤ 1 ∧ c = b) ∨ ∃ rows cols, b.shape = [rows, cols] := by
  match hs : b.shape with
  | [] => exact Or.inl ⟨by simp, by simpa [transpose, hs] using h.symm⟩
  | [n] => exact Or.inl ⟨by simp, by simpa [transpose, hs] using h.symm⟩
  | [rows, cols] => exact Or.inr ⟨rows, cols, rfl⟩
  | _ :: _ :: _ :: _ => simp [transpose, hs, refuse] at h

/-- Entry `(i, j)` of the product of a matrix with `inner` columns and a matrix with `cols`
columns, added up from the first column to the last. -/
def productEntry (a b : Buffer α) (inner cols i j : Nat) : α :=
  (List.range inner).foldl (fun sum l => sum + a.entry (i * inner + l) * b.entry (l * cols + j)) 0

theorem productBy_of_rank (kernel : Kernel α) {a b : Buffer α} (h : ¬(a.rank = 2 ∧ b.rank = 2)) :
    a.productBy kernel b = refuse (.productRank a.shape b.shape) := by
  unfold productBy
  split
  · rename_i ha hb
    exact absurd ⟨congrArg List.length ha, congrArg List.length hb⟩ h
  · rfl

/-- The elements of a product are those that the kernel stores, if it is given anything to add
up. -/
theorem productBy_eq (kernel : Kernel α) {a b : Buffer α} {rows inner cols : Nat}
    (ha : a.shape = [rows, inner]) (hb : b.shape = [inner, cols])
    (hr : rows * cols < Extent.allocationLimit) {f : Nat → α}
    (hk : 0 < rows → 0 < cols → 0 < inner →
      Tabulates ⟨[rows, cols], kernel cols inner rows b.data a.data⟩ [rows, cols] f)
    (h0 : inner = 0 → ∀ k, f k = 0) :
    ∃ c, a.productBy kernel b = .ok c ∧ c.Tabulates [rows, cols] f := by
  have hw : ¬ Extent.wordLimit ≤ rows * cols :=
    Nat.not_le.2 (Nat.lt_trans hr (by decide))
  simp only [productBy, ha, hb, ne_eq, not_true, if_false, hw, Nat.not_le.2 hr]
  by_cases h : 0 < rows ∧ 0 < cols ∧ 0 < inner
  · exact ⟨_, if_pos h, hk h.1 h.2.1 h.2.2⟩
  · refine ⟨_, if_neg h, rfl, by simp [WellShaped], fun k hk => ?_⟩
    simp only [List.prod_cons, List.prod_nil, Nat.mul_one] at hk
    have hpos : 0 < rows * cols := Nat.zero_lt_of_lt hk
    -- The product has entries, so there was nothing to add up.
    have hinner : inner = 0 := by
      by_contra hne
      exact h ⟨Nat.pos_of_mul_pos_right hpos, Nat.pos_of_mul_pos_left hpos,
        Nat.pos_of_ne_zero hne⟩
    rw [entry_of_lt (by simpa using hk), h0 hinner]
    simp

/-- A product that is too large to exist is not computed. -/
theorem productBy_crash (kernel : Kernel α) {a b : Buffer α} {rows inner cols : Nat}
    (ha : a.shape = [rows, inner]) (hb : b.shape = [inner, cols])
    (hr : ¬rows * cols < Extent.allocationLimit) : a.productBy kernel b =
      crash (if Extent.wordLimit ≤ rows * cols then .product else .capacity) := by
  simp only [productBy, ha, hb, ne_eq, not_true, if_false, Nat.not_lt.1 hr, if_true]
  split <;> rfl

theorem productBy_inv {kernel : Kernel α} {a b c : Buffer α} (h : a.productBy kernel b = .ok c) :
    ∃ rows inner cols, a.shape = [rows, inner] ∧ b.shape = [inner, cols] ∧
      rows * cols < Extent.allocationLimit := by
  unfold productBy at h
  split at h
  · rename_i rows inner inner' cols ha hb
    split at h
    · cases h
    · rename_i hi
      simp only [ne_eq, Decidable.not_not] at hi
      subst hi
      split at h
      · cases h
      · split at h
        · cases h
        · exact ⟨rows, inner, cols, ha, hb, by omega⟩
  · cases h

theorem product_eq {a b : Buffer α} {rows inner cols : Nat} (ha : a.shape = [rows, inner])
    (hb : b.shape = [inner, cols]) (hr : rows * cols < Extent.allocationLimit) :
    ∃ c, a.product b = .ok c ∧ c.Tabulates [rows, cols] fun k =>
      productEntry a b inner cols (k / cols) (k % cols) := by
  refine productBy_eq Kernel.plain ha hb hr (fun _ _ _ => ?_) fun h0 k => ?_
  · exact tabulates_ofFn (by simp [Nat.mul_comm]) fun k =>
      productEntry a b inner cols (k / cols) (k % cols)
  · simp [productEntry, h0]

theorem product_inv {a b c : Buffer α} (h : a.product b = .ok c) :
    ∃ rows inner cols, a.shape = [rows, inner] ∧ b.shape = [inner, cols] ∧
      rows * cols < Extent.allocationLimit := productBy_inv h

theorem tabulates_columnSums (b : Buffer α) (rows cols : Nat) :
    (b.columnSums rows cols).Tabulates [cols] fun j =>
      (List.range rows).foldl (fun sum i => sum + b.entry (i * cols + j)) 0 :=
  tabulates_ofFn (by simp) fun j =>
    (List.range rows).foldl (fun sum i => sum + b.entry (i * cols + j)) 0

theorem tabulates_addRow {b : Buffer α} (hb : b.WellShaped) (row : Buffer α) (cols : Nat) :
    (b.addRow row cols).Tabulates b.shape fun k => b.entry k + row.entry (k % cols) := by
  refine ⟨rfl, by simpa [WellShaped, addRow] using hb, fun k hk => ?_⟩
  have hk' : k < b.data.size := hb ▸ hk
  rw [entry_of_lt hk', entry_of_lt (by simpa [addRow] using hk')]
  simp [addRow]

end Arithmetic

end Buffer

end DiffTensor
