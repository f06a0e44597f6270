import DiffTensor.Proofs.Checks
import DiffTensor.Proofs.Extent
import DiffTensor.Proofs.Refusal
import DiffTensor.Proofs.Training

/-!
# One stream of samples

Samples are drawn one after the other, and shapes only say how they are laid out: buffers drawn in
turn are one long row of samples, cut (`inTurn_eq`). A new layer is cut from such a row too.

The library draws from its stream where it stands, so that samples are gone even if what they were
drawn for breaks off. `Drawing` tells this apart from computations that give the stream back.
Creations turn out to draw nothing unless they succeed (`Engine.drawing_of_build`), and no other
calls draw at all; so the stream after any calls is told by their drawing alone (`stream_after`).
-/

namespace DiffTensor

variable {α β γ : Type}

/-! ## Rows of samples -/

namespace Sampler

variable {draw : Stream → Outcome (α × Stream)}

/-- So many samples in a row. -/
def row (draw : Stream → Outcome (α × Stream)) (n : Nat) (s : Stream) :
    Outcome (Array α × Stream) :=
  drawOnto draw n #[] s

theorem drawOnto_succ (n : Nat) (samples : Array α) (s : Stream) :
    drawOnto draw (n + 1) samples s =
      draw s >>= fun made => drawOnto draw n (samples.push made.1) made.2 := by
  rw [drawOnto]
  cases draw s <;> rfl

/-- Drawing goes on where it has stopped. -/
theorem drawOnto_add (m n : Nat) (samples : Array α) (s : Stream) :
    drawOnto draw (m + n) samples s =
      drawOnto draw m samples s >>= fun made => drawOnto draw n made.1 made.2 := by
  induction m generalizing samples s with
  | zero =>
    rw [Nat.zero_add]
    rfl
  | succ m ih =>
    rw [Nat.add_right_comm, drawOnto_succ, drawOnto_succ]
    cases draw s with
    | error cause => rfl
    | ok made => exact ih _ _

/-- What has been drawn before does not matter. -/
theorem drawOnto_eq (n : Nat) (samples : Array α) (s : Stream) :
    drawOnto draw n samples s = (fun made => (samples ++ made.1, made.2)) <$> row draw n s := by
  unfold row
  induction n generalizing samples s with
  | zero =>
    show Except.ok (samples, s) = Except.ok (samples ++ #[], s)
    rw [Array.append_empty]
  | succ n ih =>
    rw [drawOnto_succ, drawOnto_succ]
    cases draw s with
    | error cause => rfl
    | ok made =>
      rw [Outcome.ok_bind, Outcome.ok_bind, ih, ih (#[].push made.1), Functor.map_map]
      congr 1
      funext rest
      rw [Array.push_eq_append, Array.push_eq_append, Array.empty_append, Array.append_assoc]

theorem row_add (m n : Nat) (s : Stream) :
    row draw (m + n) s =
      row draw m s >>= fun first => (fun rest => (first.1 ++ rest.1, rest.2)) <$>
        row draw n first.2 := by
  rw [row, drawOnto_add]
  congr 1
  funext first
  exact drawOnto_eq n first.1 first.2

theorem size_row {n : Nat} {s : Stream} {made : Array α × Stream} (h : row draw n s = .ok made) :
    made.1.size = n :=
  (size_drawOnto n h).trans (Nat.zero_add n)

/-! ## Buffers of samples -/

theorem fill_of_room {shape : List Nat} (hr : Extent.saturated shape < Extent.allocationLimit)
    (s : Stream) : fill draw shape s =
      row draw (Extent.saturated shape) s >>= fun made =>
        (·, made.2) <$> Buffer.fill made.1 shape := by
  simp only [fill, if_neg (Nat.not_le.2 hr)]
  rfl

theorem fill_row {shape : List Nat} {s : Stream} {made : Array α × Stream}
    (h : row draw (Extent.saturated shape) s = .ok made) :
    Buffer.fill made.1 shape = .ok ⟨shape, made.1⟩ := by
  rw [Buffer.fill, if_pos (size_row h)]

/-- A shape with room for its elements is filled with a row of samples. -/
theorem fill_eq {shape : List Nat} {n : Nat} (hs : Extent.checked shape = some n)
    (hn : n < Extent.allocationLimit) (s : Stream) :
    fill draw shape s = (fun made => (⟨shape, made.1⟩, made.2)) <$> row draw n s := by
  obtain rfl : Extent.saturated shape = n := Extent.saturated_of_checked hs
  rw [fill_of_room hn]
  cases h : row draw (Extent.saturated shape) s with
  | error cause => rfl
  | ok made =>
    rw [Outcome.ok_bind, fill_row h]
    rfl

/-- Two buffers, one after the other. -/
def inTurn (make : List Nat → Stream → Outcome (Buffer α × Stream)) (shape₁ shape₂ : List Nat)
    (s : Stream) : Outcome ((Buffer α × Buffer α) × Stream) := do
  let (first, s) ← make shape₁ s
  let (second, s) ← make shape₂ s
  return ((first, second), s)

/-- The first `n` samples of a row laid out in one shape, and the others in another. -/
def cut (n : Nat) (shape₁ shape₂ : List Nat) (made : Array α × Stream) :
    (Buffer α × Buffer α) × Stream :=
  ((⟨shape₁, made.1.extract 0 n⟩, ⟨shape₂, made.1.extract n made.1.size⟩), made.2)

/-- Buffers that are drawn in turn are cut from one row. -/
theorem inTurn_eq {shape₁ shape₂ : List Nat} {n₁ n₂ : Nat}
    (h₁ : Extent.checked shape₁ = some n₁) (h₂ : Extent.checked shape₂ = some n₂)
    (hn₁ : n₁ < Extent.allocationLimit) (hn₂ : n₂ < Extent.allocationLimit) (s : Stream) :
    inTurn (fill draw) shape₁ shape₂ s = cut n₁ shape₁ shape₂ <$> row draw (n₁ + n₂) s := by
  have hfill : ∀ s, fill draw shape₂ s = _ := fill_eq h₂ hn₂
  rw [inTurn, fill_eq h₁ hn₁, row_add]
  cases hfirst : row draw n₁ s with
  | error cause => rfl
  | ok first =>
    show (fill draw shape₂ first.2 >>= _) = cut n₁ shape₁ shape₂ <$> (_ <$> row draw n₂ first.2)
    rw [hfill]
    cases row draw n₂ first.2 with
    | error cause => rfl
    | ok rest =>
      show Except.ok ((⟨shape₁, first.1⟩, ⟨shape₂, rest.1⟩), rest.2) =
        Except.ok (cut n₁ shape₁ shape₂ (first.1 ++ rest.1, rest.2))
      obtain rfl := size_row hfirst
      simp [cut]

/-- The row can be drawn as a buffer with one dimension. -/
theorem inTurn_eq_cut {shape₁ shape₂ : List Nat} {n₁ n₂ : Nat}
    (h₁ : Extent.checked shape₁ = some n₁) (h₂ : Extent.checked shape₂ = some n₂)
    (hn : n₁ + n₂ < Extent.allocationLimit) (s : Stream) :
    inTurn (fill draw) shape₁ shape₂ s =
      (fun whole => cut n₁ shape₁ shape₂ (whole.1.data, whole.2)) <$>
        fill draw [n₁ + n₂] s := by
  have hc : Extent.checked [n₁ + n₂] = some (n₁ + n₂) :=
    Extent.checked_single (Nat.lt_trans hn (by decide))
  rw [inTurn_eq h₁ h₂ (by omega) (by omega), fill_eq hc hn, Functor.map_map]

/-- If every draw succeeds, so do draws in a row. -/
theorem exists_drawOnto (hd : ∀ s, ∃ made, draw s = .ok made) (n : Nat) (samples : Array α)
    (s : Stream) : ∃ made, drawOnto draw n samples s = .ok made := by
  induction n generalizing samples s with
  | zero => exact ⟨_, rfl⟩
  | succ n ih =>
    obtain ⟨first, hfirst⟩ := hd s
    rw [drawOnto_succ, hfirst]
    exact ih _ _

/-- Whatever there is room for is filled then. -/
theorem exists_fill (hd : ∀ s, ∃ made, draw s = .ok made) {shape : List Nat}
    (hr : Extent.saturated shape < Extent.allocationLimit) (s : Stream) :
    ∃ made, fill draw shape s = .ok made := by
  obtain ⟨made, hmade⟩ := exists_drawOnto hd (Extent.saturated shape) #[] s
  have hrow : row draw (Extent.saturated shape) s = .ok made := hmade
  rw [fill_of_room hr, hrow, Outcome.ok_bind, fill_row hrow]
  exact ⟨_, rfl⟩

theorem room_of_fill {shape : List Nat} {s : Stream} {made : Buffer α × Stream}
    (h : fill draw shape s = .ok made) :
    Extent.saturated shape < Extent.allocationLimit := by
  unfold fill at h
  split at h
  · cases h
  · rename_i hr
    exact Nat.not_le.1 hr

/-- Something has been drawn for a buffer with elements. -/
theorem exists_draw_of_fill {shape : List Nat} {s : Stream} {made : Buffer α × Stream}
    (h : fill draw shape s = .ok made) (hpos : Extent.saturated shape ≠ 0) :
    ∃ first, draw s = .ok first := by
  obtain ⟨n, hn⟩ := Nat.exists_eq_succ_of_ne_zero hpos
  rw [fill_of_room (room_of_fill h), hn, row, drawOnto_succ] at h
  obtain ⟨made, hrow, -⟩ := Outcome.bind_eq_ok_iff.1 h
  obtain ⟨first, hfirst, -⟩ := Outcome.bind_eq_ok_iff.1 hrow
  exact ⟨first, hfirst⟩

/-- Whether a draw succeeds does not depend on the stream. -/
def Foreseeable (draw : Stream → Outcome (α × Stream)) : Prop :=
  ∀ {s first}, draw s = .ok first → ∀ s', ∃ made, draw s' = .ok made

/-- The bounds alone decide. -/
theorem foreseeable_double (bound : Float) : Foreseeable (Sampler.uniform bound) := by
  intro s first h s'
  have huniform : Sampler.uniform bound = Stream.uniformDouble bound := rfl
  rw [huniform] at h ⊢
  simp only [Stream.uniformDouble] at h ⊢
  split_ifs at h with hlow hwidth
  · cases h
  · cases h
  · rw [if_neg hlow, if_neg hwidth]
    exact ⟨_, rfl⟩

end Sampler

/-! ## Drawing in place -/

/-- A computation on the stream. What it has drawn stays drawn if it breaks off. -/
abbrev Drawing (β : Type) := ExceptT Failure (StateM Stream) β

namespace Drawing

/-- Breaks off with the stream as it was. -/
def of (f : Stream → Outcome (β × Stream)) : Drawing β := fun s =>
  match f s with
  | .ok (x, s') => (.ok x, s')
  | .error cause => (.error cause, s)

/-- A computation that does not draw. -/
def still (outcome : Outcome β) : Drawing β := of fun s => (·, s) <$> outcome

theorem of_apply_ok {f : Stream → Outcome (β × Stream)} {s : Stream} {made : β × Stream}
    (h : f s = .ok made) : of f s = (.ok made.1, made.2) := by
  rw [of, h]

theorem of_apply_error {f : Stream → Outcome (β × Stream)} {s : Stream} {cause : Failure}
    (h : f s = .error cause) : of f s = (.error cause, s) := by
  rw [of, h]

theorem of_apply_snd (f : Stream → Outcome (β × Stream)) (s : Stream) :
    (of f s).2 = (f s).toOption.elim s Prod.snd := by
  rw [of]
  cases f s <;> rfl

/-- Nothing is lost by a part that cannot fail any more. -/
theorem of_bind {f : Stream → Outcome (β × Stream)} {g : β → Stream → Outcome (γ × Stream)}
    (h : ∀ s made, f s = .ok made → ∃ end', g made.1 made.2 = .ok end') :
    (of f >>= fun x => of (g x)) = of fun s => f s >>= fun made => g made.1 made.2 := by
  funext s
  cases hf : f s with
  | error cause =>
    rw [bind_of_error (of_apply_error hf)]
    exact (of_apply_error (by rw [hf]; rfl)).symm
  | ok made =>
    obtain ⟨end', hg⟩ := h s made hf
    rw [bind_of_ok (of_apply_ok hf), of_apply_ok hg]
    exact (of_apply_ok (by rw [hf]; exact hg)).symm

theorem of_map (f : Stream → Outcome (β × Stream)) (g : β → γ) :
    (of f >>= fun x => pure (g x)) = of fun s => (fun made => (g made.1, made.2)) <$> f s := by
  have hof := of_bind (f := f) (g := fun x s => .ok (g x, s)) fun s made _ => ⟨_, rfl⟩
  refine hof.trans (congrArg of (funext fun s => ?_))
  cases f s <;> rfl

/-- Nor by one before which nothing has been drawn. -/
theorem still_bind (outcome : Outcome β) (g : β → Stream → Outcome (γ × Stream)) :
    (still outcome >>= fun x => of (g x)) = of fun s => outcome >>= fun x => g x s := by
  cases outcome with
  | error cause => rfl
  | ok x => rfl

end Drawing

namespace Sampler

variable {draw : Stream → Outcome (α × Stream)}

/-- Draws samples one after the other. A single draw takes nothing if it fails. -/
def drawing (draw : Stream → Outcome (α × Stream)) : Nat → Array α → Drawing (Array α)
  | 0, samples => pure samples
  | n + 1, samples => do
    let x ← Drawing.of draw
    drawing draw n (samples.push x)

/-- Fills a shape in place. -/
def filling (draw : Stream → Outcome (α × Stream)) (shape : List Nat) : Drawing (Buffer α) := do
  if Extent.allocationLimit ≤ Extent.saturated shape then throw (.crashed .capacity)
  let data ← drawing draw (Extent.saturated shape) #[]
  Drawing.still (Buffer.fill data shape)

theorem drawing_eq (hd : Foreseeable draw) (n : Nat) (samples : Array α) :
    drawing draw n samples = .of (drawOnto draw n samples) := by
  induction n generalizing samples with
  | zero => rfl
  | succ n ih =>
    -- A later draw must not fail: what the first one took would be lost.
    have hrest : ∀ s made, draw s = .ok made →
        ∃ end', drawOnto draw n (samples.push made.1) made.2 = .ok end' :=
      fun s made hmade => exists_drawOnto (hd hmade) n _ _
    rw [drawing]
    simp only [ih]
    rw [Drawing.of_bind hrest]
    congr 1
    funext s
    exact (drawOnto_succ n samples s).symm

theorem filling_eq (hd : Foreseeable draw) (shape : List Nat) :
    filling draw shape = .of (fill draw shape) := by
  unfold filling
  by_cases hr : Extent.allocationLimit ≤ Extent.saturated shape
  · rw [if_pos hr]
    have hcrash : fill draw shape = fun _ => .error (.crashed .capacity) := by
      funext s
      rw [fill, if_pos hr]
      rfl
    rw [hcrash]
    rfl
  · rw [if_neg hr, drawing_eq hd]
    have hlaid : ∀ s made, row draw (Extent.saturated shape) s = .ok made →
        ∃ end', (·, made.2) <$> Buffer.fill made.1 shape = .ok end' := by
      intro s made hmade
      refine ⟨(⟨shape, made.1⟩, made.2), ?_⟩
      rw [fill_row hmade]
      rfl
    refine (Drawing.of_bind (g := fun data s => (·, s) <$> Buffer.fill data shape) hlaid).trans ?_
    congr 1
    funext s
    exact (fill_of_room (Nat.not_le.1 hr) s).symm

/-- Two shapes in place, if the second can be filled whenever the first could. -/
theorem filling_inTurn_eq (hd : Foreseeable draw) {shape₁ shape₂ : List Nat}
    (h : ∀ s first, fill draw shape₁ s = .ok first →
      ∃ second, fill draw shape₂ first.2 = .ok second) :
    (do
      let first ← filling draw shape₁
      let second ← filling draw shape₂
      return (first, second)) = Drawing.of (inTurn (fill draw) shape₁ shape₂) := by
  simp only [filling_eq hd, Drawing.of_map]
  have hsecond : ∀ s first, fill draw shape₁ s = .ok first →
      ∃ both, (fun second => ((first.1, second.1), second.2)) <$> fill draw shape₂ first.2 =
        .ok both := by
    intro s first hfirst
    obtain ⟨second, hsecond⟩ := h s first hfirst
    rw [hsecond]
    exact ⟨_, rfl⟩
  have hof := Drawing.of_bind (g := fun first s =>
    (fun second => ((first, second.1), second.2)) <$> fill draw shape₂ s) hsecond
  refine hof.trans (congrArg Drawing.of (funext fun s => ?_))
  rw [inTurn]
  congr 1

end Sampler

/-! ## Layers -/

namespace Linear

variable [Scalar α] [Sampler α]

/-- The bound of a new layer's parameters. -/
def bound (inputs : Nat) : α := 1 / Scalar.sqrt (Scalar.ofNat inputs)

/-- A new layer's weight and bias. -/
def drawn (inputs outputs : Nat) (s : Stream) : Outcome ((Buffer α × Buffer α) × Stream) := do
  if inputs = 0 ∨ outputs = 0 then refuse (.layerFeatures inputs outputs)
  if Extent.wordLimit ≤ inputs * outputs then refuse (.layerWeights inputs outputs)
  Sampler.inTurn (Sampler.uniforms · (bound inputs)) [outputs, inputs] [outputs] s

/-- The layer over two drawn parameters. -/
def place (store : Store α) (inputs outputs : Nat) (made : (Buffer α × Buffer α) × Stream) :
    Linear × Store α × Stream :=
  let (weight, store) := store.parameter made.1.1
  let (bias, store) := store.parameter made.1.2
  ({ weight, bias, inputs, outputs }, store, made.2)

theorem newLinear_eq (store : Store α) (inputs outputs : Nat) (s : Stream) :
    store.newLinear s inputs outputs = place store inputs outputs <$> drawn inputs outputs s := by
  unfold Store.newLinear drawn
  by_cases h0 : inputs = 0 ∨ outputs = 0
  · rw [if_pos h0, if_pos h0]
    rfl
  · rw [if_neg h0, if_neg h0]
    by_cases hw : Extent.wordLimit ≤ inputs * outputs
    · rw [if_pos hw, if_pos hw]
      rfl
    · rw [if_neg hw, if_neg hw]
      simp only [Sampler.inTurn, map_bind]
      rfl

/-- Draws a new layer's parameters in place. -/
def drawing (inputs outputs : Nat) : Drawing (Buffer α × Buffer α) := do
  if inputs = 0 ∨ outputs = 0 then throw (.refused (.layerFeatures inputs outputs))
  if Extent.wordLimit ≤ inputs * outputs then throw (.refused (.layerWeights inputs outputs))
  let weight ← Sampler.filling (Sampler.uniform (bound inputs)) [outputs, inputs]
  let bias ← Sampler.filling (Sampler.uniform (bound inputs)) [outputs]
  return (weight, bias)

omit [Scalar α] in
/-- Once the weight has been drawn, nothing keeps the bias from being drawn. -/
theorem exists_bias (hu : ∀ bound : α, Sampler.Foreseeable (Sampler.uniform bound))
    {inputs outputs : Nat} (h0 : ¬(inputs = 0 ∨ outputs = 0))
    (hw : ¬Extent.wordLimit ≤ inputs * outputs) {bound : α} {s : Stream}
    {weight : Buffer α × Stream}
    (h : Sampler.fill (Sampler.uniform bound) [outputs, inputs] s = .ok weight) :
    ∃ bias, Sampler.fill (Sampler.uniform bound) [outputs] weight.2 = .ok bias := by
  obtain ⟨hin, hout⟩ := not_or.1 h0
  have hword : outputs * inputs < Extent.wordLimit := by
    rw [Nat.mul_comm]
    exact Nat.not_le.1 hw
  have hle : outputs ≤ outputs * inputs := Nat.le_mul_of_pos_right _ (Nat.pos_of_ne_zero hin)
  have hweight : Extent.saturated [outputs, inputs] = outputs * inputs :=
    Extent.saturated_of_checked (Extent.checked_pair hword hin)
  have hbias : Extent.saturated [outputs] = outputs :=
    Extent.saturated_of_checked (Extent.checked_single (Nat.lt_of_le_of_lt hle hword))
  have hroom : outputs * inputs < Extent.allocationLimit := by
    rw [← hweight]
    exact Sampler.room_of_fill h
  -- The weight has elements, so the bounds have been found good.
  have hpos : Extent.saturated [outputs, inputs] ≠ 0 := by
    rw [hweight]
    exact Nat.mul_ne_zero hout hin
  obtain ⟨first, hfirst⟩ := Sampler.exists_draw_of_fill h hpos
  refine Sampler.exists_fill (hu bound hfirst) ?_ weight.2
  rw [hbias]
  exact Nat.lt_of_le_of_lt hle hroom

theorem drawing_eq (hu : ∀ bound : α, Sampler.Foreseeable (Sampler.uniform bound))
    (inputs outputs : Nat) :
    drawing (α := α) inputs outputs = .of (drawn inputs outputs) := by
  unfold drawing drawn
  by_cases h0 : inputs = 0 ∨ outputs = 0
  · simp only [if_pos h0]
    rfl
  by_cases hw : Extent.wordLimit ≤ inputs * outputs
  · simp only [if_neg h0, if_pos hw]
    rfl
  simp only [if_neg h0, if_neg hw]
  exact Sampler.filling_inTurn_eq (hu _) fun s weight => exists_bias hu h0 hw

/-- The parameters of a layer are cut from one row. -/
theorem newLinear_eq_row {inputs outputs : Nat} (hin : inputs ≠ 0) (hout : outputs ≠ 0)
    (hw : outputs * inputs < Extent.allocationLimit) (store : Store α) (s : Stream) :
    store.newLinear s inputs outputs = place store inputs outputs <$>
      Sampler.cut (outputs * inputs) [outputs, inputs] [outputs] <$>
        Sampler.row (Sampler.uniform (bound inputs)) (outputs * inputs + outputs) s := by
  have hle : outputs ≤ outputs * inputs := Nat.le_mul_of_pos_right _ (Nat.pos_of_ne_zero hin)
  have hword : outputs * inputs < Extent.wordLimit := Nat.lt_trans hw (by decide)
  have hmul : ¬Extent.wordLimit ≤ inputs * outputs := by
    rw [Nat.mul_comm]
    exact Nat.not_le.2 hword
  have hbias : outputs < Extent.allocationLimit := Nat.lt_of_le_of_lt hle hw
  rw [newLinear_eq, drawn, if_neg (not_or.2 ⟨hin, hout⟩), if_neg hmul]
  apply congrArg
  exact Sampler.inTurn_eq (Extent.checked_pair hword hin)
    (Extent.checked_single (Nat.lt_of_le_of_lt hle hword)) hw hbias s

end Linear

/-! ## Calls -/

section

variable [Sampler α]

/-- Creations that draw samples. -/
def Creation.Draws {η : Type} : Creation α η → Prop
  | .filled .normal .. | .newLinear .. => True
  | _ => False

/-- What making an object does to the stream. -/
def Creation.drawing [Scalar α] {η : Type} : Creation α η → Drawing Unit
  | .filled .normal dims count => do
    let shape ← Drawing.still (Engine.readShape dims count)
    let _ ← Sampler.filling (α := α) (fun s => .ok (Sampler.normal s)) shape
  | .newLinear inputs outputs => do
    let _ ← Linear.drawing (α := α) inputs outputs
  | _ => pure ()

/-- Calls that draw samples, or start the stream afresh. -/
def Call.Draws : Call α → Prop
  | .seed _ => True
  | .create c true => c.Draws
  | _ => False

/-- What a call does to the stream. -/
def Call.drawing [Scalar α] : Call α → Drawing Unit
  | .seed value => fun _ => (.ok (), .ofSeed value)
  | .create c true => c.drawing
  | _ => pure ()

variable [Scalar α]

theorem Creation.drawing_of_not_draws {η : Type} {c : Creation α η} (hc : ¬c.Draws) :
    c.drawing = pure () := by
  cases c with
  | filled filling dims count =>
    cases filling with
    | normal => exact absurd trivial hc
    | zeros | ones => rfl
  | newLinear inputs outputs => exact absurd trivial hc
  | _ => rfl

theorem Call.drawing_of_not_draws {c : Call α} (hc : ¬c.Draws) : c.drawing = pure () := by
  cases c with
  | seed value => exact absurd trivial hc
  | create body hasStatus =>
    cases hasStatus with
    | false => rfl
    | true => exact Creation.drawing_of_not_draws hc
  | _ => rfl

end

namespace Engine

variable [Scalar α] [Sampler α]

/-- Most objects are made without a draw. -/
theorem stream_of_build {e : Engine α} {c : Creation α Handle} (hc : ¬c.Draws)
    {new : Object α × Store α × Stream} (h : e.build c = .ok new) : new.2.2 = e.stream := by
  cases built h with
  | newLinear _ => exact absurd trivial hc
  | filled _ hv => exact filledBuffer_stream hv fun hf => hc (hf ▸ trivial)
  | _ => rfl

omit [Scalar α] [Sampler α] in
theorem stream_of_hushed {e e' : Engine α} (h : e.hushed = e'.hushed) : e.stream = e'.stream := by
  show e.hushed.stream = e'.hushed.stream
  rw [h]

omit [Sampler α] in
theorem stream_run (e : Engine α) (c : Command Handle) : (e.run c).2.1.stream = e.stream := by
  have hr := e.ran c
  generalize e.run c = out at hr ⊢
  cases hr with
  | refused _ | setTracked _ _ | backward _ _ | step _ _ | clearGradients _ => rfl

omit [Scalar α] [Sampler α] in
theorem stream_handOutNodes (nodes : List NodeId) (e : Engine α) :
    (e.handOutNodes nodes).2.stream = e.stream := by
  induction nodes generalizing e with
  | nil => rfl
  | cons n rest ih => exact ih (e.handOut (.tensor n)).2

section

variable (hu : ∀ bound : α, Sampler.Foreseeable (Sampler.uniform bound))
include hu

/-- What is made has been drawn in place, and nothing has been drawn for what is not made. -/
theorem drawing_of_build (e : Engine α) (c : Creation α Handle) :
    (c.drawing e.stream).2 = (e.build c).toOption.elim e.stream fun new => new.2.2 := by
  by_cases hc : c.Draws
  · cases c with
    | filled filling dims count =>
      cases filling with
      | zeros | ones => exact hc.elim
      | normal =>
        have hd : Sampler.Foreseeable fun s => .ok (Sampler.normal (α := α) s) :=
          fun _ s' => ⟨_, rfl⟩
        simp only [Creation.drawing, Sampler.filling_eq hd, Drawing.of_map, Drawing.still_bind,
          Drawing.of_apply_snd, build, filledBuffer, Sampler.normals]
        cases readShape dims count with
        | error cause => rfl
        | ok shape =>
          rw [Outcome.ok_bind, Outcome.ok_bind]
          cases Sampler.fill (fun s => .ok (Sampler.normal (α := α) s)) shape e.stream <;> rfl
    | newLinear inputs outputs =>
      simp only [Creation.drawing, Linear.drawing_eq hu, Drawing.of_map, Drawing.of_apply_snd,
        build, Linear.newLinear_eq]
      cases Linear.drawn (α := α) inputs outputs e.stream <;> rfl
    | _ => exact hc.elim
  · rw [Creation.drawing_of_not_draws hc]
    cases hb : e.build c with
    | error cause => rfl
    | ok new => exact (stream_of_build hc hb).symm

/-- The stream moves by what a call draws in place. -/
theorem stream_answer (e : Engine α) (c : Call α) :
    (e.answer c).2.1.stream = (c.drawing e.stream).2 := by
  cases c with
  | seed value => rfl
  | lastError buffer => rfl
  | release kind handle => cases handle <;> rfl
  | create body hasStatus =>
    cases hasStatus with
    | false => rfl
    | true =>
      rw [stream_of_hushed (e.answer_create body).2]
      refine Eq.trans ?_ (drawing_of_build hu e body).symm
      cases e.build body <;> rfl
  | command body => exact (stream_of_hushed (e.answer_command body).2).trans (e.stream_run body)
  | query body => exact stream_of_hushed (e.answer_query body).2
  | shape tensor hasBuffer => exact stream_of_hushed (hushed_settle ..)
  | copyData tensor hasBuffer length => exact stream_of_hushed (hushed_settle ..)
  | parameters layer hasBuffer length =>
    refine (stream_of_hushed (e.hushed_attempt (e.exportParameters layer hasBuffer length))).trans ?_
    unfold exportParameters
    cases e.layer layer with
    | error cause => rfl
    | ok l =>
      rw [Outcome.ok_bind]
      split_ifs
      · rfl
      · rfl
      · exact stream_handOutNodes l.parameters e
  | gradient tensor =>
    refine (stream_of_hushed (e.hushed_attempt (e.exportGradient tensor))).trans ?_
    unfold exportGradient
    cases e.tensor tensor with
    | error cause => rfl
    | ok n =>
      rw [Outcome.ok_bind]
      cases e.store.gradient n <;> rfl

/-- The stream after several calls. -/
theorem stream_after (calls : List (Call α)) (e : Engine α) :
    (e.after calls).stream = calls.foldl (fun s c => (c.drawing s).2) e.stream := by
  induction calls generalizing e with
  | nil => rfl
  | cons c rest ih =>
    show ((e.answer c).2.1.after rest).stream = _
    rw [ih, stream_answer hu, List.foldl_cons]

/-- A creation that fails has drawn nothing. -/
theorem drawing_of_failed {e : Engine α} {c : Creation α Handle}
    (h : (e.answer (.create c true)).1.status ≠ some .success) :
    (c.drawing e.stream).2 = e.stream := by
  rw [drawing_of_build hu]
  cases hb : e.build c with
  | error cause => rfl
  | ok new => exact absurd ((e.status_answer_create_iff c).2 ⟨new, hb⟩) h

end

end Engine

/-- All samples come from one stream, and shapes only say how they are laid out. A buffer with one
dimension is a row of samples; two buffers of normal samples, or of uniform samples between the same
bounds, are one such buffer, cut; and the parameters of a layer are one row, cut into weight and
bias. The stream moves by what calls draw where it stands: nothing for a creation that fails, and
nothing for any call but those that create normal samples or layers and those that start the stream
afresh. -/
theorem samples_one_stream [Scalar α] [Sampler α]
    (hu : ∀ bound : α, Sampler.Foreseeable (Sampler.uniform bound)) :
    (∀ (n : Nat) (s : Stream), n < Extent.allocationLimit →
      Sampler.normals [n] s = (fun made => (⟨[n], made.1⟩, made.2)) <$>
        Sampler.row (fun s => .ok (Sampler.normal (α := α) s)) n s ∧
      ∀ bound : α, Sampler.uniforms [n] bound s = (fun made => (⟨[n], made.1⟩, made.2)) <$>
        Sampler.row (Sampler.uniform bound) n s) ∧
    (∀ (shape₁ shape₂ : List Nat) (n₁ n₂ : Nat) (s : Stream), Extent.checked shape₁ = some n₁ →
      Extent.checked shape₂ = some n₂ → n₁ + n₂ < Extent.allocationLimit →
      (Sampler.inTurn (Sampler.normals (α := α)) shape₁ shape₂ s =
          (fun whole => Sampler.cut n₁ shape₁ shape₂ (whole.1.data, whole.2)) <$>
            Sampler.normals [n₁ + n₂] s ∧
        ∃ whole : Buffer α × Stream, Sampler.normals [n₁ + n₂] s = .ok whole) ∧
      ∀ bound : α, Sampler.inTurn (Sampler.uniforms · bound) shape₁ shape₂ s =
        (fun whole => Sampler.cut n₁ shape₁ shape₂ (whole.1.data, whole.2)) <$>
          Sampler.uniforms [n₁ + n₂] bound s) ∧
    (∀ (inputs outputs : Nat) (store : Store α) (s : Stream), inputs ≠ 0 → outputs ≠ 0 →
      outputs * inputs < Extent.allocationLimit →
      store.newLinear s inputs outputs = Linear.place store inputs outputs <$>
        Sampler.cut (outputs * inputs) [outputs, inputs] [outputs] <$>
          Sampler.row (Sampler.uniform (1 / Scalar.sqrt (Scalar.ofNat inputs) : α))
            (outputs * inputs + outputs) s) ∧
    ∀ e : Engine α,
      (∀ calls, (e.after calls).stream = calls.foldl (fun s c => (c.drawing s).2) e.stream) ∧
      (∀ c : Call α, ¬c.Draws → (e.answer c).2.1.stream = e.stream) ∧
      ∀ c, (e.answer (.create c true)).1.status ≠ some .success →
        (e.answer (.create c true)).2.1.stream = e.stream ∧ (c.drawing e.stream).2 = e.stream := by
  refine ⟨?_, ?_, ?_, ?_⟩
  · intro n s hn
    have hc : Extent.checked [n] = some n := Extent.checked_single (Nat.lt_trans hn (by decide))
    exact ⟨Sampler.fill_eq hc hn s, fun bound => Sampler.fill_eq hc hn s⟩
  · intro shape₁ shape₂ n₁ n₂ s h₁ h₂ hn
    have hc : Extent.checked [n₁ + n₂] = some (n₁ + n₂) :=
      Extent.checked_single (Nat.lt_trans hn (by decide))
    have hnormals : ∃ whole : Buffer α × Stream, Sampler.normals [n₁ + n₂] s = .ok whole := by
      apply Sampler.exists_fill fun s => ⟨_, rfl⟩
      rw [Extent.saturated_of_checked hc]
      exact hn
    constructor
    · exact ⟨Sampler.inTurn_eq_cut h₁ h₂ hn s, hnormals⟩
    · intro bound
      exact Sampler.inTurn_eq_cut h₁ h₂ hn s
  · intro inputs outputs store s hin hout hw
    exact Linear.newLinear_eq_row hin hout hw store s
  · intro e
    refine ⟨fun calls => Engine.stream_after hu calls e, ?_, ?_⟩
    · intro c hc
      rw [Engine.stream_answer hu, Call.drawing_of_not_draws hc]
      rfl
    · intro c hc
      refine ⟨?_, Engine.drawing_of_failed hu hc⟩
      exact (Engine.stream_answer hu e _).trans (Engine.drawing_of_failed hu hc)

/-- A matrix and a row of doubles, the numbers of a layer, and a layer for which there is no room. -/
theorem samples_one_stream_double :
    let e : Engine Float := .ofSeed 7
    let calls : List (Call Float) := [.create (.filled .normal (some [2, 3]) 2) true]
    let large : Creation Float Handle := .newLinear 0x40000000 0x40000000
    Sampler.normals [10] e.stream = (fun made => (⟨[10], made.1⟩, made.2)) <$>
      Sampler.row (fun s => .ok (Sampler.normal (α := Float) s)) 10 e.stream ∧
    Sampler.inTurn (Sampler.normals (α := Float)) [2, 3] [4] e.stream =
      (fun whole => Sampler.cut 6 [2, 3] [4] (whole.1.data, whole.2)) <$>
        Sampler.normals [10] e.stream ∧
    e.store.newLinear e.stream 3 2 = Linear.place e.store 3 2 <$>
      Sampler.cut 6 [2, 3] [2] <$>
        Sampler.row (Sampler.uniform (1 / Scalar.sqrt (Scalar.ofNat 3) : Float)) 8 e.stream ∧
    (e.after calls).stream = calls.foldl (fun s c => (c.drawing s).2) e.stream ∧
    (e.answer (.query (.rank none))).2.1.stream = e.stream ∧
    (e.answer (.create large true)).2.1.stream = e.stream := by
  intro e calls large
  obtain ⟨hrow, hinTurn, hlayer, hcalls⟩ := samples_one_stream Sampler.foreseeable_double
  obtain ⟨hafter, hquery, hfailed⟩ := hcalls e
  have hlarge : (e.answer (.create large true)).1.status ≠ some .success := by
    rw [ne_eq, Engine.status_answer_create_iff]
    rintro ⟨new, hnew⟩
    obtain ⟨made, hmade, -⟩ := Outcome.bind_eq_ok_iff.1 hnew
    obtain ⟨-, -, weight, bias, between, hweight, -⟩ := Store.newLinear_inv hmade
    exact absurd (Sampler.room_of_fill hweight) (by decide)
  refine ⟨(hrow 10 _ (by decide)).1, ?_, ?_, hafter calls, ?_, (hfailed large hlarge).1⟩
  · exact (hinTurn [2, 3] [4] 6 4 e.stream rfl rfl (by decide)).1.1
  · exact hlayer 3 2 e.store e.stream (by decide) (by decide) (by decide)
  · exact hquery (.query (.rank none)) not_false

end DiffTensor
