import DiffTensor.Proofs.Balance
import DiffTensor.Proofs.Reading

/-!
# Recordings

`Recording` builds a graph with the operations of the library, and keeps for each result what the
operation read when it ran (`History`). Values that are replaced later do not change what was
read.

The rules in the graph come from these readings (`Recording.faithful`), so the history is enough to
say what each recorded operation computed.
-/

namespace DiffTensor

variable {K : Type} [Field K] [LinearOrder K] [Elementary K]

/-- For each result, the operation that it came from and what was read then. -/
abbrev History (K : Type) := NodeId → Option (Reading K)

/-- Adds what was read for a new node. -/
def History.note (t : History K) (n : NodeId) (r : Reading K) : History K :=
  fun k => if k = n then some r else t k

/-- Graphs made by the operations of the library, with what each operation read when it ran. Between
operations, tracking may be switched, values may be replaced by others of the same shape (as
optimizers do), gradients may be forgotten, and differentiation may be carried out. -/
inductive Recording : Store K → History K → Prop where
  | empty : Recording {} fun _ => none
  | leaf {s : Store K} {t : History K} {v : Buffer K} : Recording s t → v.Sound →
    Recording (s.leaf v).2 t
  | parameter {s : Store K} {t : History K} {v : Buffer K} : Recording s t → v.Sound →
    Recording (s.parameter v).2 t
  | unary {s s' : Store K} {t : History K} {op : UnaryOp} {a n : NodeId} : Recording s t →
    a < s.nodes.size → s.unary op a = .ok (n, s') →
    Recording s' (t.note n (.unary op a (s.value a)))
  | binary {s s' : Store K} {t : History K} {op : BinaryOp} {a b n : NodeId} : Recording s t →
    a < s.nodes.size → b < s.nodes.size → s.binary op a b = .ok (n, s') →
    Recording s' (t.note n (.binary op a b (s.value a) (s.value b)))
  | applyLinear {s s' : Store K} {t : History K} {layer : Linear} {a n : NodeId} :
    Recording s t → a < s.nodes.size → layer.Fits s → s.applyLinear layer a = .ok (n, s') →
    Recording s' (t.note n
      (.linear layer a (s.value a) (s.value layer.weight) (s.value layer.bias)))
  | setTracked {s s' : Store K} {t : History K} {n : NodeId} {flag : Bool} : Recording s t →
    s.setTracked n flag = .ok s' → Recording s' t
  | setValue {s : Store K} {t : History K} {n : NodeId} {v : Buffer K} : Recording s t →
    v.Sound → v.shape = s.shape n → Recording (s.setValue n v) t
  | clearGradient {s : Store K} {t : History K} {n : NodeId} : Recording s t →
    Recording (s.clearGradient n) t
  | backward {s s' : Store K} {t : History K} {sort : Discovery → Option (List NodeId)}
    {root : NodeId} {result : Outcome Unit} : Recording s t → Discovery.IsToposort sort →
    s.backwardBy sort root = (result, s') → Recording s' t

namespace Store

variable {s s' : Store K} {t : History K}

/-- What was read for a recorded node accounts for its rule, its inputs, and the shapes. -/
def Noted (s : Store K) (n : NodeId) (made : Recorded K) (read : Option (Reading K)) : Prop :=
  ∃ r y, read = some r ∧ r.Sound ∧ r.kept = .ok (y, made.rule) ∧ y.shape = s.shape n ∧
    r.operands.map (·.1) = made.inputs ∧ ∀ q ∈ r.operands, q.2.shape = s.shape q.1

/-- The history tells the truth about the rules in the graph. -/
structure Faithful (s : Store K) (t : History K) : Prop where
  sound : s.Sound Rule.Fits
  noted : ∀ n made, s.origin n = some made → s.Noted n made (t n)

theorem Noted.later {n : NodeId} {made : Recorded K} {read : Option (Reading K)}
    (h : s.Noted n made read) (hS : s.Sound Rule.Fits) (hn : s.origin n = some made)
    (hs : ∀ k < s.nodes.size, s'.shape k = s.shape k) : s'.Noted n made read := by
  obtain ⟨r, y, h1, h2, h3, h4, h5, h6⟩ := h
  have hlt := lt_size_of_origin hn
  refine ⟨r, y, h1, h2, h3, h4.trans (hs n hlt).symm, h5, fun q hq => ?_⟩
  have hq' : q.1 ∈ s.inputs n := by
    rw [inputs_of_origin hn, ← h5]
    exact List.mem_map_of_mem hq
  exact (h6 q hq).trans (hs q.1 (Nat.lt_trans (hS.older n _ hq') hlt)).symm

/-- What neither records anything nor changes shapes leaves the history faithful. -/
theorem Faithful.later (h : s.Faithful t) (hS : s'.Sound Rule.Fits) (ho : s'.origin = s.origin)
    (hs : ∀ n < s.nodes.size, s'.shape n = s.shape n) : s'.Faithful t := by
  refine ⟨hS, fun n made hn => ?_⟩
  rw [ho] at hn
  exact (h.noted n made hn).later h.sound hn hs

theorem Faithful.kept (h : s.Faithful t) (hS : s'.Sound Rule.Fits) (hk : s.Kept s') :
    s'.Faithful t :=
  h.later hS hk.origin_eq hk.shape_eq

/-- Noting what was read keeps the history faithful when an operation runs. -/
theorem Faithful.run (h : s.Faithful t) {r : Reading K} (hr : s.Reads r) {n : NodeId}
    (hs : s.run r = .ok (n, s')) : s'.Faithful (t.note n r) := by
  refine ⟨h.sound.run hr hs, fun k made hk => ?_⟩
  obtain ⟨⟨y, rule⟩, hkept, e⟩ := Outcome.bind_eq_ok_iff.1 hs
  have hrec : s.record y rule (r.operands.map (·.1)) = (n, s') := Except.ok.inj e
  have hgrown : s.Grown s' := by
    rw [show s' = _ from (congrArg Prod.snd hrec).symm]
    exact grown_record ..
  obtain rfl : s.nodes.size = n := (fst_record ..).symm.trans (congrArg Prod.fst hrec)
  by_cases hkn : k < s.nodes.size
  · rw [hgrown.origin_eq k hkn] at hk
    rw [History.note, if_neg (Nat.ne_of_lt hkn)]
    exact (h.noted k made hk).later h.sound hk hgrown.shape_eq
  · -- the node is the new one, and was recorded
    unfold record at hrec
    split at hrec
    · obtain rfl := congrArg Prod.snd hrec
      have hnode : (s.push ⟨y, none, true, some ⟨rule, r.operands.map (·.1)⟩⟩).2.node
          s.nodes.size = ⟨y, none, true, some ⟨rule, r.operands.map (·.1)⟩⟩ := node_push_self
      have hk' := lt_size_of_origin hk
      rw [size_push] at hk'
      obtain rfl : k = s.nodes.size :=
        Nat.le_antisymm (Nat.lt_succ_iff.1 hk') (Nat.not_lt.1 hkn)
      rw [origin, hnode] at hk
      obtain rfl := Option.some.inj hk
      refine ⟨r, y, if_pos rfl, h.sound.reading hr, hkept, ?_, rfl, fun q hq => ?_⟩
      · rw [shape, value, hnode]
      · rw [hgrown.shape_eq q.1 (hr.existing q hq).1, shape, (hr.existing q hq).2]
    · obtain rfl := congrArg Prod.snd hrec
      rw [(kept_leaf s y).origin_eq] at hk
      exact absurd (lt_size_of_origin hk) hkn

end Store

/-- The history of a recording tells the truth. -/
theorem Recording.faithful {s : Store K} {t : History K} (h : Recording s t) : s.Faithful t := by
  induction h with
  | empty =>
    refine ⟨Store.sound_empty, fun n made hn => ?_⟩
    exact absurd (Store.lt_size_of_origin hn) (Nat.not_lt_zero n)
  | leaf _ hv ih => exact ih.kept (ih.sound.leaf hv) (Store.kept_leaf ..)
  | parameter _ hv ih =>
    exact ih.later (ih.sound.parameter hv) (Store.origin_push_of_leaf _ rfl)
      (Store.grown_push ..).shape_eq
  | unary _ ha hs ih =>
    rw [Store.unary_eq_run] at hs
    exact ih.run (Store.reads_unary _ ha) hs
  | binary _ ha hb hs ih =>
    rw [Store.binary_eq_run] at hs
    exact ih.run (Store.reads_binary _ ha hb) hs
  | applyLinear _ ha hl hs ih =>
    rw [Store.applyLinear_eq_run] at hs
    exact ih.run (Store.reads_linear hl ha) hs
  | setTracked _ hs ih =>
    obtain ⟨ho, hsh⟩ := Store.origin_shape_setTracked hs
    exact ih.later (ih.sound.setTracked hs) ho fun n _ => congrFun hsh n
  | setValue _ hv hs ih => exact ih.kept (ih.sound.setValue hv hs) (Store.kept_setValue hs)
  | clearGradient _ ih => exact ih.kept (ih.sound.clearGradient _) (Store.kept_clearGradient ..)
  | backward _ hsort hs ih =>
    obtain ⟨hS, hk, -⟩ := Store.backwardBy_kept RuleLaw.fits_serves ih.sound _ hsort
    rw [hs] at hS hk
    exact ih.kept hS hk

end DiffTensor
