import BrilloBoot.Lib.DoWhile
import BrilloBoot.Lib.Machine
import Mathlib.Data.ENat.Basic

/-!
# Labelled transitions

A system moves from state to state, and a move may show a label. `Trace` is a sequence of moves with
the labels that it shows, in order. A property that every move keeps holds after every trace
(`invariant`), and where every label costs one of what a measure counts, the measure pays for the
labels (`count_add_le`). A machine whose every step is a trace of the system runs as a trace of the
system (`Machine.run_trace`), and so does a loop, turn by turn (`DoWhile.run_trace`).
-/

/-- A sequence of moves, with the labels that it shows. -/
inductive Trace {σ ι : Type*} (R : σ → Option ι → σ → Prop) : σ → List ι → σ → Prop
  | nil (s : σ) : Trace R s [] s
  | cons {s t u : σ} {o : Option ι} {labels : List ι} (move : R s o t) (rest : Trace R t labels u) :
      Trace R s (o.toList ++ labels) u

namespace Trace

variable {σ ι : Type*} {R : σ → Option ι → σ → Prop} {s t u : σ} {o : Option ι}
  {labels labels' : List ι}

/-- One move. -/
theorem single (h : R s o t) : Trace R s o.toList t := by
  have htrace := Trace.cons h (.nil t)
  rwa [List.append_nil] at htrace

/-- One trace after another. -/
theorem trans (h : Trace R s labels t) (h' : Trace R t labels' u) :
    Trace R s (labels ++ labels') u := by
  induction h with
  | nil => exact h'
  | cons move _ ih =>
    rw [List.append_assoc]
    exact .cons move (ih h')

/-- A measure that no move raises, and that every move with the label `i` lowers, pays for the
occurrences of `i`. -/
theorem count_add_le [DecidableEq ι] {μ : σ → ℕ∞} {i : ι}
    (hstep : ∀ s o t, R s o t → (if o = some i then 1 else 0) + μ t ≤ μ s)
    (h : Trace R s labels t) : (labels.count i : ℕ∞) + μ t ≤ μ s := by
  induction h with
  | nil => simp
  | @cons s t u o labels move _ ih =>
    have hcount : (((o.toList ++ labels).count i : ℕ) : ℕ∞) =
        (if o = some i then 1 else 0) + (labels.count i : ℕ∞) := by
      cases o with
      | none => simp
      | some j => by_cases hj : j = i <;> simp [hj, add_comm]
    calc (((o.toList ++ labels).count i : ℕ) : ℕ∞) + μ u
        = (if o = some i then 1 else 0) + ((labels.count i : ℕ∞) + μ u) := by rw [hcount, add_assoc]
      _ ≤ (if o = some i then 1 else 0) + μ t := by gcongr
      _ ≤ μ s := hstep s o t move

end Trace

/-- When every step of a machine is a trace of a system, so is every run. `Rep` says what the system
takes a state for, and `shows` what an output shows of the labels. -/
theorem Machine.run_trace {α κ ι σ τ ο : Type*} {step : α → σ → ο × σ}
    {R : τ → Option ι → τ → Prop} {Rep : σ → τ → Prop} {shows : ο → Option κ} {name : ι → κ}
    {inputs : List α}
    (hstep : ∀ x ∈ inputs, ∀ s a, Rep s a → ∃ labels b, Trace R a labels b ∧
      (shows (step x s).1).toList = labels.map name ∧ Rep (step x s).2 b)
    {s : σ} {a : τ} (h : Rep s a) :
    ∃ labels b, Trace R a labels b ∧ (Machine.run step inputs s).1.filterMap shows =
      labels.map name ∧ Rep (Machine.run step inputs s).2 b := by
  induction inputs generalizing s a with
  | nil => exact ⟨[], a, .nil a, rfl, h⟩
  | cons x inputs ih =>
    rw [List.forall_mem_cons] at hstep
    obtain ⟨labels, b, htrace, hshows, hb⟩ := hstep.1 s a h
    obtain ⟨labels', c, htrace', hshows', hc⟩ := ih hstep.2 hb
    refine ⟨labels ++ labels', c, htrace.trans htrace', ?_, hc⟩
    rw [Machine.run_cons_fst, List.map_append, ← hshows, ← hshows', List.filterMap_cons]
    cases shows (step x s).1 <;> rfl

/-- When every turn of a loop that goes on is a move without a label, and a turn that leaves it is a
move with the label of its result, what any number of turns comes to is a trace. -/
theorem DoWhile.run_trace {ι σ τ ρ : Type*} {body : ℕ → σ → σ ⊕ ρ} {R : τ → Option ι → τ → Prop}
    {Rep : σ → τ → Prop} {End : ρ → Option ι → τ → Prop}
    (hgo : ∀ k s s' a, Rep s a → body k s = .inl s' → ∃ b, R a none b ∧ Rep s' b)
    (hend : ∀ k s r a, Rep s a → body k s = .inr r → ∃ o b, R a o b ∧ End r o b)
    {s : σ} {a : τ} (h : Rep s a) (k : ℕ) :
    (∃ s' b, DoWhile.run body s k = .inl s' ∧ Trace R a [] b ∧ Rep s' b) ∨
      ∃ r o b, DoWhile.run body s k = .inr r ∧ Trace R a o.toList b ∧ End r o b := by
  induction k with
  | zero => exact .inl ⟨s, a, rfl, .nil a, h⟩
  | succ k ih =>
    rcases ih with ⟨s', b, hrun, htrace, hb⟩ | ⟨r, o, b, hrun, htrace, hr⟩
    · rw [DoWhile.run_succ_of_inl hrun]
      cases hturn : body k s' with
      | inl s'' =>
        obtain ⟨c, hmove, hc⟩ := hgo k s' s'' b hb hturn
        exact .inl ⟨s'', c, rfl, htrace.trans (.single hmove), hc⟩
      | inr r =>
        obtain ⟨o, c, hmove, hr⟩ := hend k s' r b hb hturn
        exact .inr ⟨r, o, c, rfl, htrace.trans (.single hmove), hr⟩
    · exact .inr ⟨r, o, b, DoWhile.run_succ_of_inr hrun, htrace, hr⟩
