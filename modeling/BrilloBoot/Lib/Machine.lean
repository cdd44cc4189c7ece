import Mathlib.Data.List.Basic

/-!
# Runs of a deterministic machine

A machine takes an input in a state, gives an output, and moves to a state. `run` feeds it a list of
inputs. The lemmas lift what one step does to runs of any length: an invariant (`run_invariant`), a
property of the outputs (`run_outputs`), a relation between the states before and after
(`run_related`), a property of the state and of what the outputs so far come to (`run_gather`), and
a simulation of one machine by another (`run_simulates`).
-/

namespace Machine

variable {α ι σ τ ο : Type*}

/-- The outputs of a machine on a list of inputs, and the state in which it ends. -/
def run (step : ι → σ → ο × σ) : List ι → σ → List ο × σ
  | [], s => ([], s)
  | i :: is, s =>
    ((step i s).1 :: (run step is (step i s).2).1, (run step is (step i s).2).2)

/-- The run of no steps. -/
@[simp] theorem run_nil (step : ι → σ → ο × σ) (s : σ) : run step [] s = ([], s) := rfl

/-- The first output is that of the first step. -/
@[simp] theorem run_cons_fst (step : ι → σ → ο × σ) (i : ι) (is : List ι) (s : σ) :
    (run step (i :: is) s).1 = (step i s).1 :: (run step is (step i s).2).1 := rfl

/-- The rest of the run starts where the first step ends. -/
@[simp] theorem run_cons_snd (step : ι → σ → ο × σ) (i : ι) (is : List ι) (s : σ) :
    (run step (i :: is) s).2 = (run step is (step i s).2).2 := rfl

/-- A property that every step keeps holds at the end of every run. -/
theorem run_invariant {step : ι → σ → ο × σ} {P : σ → Prop}
    (hstep : ∀ i s, P s → P (step i s).2) {is : List ι} {s : σ} (hs : P s) :
    P (run step is s).2 := by
  induction is generalizing s with
  | nil => exact hs
  | cons i is ih => exact ih (hstep i s hs)

/-- A run of two lists of inputs is the run of the second from where the first ends. -/
theorem run_append_snd (step : ι → σ → ο × σ) (is js : List ι) (s : σ) :
    (run step (is ++ js) s).2 = (run step js (run step is s).2).2 := by
  induction is generalizing s with
  | nil => rfl
  | cons i is ih => exact ih (step i s).2

/-- A property of the outputs that the invariant entails at every step holds of all outputs. -/
theorem run_outputs {step : ι → σ → ο × σ} {P : σ → Prop} {Q : ο → Prop}
    (hstep : ∀ i s, P s → P (step i s).2) (hout : ∀ i s, P s → Q (step i s).1) {is : List ι}
    {s : σ} (hs : P s) : ∀ o ∈ (run step is s).1, Q o := by
  induction is generalizing s with
  | nil => simp
  | cons i is ih =>
    rw [run_cons_fst, List.forall_mem_cons]
    exact ⟨hout i s hs, ih (hstep i s hs)⟩

/-- A transitive relation that every step from a state with the invariant respects holds between
the ends of every run that starts with the invariant. -/
theorem run_related {step : ι → σ → ο × σ} {P : σ → Prop} {R : σ → σ → Prop}
    (hstep : ∀ i s, P s → P (step i s).2) (hrefl : ∀ s, P s → R s s)
    (htrans : ∀ s t u, R s t → R t u → R s u) (hR : ∀ i s, P s → R s (step i s).2)
    {is : List ι} {s : σ} (hs : P s) : R s (run step is s).2 := by
  induction is generalizing s with
  | nil => exact hrefl s hs
  | cons i is ih => exact htrans _ _ _ (hR i s hs) (ih (hstep i s hs))

/-- Once a step gives an output with the property `Q`, the property `P` that such a step establishes
and every step keeps holds at the end of the run. -/
theorem run_established {step : ι → σ → ο × σ} {I P : σ → Prop} {Q : ο → Prop}
    (hI : ∀ i s, I s → I (step i s).2) (hP : ∀ i s, P s → P (step i s).2)
    (hQ : ∀ i s, I s → Q (step i s).1 → P (step i s).2) {is : List ι} {s : σ} (hs : I s)
    (hout : ∃ o ∈ (run step is s).1, Q o) : P (run step is s).2 := by
  induction is generalizing s with
  | nil => simp at hout
  | cons i is ih =>
    obtain ⟨o, ho, hq⟩ := hout
    rw [run_cons_fst, List.mem_cons] at ho
    rw [run_cons_snd]
    rcases ho with rfl | ho
    · exact run_invariant hP (hQ i s hs hq)
    · exact ih (hI i s hs) ⟨o, ho, hq⟩

/-- A property of the outputs so far, gathered by `gather`, and of the state that every step keeps
holds at the end of every run. -/
theorem run_gather {step : ι → σ → ο × σ} {gather : α → ο → α} {P : α → σ → Prop}
    (hstep : ∀ i a s, P a s → P (gather a (step i s).1) (step i s).2) {is : List ι} {a : α} {s : σ}
    (h : P a s) : P ((run step is s).1.foldl gather a) (run step is s).2 := by
  induction is generalizing a s with
  | nil => exact h
  | cons i is ih => exact ih (hstep i a s h)

/-- The same, from the first step on whose output has the property `Q` that establishes it. -/
theorem run_gather_established {step : ι → σ → ο × σ} {gather : α → ο → α} {P : α → σ → Prop}
    {Q : ο → Prop} (hstep : ∀ i a s, P a s → P (gather a (step i s).1) (step i s).2)
    (hQ : ∀ i a s, Q (step i s).1 → P (gather a (step i s).1) (step i s).2) {is : List ι} {a : α}
    {s : σ} (hout : ∃ o ∈ (run step is s).1, Q o) :
    P ((run step is s).1.foldl gather a) (run step is s).2 := by
  induction is generalizing a s with
  | nil => simp at hout
  | cons i is ih =>
    obtain ⟨o, ho, hq⟩ := hout
    rw [run_cons_fst, List.mem_cons] at ho
    rw [run_cons_fst, run_cons_snd, List.foldl_cons]
    rcases ho with rfl | ho
    · exact run_gather hstep (hQ i a s hq)
    · exact ih ⟨o, ho, hq⟩

/-- When related states stay related and give the same outputs at every step, so do whole runs. -/
theorem run_simulates {step : ι → σ → ο × σ} {step' : ι → τ → ο × τ} {R : σ → τ → Prop}
    (hstep : ∀ i s t, R s t → (step i s).1 = (step' i t).1 ∧ R (step i s).2 (step' i t).2)
    {is : List ι} {s : σ} {t : τ} (hst : R s t) :
    (run step is s).1 = (run step' is t).1 ∧ R (run step is s).2 (run step' is t).2 := by
  induction is generalizing s t with
  | nil => exact ⟨rfl, hst⟩
  | cons i is ih =>
    obtain ⟨hout, hnext⟩ := hstep i s t hst
    obtain ⟨houts, hend⟩ := ih hnext
    exact ⟨by rw [run_cons_fst, run_cons_fst, hout, houts], hend⟩

/-- The same for the inputs of one run, and for outputs that are looked at through `f`. -/
theorem run_simulates_on {ω : Type*} {step : ι → σ → ο × σ} {step' : ι → τ → ω × τ}
    {R : σ → τ → Prop} {f : ο → ω} {is : List ι}
    (hstep : ∀ i ∈ is, ∀ s t, R s t → f (step i s).1 = (step' i t).1 ∧ R (step i s).2 (step' i t).2)
    {s : σ} {t : τ} (hst : R s t) :
    (run step is s).1.map f = (run step' is t).1 ∧ R (run step is s).2 (run step' is t).2 := by
  induction is generalizing s t with
  | nil => exact ⟨rfl, hst⟩
  | cons i is ih =>
    rw [List.forall_mem_cons] at hstep
    obtain ⟨hout, hnext⟩ := hstep.1 s t hst
    obtain ⟨houts, hend⟩ := ih hstep.2 hnext
    exact ⟨by rw [run_cons_fst, run_cons_fst, List.map_cons, hout, houts], hend⟩

end Machine
