import Mathlib.Data.Nat.Notation
import Mathlib.Logic.Basic
import Mathlib.Logic.Function.Basic

/-!
# Packet filters

Chains of rules, of which the first that applies to a packet decides, over a policy for the packets
that no rule applies to. A filter has many chains, and is built by commands that each change one. If
every command adds an accepting rule or sets the policy to drop, the order of the rules is of no
matter: a packet is accepted if some rule applies to it, or if the policy still accepts
(`decide_run_eq_accept_iff`).

The invariant of a chain is that all its rules accept (`Chain.Accepting`); under it the first rule
that applies is as good as any other. One edit keeps it (`Edit.Allows.accepting`), adds the packets
that it opens to those that some rule applies to (`Edit.any_apply`), and leaves the policy or shuts
it (`Edit.Allows.policy_apply`). The rule for runs is the induction on the commands with these.
-/

namespace PacketFilter

/-- What becomes of a packet. -/
inductive Verdict
  | accept
  | drop
deriving DecidableEq

/-- A rule: the packets that it applies to, and what becomes of them. -/
structure Rule (P : Type*) where
  applies : P → Bool
  verdict : Verdict

/-- A chain: its rules in order, and what becomes of a packet to which none applies. -/
structure Chain (P : Type*) where
  rules : List (Rule P)
  policy : Verdict

/-- A change of a chain. -/
inductive Edit (P : Type*)
  | policy (verdict : Verdict)
  /-- Behind the other rules. -/
  | append (rule : Rule P)
  /-- Before the other rules. -/
  | insert (rule : Rule P)

/-- A change of one chain of a filter. -/
structure Command (κ P : Type*) where
  chain : κ
  edit : Edit P

variable {κ P : Type*}

/-- The first rule that applies decides. -/
def Chain.decide (c : Chain P) (p : P) : Verdict :=
  match c.rules.find? (·.applies p) with
  | some rule => rule.verdict
  | none => c.policy

/-- The chain after an edit. -/
def Edit.apply : Edit P → Chain P → Chain P
  | .policy verdict, c => { c with policy := verdict }
  | .append rule, c => { c with rules := c.rules ++ [rule] }
  | .insert rule, c => { c with rules := rule :: c.rules }

/-- The change adds a rule that applies to the packet. -/
def Edit.opens (p : P) : Edit P → Bool
  | .policy _ => false
  | .append rule => rule.applies p
  | .insert rule => rule.applies p

/-- The change sets a policy. -/
def Edit.shuts : Edit P → Bool
  | .policy _ => true
  | .append _ => false
  | .insert _ => false

/-- The change belongs to a list of what is allowed: it adds an accepting rule, or it drops what no
rule applies to. -/
def Edit.Allows : Edit P → Prop
  | .policy verdict => verdict = .drop
  | .append rule => rule.verdict = .accept
  | .insert rule => rule.verdict = .accept

/-- All the rules accept. -/
def Chain.Accepting (c : Chain P) : Prop := ∀ rule ∈ c.rules, rule.verdict = .accept

/-- Where all the rules accept, their order is of no matter. -/
theorem Chain.Accepting.decide_eq_accept_iff {c : Chain P} (h : c.Accepting) (p : P) :
    c.decide p = .accept ↔ c.rules.any (·.applies p) = true ∨ c.policy = .accept := by
  rcases hfind : c.rules.find? (·.applies p) with _ | rule
  · have hnone : c.rules.any (·.applies p) = false := by
      simpa [List.find?_eq_none] using hfind
    simp only [Chain.decide, hfind, hnone, Bool.false_eq_true, false_or]
  · have hmem : rule ∈ c.rules := List.mem_of_find?_eq_some hfind
    have happlies : rule.applies p = true := by simpa using List.find?_some hfind
    have hany : c.rules.any (·.applies p) = true := List.any_eq_true.mpr ⟨rule, hmem, happlies⟩
    have hdecide : c.decide p = rule.verdict := by simp only [Chain.decide, hfind]
    exact iff_of_true (hdecide.trans (h rule hmem)) (.inl hany)

/-- An edit that allows keeps the rules of a chain accepting. -/
theorem Edit.Allows.accepting {e : Edit P} (he : e.Allows) {c : Chain P} (h : c.Accepting) :
    (e.apply c).Accepting := by
  cases e with
  | policy verdict => exact h
  | append rule =>
    intro r hr
    rcases List.mem_append.mp hr with hr | hr
    · exact h r hr
    · exact List.mem_singleton.mp hr ▸ he
  | insert rule =>
    intro r hr
    rcases List.mem_cons.mp hr with rfl | hr
    · exact he
    · exact h r hr

/-- An edit opens the packets of the rule that it inserts. -/
theorem Edit.any_apply (e : Edit P) (c : Chain P) (p : P) :
    (e.apply c).rules.any (·.applies p) = (e.opens p || c.rules.any (·.applies p)) := by
  cases e with
  | policy verdict => rfl
  | append rule => simp [Edit.apply, Edit.opens, Bool.or_comm]
  | insert rule => rfl

/-- The policy after an edit that allows. -/
theorem Edit.Allows.policy_apply {e : Edit P} (he : e.Allows) (c : Chain P) :
    (e.apply c).policy = if e.shuts then .drop else c.policy := by
  cases e with
  | policy verdict => exact he
  | append rule => rfl
  | insert rule => rfl

section

variable [DecidableEq κ]

/-- A filter after a row of commands. -/
def run (commands : List (Command κ P)) (filter : κ → Chain P) : κ → Chain P :=
  commands.foldl (fun filter c => Function.update filter c.chain (c.edit.apply (filter c.chain)))
    filter

/-- A command changes its own chain. -/
theorem run_cons (c : Command κ P) (commands : List (Command κ P)) (filter : κ → Chain P) :
    run (c :: commands) filter =
      run commands (Function.update filter c.chain (c.edit.apply (filter c.chain))) := rfl

/-- **What a row of allowing commands accepts.** -/
theorem decide_run_eq_accept_iff {commands : List (Command κ P)} {filter : κ → Chain P} {k : κ}
    (hcommands : ∀ c ∈ commands, c.edit.Allows) (hfilter : (filter k).Accepting) (p : P) :
    (run commands filter k).decide p = .accept ↔
      (∃ c ∈ commands, c.chain = k ∧ c.edit.opens p = true) ∨
        (filter k).rules.any (·.applies p) = true ∨
          (filter k).policy = .accept ∧ ∀ c ∈ commands, c.chain = k → c.edit.shuts = false := by
  induction commands generalizing filter with
  | nil => simpa [run] using hfilter.decide_eq_accept_iff p
  | cons c commands ih =>
    have hc : c.edit.Allows := hcommands c List.mem_cons_self
    have hrest : ∀ x ∈ commands, x.edit.Allows := fun x hx =>
      hcommands x (List.mem_cons_of_mem c hx)
    rw [run_cons]
    rcases eq_or_ne c.chain k with rfl | hk
    · rw [ih hrest (by rw [Function.update_self]; exact hc.accepting hfilter),
        Function.update_self, c.edit.any_apply, hc.policy_apply]
      cases hshuts : c.edit.shuts <;> simp [hshuts, or_assoc, or_left_comm]
    · rw [ih hrest (by rwa [Function.update_of_ne hk.symm]), Function.update_of_ne hk.symm]
      simp [hk]

end

end PacketFilter
