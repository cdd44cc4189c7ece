import Mathlib.Data.Finset.Card

/-!
# Ledgers of pools

A program allocates pools, and frees them through pointers. The ledger is the account that the
firmware keeps: the pools that are live, and how many pointers it was given to free that are not the
start of a live pool. What a program does to its ledger is `Holds`: which of its pools it still
holds, how many it has lost, and how many frees were refused. The rules for one call after another
are those of `Holds`; a program that ends holds nothing, and what it leaves behind is lost.
-/

/-- A pointer into a pool. -/
structure Ptr where
  pool : ℕ
  offset : ℕ
deriving DecidableEq

/-- The pointer further into its pool. -/
def Ptr.advance (p : Ptr) (n : ℕ) : Ptr := { p with offset := p.offset + n }

/-- The account of the pools. -/
structure Ledger where
  live : Finset ℕ
  /-- The pool that is allocated next. -/
  next : ℕ
  /-- The frees of something else than a live pool. -/
  refused : ℕ
  fresh : ∀ pool ∈ live, pool < next

namespace Ledger

/-- The account before anything is allocated. -/
def empty : Ledger where
  live := ∅
  next := 0
  refused := 0
  fresh _ h := absurd h (Finset.notMem_empty _)

/-- The start of a pool. -/
def start (pool : ℕ) : Ptr := ⟨pool, 0⟩

/-- The pool that was allocated, and the account then. -/
def alloc (l : Ledger) : Ptr × Ledger :=
  (start l.next,
    { l with
      live := insert l.next l.live
      next := l.next + 1
      fresh := by
        intro pool hpool
        rcases Finset.mem_insert.mp hpool with rfl | hlive
        · exact Nat.lt_succ_self _
        · exact Nat.lt_succ_of_lt (l.fresh pool hlive) })

/-- The account after a free through a pointer, which may be null. -/
def free (l : Ledger) (p : Option Ptr) : Ledger :=
  match p with
  | none => { l with refused := l.refused + 1 }
  | some p =>
    if p.offset = 0 ∧ p.pool ∈ l.live then
      { l with
        live := l.live.erase p.pool
        fresh := fun pool hpool => l.fresh pool (Finset.mem_of_mem_erase hpool) }
    else { l with refused := l.refused + 1 }

/-- The account after frees of pools, one after the other. -/
def frees (l : Ledger) (pools : List ℕ) : Ledger :=
  pools.foldl (fun l pool => l.free (some (start pool))) l

/-- The pools that a free through a pointer `n` bytes into its pool fails to free. -/
def misses (n : ℕ) : ℕ := if n = 0 then 0 else 1

/-- From the account `l`, a program came to `l'`: it holds the pools `held`, has lost `lost` others,
and `refused` of its frees were refused. -/
structure Holds (l l' : Ledger) (held : Finset ℕ) (lost refused : ℕ) : Prop where
  old_live : l.live ⊆ l'.live
  held_live : held ⊆ l'.live
  held_new : Disjoint l.live held
  card_eq : l'.live.card = l.live.card + held.card + lost
  refused_eq : l'.refused = l.refused + refused

namespace Holds

variable {l l' l'' : Ledger} {held : Finset ℕ} {lost refused : ℕ}

/-- Before its first call, a program holds nothing. -/
theorem refl (l : Ledger) : Holds l l ∅ 0 0 where
  old_live := Finset.Subset.refl _
  held_live := Finset.empty_subset _
  held_new := Finset.disjoint_empty_right _
  card_eq := by simp
  refused_eq := rfl

/-- A program that was called leaves its caller the pools that it held, and what it loses is lost
to its caller too. -/
theorem trans {lost' refused' : ℕ} (h : Holds l l' held lost refused)
    (hcall : Holds l' l'' ∅ lost' refused') :
    Holds l l'' held (lost + lost') (refused + refused') where
  old_live := h.old_live.trans hcall.old_live
  held_live := h.held_live.trans hcall.old_live
  held_new := h.held_new
  card_eq := by rw [hcall.card_eq, h.card_eq, Finset.card_empty]; omega
  refused_eq := by rw [hcall.refused_eq, h.refused_eq, Nat.add_assoc]

/-- What a call leaves its caller, who held nothing before it. -/
theorem call {lost' refused' : ℕ} (h : Holds l l' ∅ lost refused)
    (hcall : Holds l' l'' held lost' refused') :
    Holds l l'' held (lost + lost') (refused + refused') where
  old_live := h.old_live.trans hcall.old_live
  held_live := hcall.held_live
  held_new := hcall.held_new.mono_left h.old_live
  card_eq := by rw [hcall.card_eq, h.card_eq, Finset.card_empty]; omega
  refused_eq := by rw [hcall.refused_eq, h.refused_eq, Nat.add_assoc]

/-- The pool that is allocated next is not held. -/
theorem next_notMem (h : Holds l l' held lost refused) : l'.next ∉ held := fun hheld =>
  Nat.lt_irrefl _ (l'.fresh _ (h.held_live hheld))

/-- A pool that is allocated is held. -/
theorem alloc (h : Holds l l' held lost refused) :
    Holds l l'.alloc.2 (insert l'.next held) lost refused where
  old_live := h.old_live.trans (Finset.subset_insert _ _)
  held_live := Finset.insert_subset_insert _ h.held_live
  held_new := by
    rw [Finset.disjoint_insert_right]
    exact ⟨fun hlive => Nat.lt_irrefl _ (l'.fresh _ (h.old_live hlive)), h.held_new⟩
  card_eq := by
    have hlive : l'.next ∉ l'.live := fun hlive => Nat.lt_irrefl _ (l'.fresh _ hlive)
    rw [Ledger.alloc, Finset.card_insert_of_notMem hlive,
      Finset.card_insert_of_notMem h.next_notMem, h.card_eq]
    omega
  refused_eq := h.refused_eq

/-- A pool that is held is freed through its start. -/
theorem free {pool : ℕ} (h : Holds l l' held lost refused) (hpool : pool ∈ held) :
    Holds l (l'.free (some (start pool))) (held.erase pool) lost refused := by
  have hlive : pool ∈ l'.live := h.held_live hpool
  have hold : pool ∉ l.live := fun hold => Finset.disjoint_left.mp h.held_new hold hpool
  rw [Ledger.free, if_pos ⟨rfl, hlive⟩]
  exact {
    old_live := (Finset.subset_erase).mpr ⟨h.old_live, hold⟩
    held_live := Finset.erase_subset_erase _ h.held_live
    held_new := h.held_new.mono_right (Finset.erase_subset _ _)
    card_eq := by
      have hpos : 0 < held.card := Finset.card_pos.mpr ⟨pool, hpool⟩
      have hcard := h.card_eq
      change (l'.live.erase pool).card = _
      rw [Finset.card_erase_of_mem hlive, Finset.card_erase_of_mem hpool]
      omega
    refused_eq := h.refused_eq }

/-- A free of something else than the start of a pool is refused. -/
theorem free_refused {p : Option Ptr} (h : Holds l l' held lost refused)
    (hp : ∀ q, p = some q → q.offset ≠ 0) : Holds l (l'.free p) held lost (refused + 1) := by
  have hfree : l'.free p = { l' with refused := l'.refused + 1 } := by
    cases p with
    | none => rfl
    | some q => exact if_neg fun hq => hp q rfl hq.1
  rw [hfree]
  exact { h with refused_eq := by rw [h.refused_eq, Nat.add_assoc] }

/-- A pool that is held and never freed is lost. -/
theorem lose {pool : ℕ} (h : Holds l l' held lost refused) (hpool : pool ∈ held) :
    Holds l l' (held.erase pool) (lost + 1) refused where
  old_live := h.old_live
  held_live := (Finset.erase_subset _ _).trans h.held_live
  held_new := h.held_new.mono_right (Finset.erase_subset _ _)
  card_eq := by
    have hpos : 0 < held.card := Finset.card_pos.mpr ⟨pool, hpool⟩
    have hcard := h.card_eq
    rw [Finset.card_erase_of_mem hpool]
    omega
  refused_eq := h.refused_eq

/-- A pool that is allocated and never freed is lost. -/
theorem alloc_lose (h : Holds l l' held lost refused) :
    Holds l l'.alloc.2 held (lost + 1) refused := by
  have hlost := h.alloc.lose (Finset.mem_insert_self _ _)
  rwa [Finset.erase_insert h.next_notMem] at hlost

/-- A pool is freed through a pointer `n` bytes into it when `n` is 0; else the free is refused, and
the pool is lost. -/
theorem free_advance {pool : ℕ} (h : Holds l l' held lost refused) (hpool : pool ∈ held) (n : ℕ) :
    Holds l (l'.free (some ((start pool).advance n))) (held.erase pool) (lost + misses n)
      (refused + misses n) := by
  rcases Nat.eq_zero_or_pos n with rfl | hn
  · exact h.free hpool
  · have hne : n ≠ 0 := Nat.pos_iff_ne_zero.mp hn
    have hoffset : ((start pool).advance n).offset ≠ 0 := by simpa [Ptr.advance, start] using hne
    rw [misses, if_neg hne]
    exact (h.free_refused fun q hq => Option.some.inj hq ▸ hoffset).lose hpool

/-- Pools that are held are freed one after the other. -/
theorem frees (pools : List ℕ) (h : Holds l l' held lost refused) (hnodup : pools.Nodup)
    (hpools : ∀ pool ∈ pools, pool ∈ held) :
    Holds l (l'.frees pools) (held \ pools.toFinset) lost refused := by
  induction pools generalizing l' held with
  | nil =>
    rw [List.toFinset_nil, Finset.sdiff_empty]
    exact h
  | cons pool pools ih =>
    rw [List.nodup_cons] at hnodup
    have hrest : ∀ p ∈ pools, p ∈ held.erase pool := fun p hp =>
      Finset.mem_erase.mpr ⟨fun heq => hnodup.1 (heq ▸ hp), hpools p (List.mem_cons_of_mem _ hp)⟩
    have hfreed := ih (h.free (hpools pool List.mem_cons_self)) hnodup.2 hrest
    rwa [Finset.erase_sdiff_comm, ← Finset.sdiff_insert, ← List.toFinset_cons] at hfreed

/-- A program that frees all the pools that it holds holds none. -/
theorem frees_all (pools : List ℕ) (h : Holds l l' held lost refused) (hnodup : pools.Nodup)
    (hheld : held = pools.toFinset) : Holds l (l'.frees pools) ∅ lost refused := by
  have hfreed := h.frees pools hnodup fun p hp => by rwa [hheld, List.mem_toFinset]
  rwa [hheld, Finset.sdiff_self] at hfreed

end Holds

end Ledger
