import Mathlib.Data.List.Nodup
import Mathlib.Logic.Function.Basic
import Mathlib.Order.Nat

/-! Cells that are given out and given back. Where a new one stands is the allocator's choice among the
addresses that are not in use, so that an address may come again. -/
namespace Foundation

/-- The cells in use, and the allocator's choices for those to come. No cell is at the null address, and none
from the bound on. -/
structure Heap (α : Type) where
  cells : ℕ → Option α
  choices : ℕ → ℕ
  bound : ℕ
  null : cells 0 = none
  beyond : ∀ p, bound ≤ p → cells p = none

namespace Heap
variable {α : Type}

def empty (choices : ℕ → ℕ) : Heap α := ⟨fun _ => none,choices,0,rfl,fun _ _ => rfl⟩

/-- The address of the next cell. A choice that is null or in use is passed over for one beyond all cells. -/
def next (h : Heap α) : ℕ :=
  if h.choices 0 ≠ 0 ∧ (h.cells (h.choices 0)).isNone = true then h.choices 0 else h.bound+1

theorem next_ne_zero (h : Heap α) : h.next ≠ 0 := by
  rw [next]
  split_ifs with hchoice
  · exact hchoice.1
  · exact Nat.succ_ne_zero _

theorem next_unused (h : Heap α) : h.cells h.next = none := by
  rw [next]
  split_ifs with hchoice
  · exact Option.isNone_iff_eq_none.mp hchoice.2
  · exact h.beyond _ (Nat.le_succ _)

/-- A new cell. -/
def alloc (h : Heap α) (a : α) : Heap α where
  cells := Function.update h.cells h.next (some a)
  choices n := h.choices (n+1)
  bound := max h.bound (h.next+1)
  null := by
    rw [Function.update_of_ne h.next_ne_zero.symm]
    exact h.null
  beyond p hp := by
    rw [Function.update_of_ne (by omega)]
    exact h.beyond p (by omega)

/-- A cell that is in use gets a new content, or is given back. -/
def put (h : Heap α) (p : ℕ) (o : Option α) (hp : (h.cells p).isSome = true) : Heap α where
  cells := Function.update h.cells p o
  choices := h.choices
  bound := h.bound
  null := by
    rw [Function.update_of_ne]
    · exact h.null
    · rintro rfl
      rw [h.null] at hp
      cases hp
  beyond q hq := by
    rw [Function.update_of_ne]
    · exact h.beyond q hq
    · rintro rfl
      rw [h.beyond q hq] at hp
      cases hp

theorem alloc_cells (h : Heap α) (a : α) : (h.alloc a).cells = Function.update h.cells h.next (some a) := rfl

@[simp] theorem put_cells (h : Heap α) (p : ℕ) (o : Option α) (hp : (h.cells p).isSome = true) :
    (h.put p o hp).cells = Function.update h.cells p o := rfl

theorem ne_zero {h : Heap α} {p : ℕ} {a : α} (hp : h.cells p = some a) : p ≠ 0 := by
  rintro rfl
  cases h.null.symm.trans hp

theorem alloc_self (h : Heap α) (a : α) : (h.alloc a).cells h.next = some a := Function.update_self ..

/-- Besides the cells of `base` these are in use, in the order they were given out, and no others. -/
structure Holds (base : Heap α) (held : List (ℕ × α)) (h : Heap α) : Prop where
  apart : (held.map Prod.fst).Nodup
  unused : ∀ c ∈ held, base.cells c.1 = none
  contents : ∀ c ∈ held, h.cells c.1 = some c.2
  others : ∀ p, p ∉ held.map Prod.fst → h.cells p = base.cells p

theorem holds_self (base : Heap α) : base.Holds [] base where
  apart := List.nodup_nil
  unused := by rintro _ ⟨⟩
  contents := by rintro _ ⟨⟩
  others _ _ := rfl

variable {base h : Heap α} {held : List (ℕ × α)} {p : ℕ} {a : α}

theorem Holds.next_not_mem (hh : base.Holds held h) : h.next ∉ held.map Prod.fst := by
  intro hmem
  obtain ⟨c,hc,heq⟩ := List.mem_map.mp hmem
  have hcontent := hh.contents c hc
  rw [heq,h.next_unused] at hcontent
  cases hcontent

theorem Holds.alloc (hh : base.Holds held h) (a : α) : base.Holds (held ++ [(h.next,a)]) (h.alloc a) where
  apart := by
    rw [List.map_append]
    refine List.nodup_append.mpr ⟨hh.apart,List.nodup_singleton _,fun p hp q hq => ?_⟩
    rw [List.mem_singleton.mp hq]
    rintro rfl
    exact hh.next_not_mem hp
  unused c hc := by
    rcases List.mem_append.mp hc with hc | hc
    · exact hh.unused c hc
    · rw [List.mem_singleton.mp hc,← hh.others _ hh.next_not_mem]
      exact h.next_unused
  contents c hc := by
    rcases List.mem_append.mp hc with hc | hc
    · rw [alloc_cells,Function.update_of_ne]
      · exact hh.contents c hc
      · intro heq
        exact hh.next_not_mem (heq ▸ List.mem_map_of_mem hc)
    · rw [List.mem_singleton.mp hc]
      exact h.alloc_self a
  others p hp := by
    rw [List.map_append,List.mem_append,not_or] at hp
    rw [alloc_cells,Function.update_of_ne]
    · exact hh.others p hp.1
    · rintro rfl
      exact hp.2 (List.mem_singleton.mpr rfl)

theorem Holds.head (hh : base.Holds ((p,a)::held) h) : h.cells p = some a := hh.contents _ List.mem_cons_self

/-- The first of the cells is given back. -/
theorem Holds.free (hh : base.Holds ((p,a)::held) h) (hp : (h.cells p).isSome = true) : base.Holds held (h.put p none hp) where
  apart := (List.nodup_cons.mp hh.apart).2
  unused c hc := hh.unused c (List.mem_cons_of_mem _ hc)
  contents c hc := by
    rw [put_cells,Function.update_of_ne]
    · exact hh.contents c (List.mem_cons_of_mem _ hc)
    · rintro rfl
      exact (List.nodup_cons.mp hh.apart).1 (List.mem_map.mpr ⟨c,hc,rfl⟩)
  others q hq := by
    rcases eq_or_ne q p with rfl | hne
    · rw [put_cells,Function.update_self]
      exact (hh.unused _ List.mem_cons_self).symm
    · rw [put_cells,Function.update_of_ne hne]
      refine hh.others q fun hmem => ?_
      rcases List.mem_cons.mp hmem with heq | hmem
      · exact hne heq
      · exact hq hmem

/-- With nothing left of them, the cells are those of `base`. -/
theorem Holds.restored (hh : base.Holds [] h) : h.cells = base.cells :=
  funext fun p => hh.others p (List.not_mem_nil)

end Heap
end Foundation
