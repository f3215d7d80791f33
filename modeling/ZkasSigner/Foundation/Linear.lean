import Mathlib.Data.List.GetD
import Mathlib.Data.List.Range
import Mathlib.Logic.Function.Basic
import Mathlib.Order.Nat

/-! A memory of numbered bytes, of which an allocator gives out blocks. The memory may grow, and what
was open on the memory before it grew reaches nothing any more. -/
namespace Foundation

structure Linear where
  bytes : ℕ → UInt8
  size : ℕ
  generation : ℕ
  blocks : ℕ → Option ℕ

namespace Linear
variable {m : Linear} {p q n i : ℕ} {b : UInt8}

def slice (m : Linear) (p n : ℕ) : List UInt8 := (List.range n).map fun i => m.bytes (p+i)

def store (m : Linear) (p : ℕ) (b : UInt8) : Linear := { m with bytes := Function.update m.bytes p b }

def write (m : Linear) (p : ℕ) : List UInt8 → Linear
  | [] => m
  | b::bytes => (m.store p b).write (p+1) bytes

/-- The blocks lie in memory, and apart from each other. -/
structure Sound (m : Linear) : Prop where
  inside : ∀ {p n}, m.blocks p = some n → 0 < n ∧ p+n ≤ m.size
  apart : ∀ {p n q k}, m.blocks p = some n → m.blocks q = some k → p ≠ q → p+n ≤ q ∨ q+k ≤ p

/-- What stands in the block at an address. -/
def content (m : Linear) (p : ℕ) : Option (List UInt8) := (m.blocks p).map (m.slice p)

@[simp] theorem slice_length (m : Linear) (p n : ℕ) : (m.slice p n).length = n := by simp [slice]

theorem getElem?_slice (m : Linear) (p n i : ℕ) : (m.slice p n)[i]? = if i < n then some (m.bytes (p+i)) else none := by
  rw [slice,List.getElem?_map]
  split
  · rename_i h
    rw [List.getElem?_range h]
    rfl
  · rw [List.getElem?_eq_none (by simp; omega)]
    rfl

theorem content_eq_some {l : List UInt8} : m.content p = some l ↔ m.blocks p = some l.length ∧ m.slice p l.length = l := by
  rw [content,Option.map_eq_some_iff]
  constructor
  · rintro ⟨n,hblock,rfl⟩
    rw [slice_length]
    exact ⟨hblock,rfl⟩
  · rintro ⟨hblock,hslice⟩
    exact ⟨l.length,hblock,hslice⟩

theorem content_eq_none : m.content p = none ↔ m.blocks p = none := Option.map_eq_none_iff

@[simp] theorem store_bytes (m : Linear) (p : ℕ) (b : UInt8) : (m.store p b).bytes = Function.update m.bytes p b := rfl

@[simp] theorem store_blocks (m : Linear) (p : ℕ) (b : UInt8) : (m.store p b).blocks = m.blocks := rfl

theorem Sound.store (h : m.Sound) (p : ℕ) (b : UInt8) : (m.store p b).Sound := ⟨h.inside,h.apart⟩

theorem slice_store_of_outside (h : i < p ∨ p+n ≤ i) : (m.store i b).slice p n = m.slice p n := by
  refine List.ext_getElem? fun k => ?_
  rw [getElem?_slice,getElem?_slice]
  split
  · rw [store_bytes,Function.update_of_ne (by omega)]
  · rfl

/-- A byte that is stored in a block is in this block, and in no other. -/
theorem Sound.content_store (h : m.Sound) {front rest : List UInt8} {old : UInt8}
    (hp : m.content p = some (front ++ old::rest)) : (m.store (p+front.length) b).content =
      Function.update m.content p (some (front ++ b::rest)) := by
  obtain ⟨hblock,hslice⟩ := content_eq_some.mp hp
  have hlength : (front ++ b::rest).length = (front ++ old::rest).length := by simp
  have hinside : front.length < (front ++ old::rest).length := by simp
  funext q
  rcases eq_or_ne q p with rfl | hq
  · rw [Function.update_self,content_eq_some,hlength]
    refine ⟨hblock,List.ext_getElem? fun k => ?_⟩
    have hold := congrArg (·[k]?) hslice
    simp only [getElem?_slice] at hold
    rw [getElem?_slice,store_bytes]
    rcases lt_trichotomy k front.length with hk | rfl | hk
    · rw [List.getElem?_append_left hk] at hold ⊢
      rw [Function.update_of_ne (by omega),hold]
    · rw [Function.update_self,if_pos hinside]
      simp
    · rw [List.getElem?_append_right hk.le] at hold ⊢
      obtain ⟨j,hj⟩ : ∃ j, k-front.length = j+1 := ⟨k-front.length-1,by omega⟩
      rw [hj,List.getElem?_cons_succ] at hold ⊢
      rw [Function.update_of_ne (by omega),hold]
  · rw [Function.update_of_ne hq,content,content,store_blocks]
    cases hblock' : m.blocks q with
    | none => rfl
    | some n =>
      have hapart := h.apart hblock' hblock hq
      rw [Option.map_some,Option.map_some,slice_store_of_outside (by omega)]

theorem Sound.write (h : m.Sound) (p : ℕ) (bytes : List UInt8) : (m.write p bytes).Sound := by
  induction bytes generalizing m p with
  | nil => exact h
  | cons b bytes ih => exact ih (h.store p b) (p+1)

theorem Sound.content_write (h : m.Sound) {front old rest bytes : List UInt8} (hlength : old.length = bytes.length)
    (hp : m.content p = some (front ++ (old ++ rest))) : (m.write (p+front.length) bytes).content =
      Function.update m.content p (some (front ++ (bytes ++ rest))) := by
  induction bytes generalizing m front old with
  | nil =>
    rw [List.length_eq_zero_iff.mp hlength] at hp
    exact (Function.update_eq_self_iff.mpr hp.symm).symm
  | cons b bytes ih =>
    obtain ⟨a,old,rfl⟩ := List.exists_cons_of_length_eq_add_one hlength
    have hstore := h.content_store (b := b) hp
    have hself : (m.store (p+front.length) b).content p = some ((front ++ [b]) ++ (old ++ rest)) := by
      rw [hstore,Function.update_self]
      simp
    have hrest := ih (h.store (p+front.length) b) (Nat.succ.inj hlength) hself
    rw [List.length_append,List.length_singleton,← Nat.add_assoc] at hrest
    rw [Linear.write,hrest,hstore,Function.update_idem]
    simp

end Linear

/-! ### Allocators -/

/-- `malloc` and `realloc` may find no room. -/
structure Allocator where
  malloc : Linear → ℕ → Option (ℕ × Linear)
  realloc : Linear → ℕ → ℕ → ℕ → Option (ℕ × Linear)
  free : Linear → ℕ → ℕ → Linear

/-- Nothing is given out for a size of zero, and what is given out is not in use. A block that is
moved keeps what it has room for, and the other blocks keep what they hold. -/
structure Allocator.Documented (A : Allocator) : Prop where
  malloc_zero : ∀ {m p m'}, m.Sound → A.malloc m 0 = some (p,m') → m'.Sound ∧ m'.content = m.content
  malloc : ∀ {m n p m'}, m.Sound → 0 < n → A.malloc m n = some (p,m') → m'.Sound ∧ m.content p = none ∧
    ∃ l, l.length = n ∧ m'.content = Function.update m.content p (some l)
  realloc : ∀ {m p l n q m'}, m.Sound → m.content p = some l → 0 < n → A.realloc m p l.length n = some (q,m') →
    m'.Sound ∧ (q = p ∨ m.content q = none) ∧ ∃ l', l'.length = n ∧ l'.take l.length = l.take n ∧
      m'.content = Function.update (Function.update m.content p none) q (some l')
  free_zero : ∀ m p, A.free m p 0 = m
  free : ∀ {m p l}, m.Sound → m.content p = some l → (A.free m p l.length).Sound ∧
    (A.free m p l.length).content = Function.update m.content p none

/-! ### An allocator that never uses memory twice -/

namespace Linear
variable {m : Linear} {p n : ℕ}

/-- The memory with one block more, behind all that was there. -/
def grow (m : Linear) (n : ℕ) : Linear where
  bytes := m.bytes
  size := m.size+n
  generation := m.generation+1
  blocks := Function.update m.blocks m.size (some n)

def release (m : Linear) (p : ℕ) : Linear := { m with blocks := Function.update m.blocks p none }

theorem Sound.lt_size (h : m.Sound) (hp : m.blocks p = some n) : p < m.size := by
  obtain ⟨hpos,hinside⟩ := h.inside hp
  omega

theorem Sound.fresh (h : m.Sound) : m.blocks m.size = none := by
  cases hblock : m.blocks m.size with
  | none => rfl
  | some n => exact absurd (h.lt_size hblock) (lt_irrefl _)

theorem Sound.grow (h : m.Sound) (hn : 0 < n) : (m.grow n).Sound where
  inside {p k} hp := by
    change Function.update m.blocks m.size (some n) p = some k at hp
    change 0 < k ∧ p+k ≤ m.size+n
    rcases eq_or_ne p m.size with rfl | hne
    · rw [Function.update_self,Option.some.injEq] at hp
      omega
    · rw [Function.update_of_ne hne] at hp
      have hinside := h.inside hp
      omega
  apart {p k q j} hp hq hne := by
    change Function.update m.blocks m.size (some n) p = some k at hp
    change Function.update m.blocks m.size (some n) q = some j at hq
    rcases eq_or_ne p m.size with rfl | hp'
    · rw [Function.update_of_ne hne.symm] at hq
      have hinside := h.inside hq
      omega
    rw [Function.update_of_ne hp'] at hp
    rcases eq_or_ne q m.size with rfl | hq'
    · have hinside := h.inside hp
      omega
    · rw [Function.update_of_ne hq'] at hq
      exact h.apart hp hq hne

theorem content_update {m' : Linear} {o : Option ℕ} (hbytes : m'.bytes = m.bytes)
    (hblocks : m'.blocks = Function.update m.blocks p o) : m'.content = Function.update m.content p (o.map (m.slice p)) := by
  have hslice : m'.slice = m.slice := by
    funext q n
    rw [slice,slice,hbytes]
  funext q
  rw [content,hblocks,hslice]
  rcases eq_or_ne q p with rfl | hne
  · rw [Function.update_self,Function.update_self]
  · rw [Function.update_of_ne hne,Function.update_of_ne hne,content]

theorem content_grow (m : Linear) (n : ℕ) : (m.grow n).content =
    Function.update m.content m.size (some (m.slice m.size n)) :=
  content_update (m := m) (o := some n) rfl rfl

theorem Sound.release (h : m.Sound) (p : ℕ) : (m.release p).Sound := by
  have hkept : ∀ {q k}, (m.release p).blocks q = some k → m.blocks q = some k := by
    intro q k hq
    change Function.update m.blocks p none q = some k at hq
    rcases eq_or_ne q p with rfl | hne
    · rw [Function.update_self] at hq
      cases hq
    · rwa [Function.update_of_ne hne] at hq
  exact ⟨fun hq => h.inside (hkept hq),fun hq hk => h.apart (hkept hq) (hkept hk)⟩

theorem content_release (m : Linear) (p : ℕ) : (m.release p).content = Function.update m.content p none :=
  content_update (m := m) (o := none) rfl rfl

end Linear

namespace Allocator

def bump : Allocator where
  malloc m n := if n = 0 then some (0,m) else some (m.size,m.grow n)
  realloc m p old n := some (m.size,((m.grow n).write m.size ((m.slice p old).take n)).release p)
  free m p n := if n = 0 then m else m.release p

theorem bump_documented : bump.Documented where
  malloc_zero {m p m'} h halloc := by
    cases halloc
    exact ⟨h,rfl⟩
  malloc {m n p m'} h hn halloc := by
    have hgrown : some (m.size,m.grow n) = some (p,m') := by
      rw [← halloc]
      exact (if_neg hn.ne').symm
    cases hgrown
    exact ⟨h.grow hn,Linear.content_eq_none.mpr h.fresh,_,Linear.slice_length m m.size n,Linear.content_grow m n⟩
  realloc {m p l n q m'} h hl hn halloc := by
    cases halloc
    obtain ⟨hblock,hslice⟩ := Linear.content_eq_some.mp hl
    have hne : p ≠ m.size := (h.lt_size hblock).ne
    have hcell : (m.grow n).content m.size = some ([] ++ ((m.slice m.size n).take (l.take n).length ++
        (m.slice m.size n).drop (l.take n).length)) := by
      rw [List.take_append_drop,Linear.content_grow,Function.update_self]
      rfl
    have hroom : ((m.slice m.size n).take (l.take n).length).length = (l.take n).length := by
      rw [List.length_take,Linear.slice_length,List.length_take]
      omega
    have hwritten := (h.grow hn).content_write hroom hcell
    rw [List.length_nil,Nat.add_zero,Linear.content_grow,Function.update_idem,List.nil_append] at hwritten
    rw [hslice]
    refine ⟨((h.grow hn).write _ _).release p,.inr (Linear.content_eq_none.mpr h.fresh),
      l.take n ++ (m.slice m.size n).drop (l.take n).length,?_,?_,?_⟩
    · rw [List.length_append,List.length_drop,Linear.slice_length,List.length_take]
      omega
    · rcases le_total n l.length with hle | hle
      · rw [List.length_take_of_le hle,List.drop_of_length_le (Linear.slice_length ..).le,List.append_nil]
        exact List.take_of_length_le (by rw [List.length_take_of_le hle]; exact hle)
      · rw [List.take_of_length_le hle,List.take_left]
    · rw [Linear.content_release,hwritten,Function.update_comm hne.symm]
  free_zero _ _ := rfl
  free {m p l} h hl := by
    obtain ⟨hblock,_⟩ := Linear.content_eq_some.mp hl
    have hne : l.length ≠ 0 := (h.inside hblock).1.ne'
    have hfree : bump.free m p l.length = m.release p := if_neg hne
    rw [hfree]
    exact ⟨h.release p,Linear.content_release m p⟩

end Allocator
end Foundation
