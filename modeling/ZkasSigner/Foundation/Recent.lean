import Mathlib.Data.List.DropRight
import Mathlib.Data.List.Induction

/-! A queue of bounded length that drops its oldest entries. What it holds are the last entries of
all that were ever pushed, and leaving some out shows exactly when one of those is left out. -/
namespace Foundation.Recent
variable {α β : Type*}

/-- `while q.len() >= cap` the front is popped. -/
def trim (cap : ℕ) : List α → List α
  | [] => []
  | x::xs => if cap ≤ (x::xs).length then trim cap xs else x::xs

def push (cap : ℕ) (q : List α) (x : α) : List α := trim cap q ++ [x]

theorem trim_succ (n : ℕ) (q : List α) : trim (n+1) q = q.rtake n := by
  induction q with
  | nil => simp [trim]
  | cons x xs ih =>
    rw [trim]
    split_ifs with h
    · rw [List.length_cons] at h
      have hsub : (x::xs).length-n = (xs.length-n)+1 := by
        rw [List.length_cons]
        omega
      rw [ih,List.rtake,List.rtake,hsub,List.drop_succ_cons]
    · rw [List.length_cons] at h
      have hsub : (x::xs).length-n = 0 := by
        rw [List.length_cons]
        omega
      rw [List.rtake,hsub,List.drop_zero]

theorem rtake_rtake (l : List α) (n : ℕ) : (l.rtake (n+1)).rtake n = l.rtake n := by
  rw [List.rtake_eq_reverse_take_reverse,List.rtake_eq_reverse_take_reverse,List.rtake_eq_reverse_take_reverse,
    List.reverse_reverse,List.take_take,Nat.min_eq_left (Nat.le_succ n)]

/-- A push onto the last entries gives the last entries. -/
theorem push_rtake {cap : ℕ} (hcap : 0 < cap) (l : List α) (x : α) :
    push cap (l.rtake cap) x = (l ++ [x]).rtake cap := by
  obtain ⟨n,rfl⟩ := Nat.exists_eq_succ_of_ne_zero hcap.ne'
  rw [push,trim_succ,rtake_rtake,List.rtake_concat_succ]

theorem foldl_push_rtake {cap : ℕ} (hcap : 0 < cap) (l more : List α) :
    more.foldl (push cap) (l.rtake cap) = (l ++ more).rtake cap := by
  induction more generalizing l with
  | nil => rw [List.append_nil,List.foldl_nil]
  | cons x more ih => rw [List.foldl_cons,push_rtake hcap,ih,List.append_assoc,List.singleton_append]

/-- As many entries as the queue has room for leave nothing of what came before them. -/
theorem rtake_append_of_le {l more : List α} {n : ℕ} (h : n ≤ more.length) : (l ++ more).rtake n = more.rtake n := by
  rw [List.rtake,List.rtake,List.length_append,List.drop_append,List.drop_eq_nil_of_le (by omega),List.nil_append]
  congr 1
  omega

theorem rtake_map (f : α → β) (l : List α) (n : ℕ) : (l.map f).rtake n = (l.rtake n).map f := by
  rw [List.rtake,List.rtake,List.map_drop,List.length_map]

/-- Suppose an entry that is left out looks different from every entry that is kept in front of
it. Then the last `n` look the same exactly when all that is left out lies further back. -/
theorem rtake_filter_eq_iff {p : α → Bool} {g : α → β} {l : List α} {n : ℕ}
    (hsep : ∀ front x back, l = front ++ x::back → p x = false → ∀ y ∈ front, p y = true → g y ≠ g x) :
    ((l.filter p).map g).rtake n = (l.map g).rtake n ↔
      ∀ front x back, l = front ++ x::back → p x = false → n ≤ back.length := by
  induction l using List.reverseRecOn generalizing n with
  | nil =>
    refine iff_of_true rfl fun front x back h => ?_
    simp at h
  | append_singleton l y ih =>
    cases n with
    | zero => simp
    | succ n =>
      have ih := ih (n := n) fun front x back h => hsep front x (back ++ [y]) (by rw [h]; simp)
      cases hy : p y with
      | true =>
        have hfilter : (l ++ [y]).filter p = l.filter p ++ [y] := by simp [hy]
        rw [hfilter,List.map_append,List.map_append,List.map_singleton,List.rtake_concat_succ,List.rtake_concat_succ,
          List.append_cancel_right_eq,ih]
        constructor
        · intro h front x back hl hx
          rcases List.eq_nil_or_concat' back with rfl | ⟨back,z,rfl⟩
          · obtain ⟨_,hlast⟩ := List.append_inj' hl rfl
            rw [List.singleton_inj.mp hlast,hx] at hy
            cases hy
          · rw [← List.cons_append,← List.append_assoc] at hl
            have hback := h front x back (List.append_inj' hl rfl).1 hx
            rw [List.length_append,List.length_singleton]
            omega
        · intro h front x back hl hx
          have hback := h front x (back ++ [y]) (by rw [hl]; simp) hx
          rw [List.length_append,List.length_singleton] at hback
          omega
      | false =>
        have hfilter : (l ++ [y]).filter p = l.filter p := by simp [hy]
        refine iff_of_false (fun h => ?_) (fun h => absurd (h l y [] rfl hy) (Nat.not_succ_le_zero n))
        -- the last entry of all would be one that is kept
        rw [hfilter,List.map_append,List.map_singleton,List.rtake_concat_succ] at h
        rcases List.eq_nil_or_concat' (l.filter p) with hnil | ⟨kept,z,hkept⟩
        · rw [hnil] at h
          simp at h
        · have hz : z ∈ l.filter p := by simp [hkept]
          obtain ⟨hzl,hzp⟩ := List.mem_filter.mp hz
          rw [hkept,List.map_append,List.map_singleton,List.rtake_concat_succ] at h
          obtain ⟨_,hlast⟩ := List.append_inj' h rfl
          exact hsep l y [] rfl hy z hzl hzp (List.singleton_inj.mp hlast)

end Foundation.Recent
