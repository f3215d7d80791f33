import Mathlib.Algebra.Order.Ring.Nat
import Mathlib.Data.List.Basic
import Mathlib.Data.List.TakeWhile

/-! Readers take a value off the front of their input and leave the rest. A written
form is self-delimiting when a reader recovers its value in front of every rest, so
that written forms can be laid one after another and still be told apart. -/
namespace Foundation.Reading
variable {σ α β : Type}

abbrev Reader (σ α : Type) := List σ → Option (α × List σ)

/-- `p` takes `w` off every input that goes on as `tail` allows, and makes `a` of it. -/
def Reads (p : Reader σ α) (w : List σ) (a : α) (tail : List σ → Prop) : Prop :=
  ∀ rest, tail rest → p (w++rest) = some (a,rest)

def anything : List σ → Prop := fun _ => True

def result (a : α) : Reader σ α := fun s => some (a,s)

/-- Read with `p`, then with the reader chosen by what `p` made. -/
def andThen (p : Reader σ α) (f : α → Reader σ β) : Reader σ β := fun s =>
  match p s with
  | none => none
  | some (a,rest) => f a rest

theorem result_reads (a : α) : Reads (result a : Reader σ α) [] a anything := fun _ _ => rfl

theorem andThen_reads {p : Reader σ α} {f : α → Reader σ β} {v w : List σ} {a : α} {b : β}
    {t u : List σ → Prop} (hp : Reads p v a t) (hf : Reads (f a) w b u)
    (hw : ∀ rest, u rest → t (w++rest)) : Reads (andThen p f) (v++w) b u := by
  intro rest hr
  rw [List.append_assoc,andThen,hp _ (hw rest hr)]
  exact hf rest hr

/-- The usual case of `andThen_reads`: the first reader does not look past its word. -/
theorem andThen_reads_anything {p : Reader σ α} {f : α → Reader σ β} {v w : List σ} {a : α} {b : β}
    {u : List σ → Prop} (hp : Reads p v a anything) (hf : Reads (f a) w b u) :
    Reads (andThen p f) (v++w) b u :=
  andThen_reads hp hf fun _ _ => trivial

/-- The separators alone make the written list nearly as long as the list. -/
lemma length_le_intercalate (sep : σ) (write : α → List σ) (x : α) (xs : List α) :
    (x::xs).length ≤ ([sep].intercalate ((x::xs).map write)).length+1 := by
  induction xs generalizing x with
  | nil => simp
  | cons y ys ih =>
    have h := ih y
    simp only [List.map_cons,List.intercalate,List.intersperse_cons_cons,List.flatten_cons,
      List.length_append,List.length_cons,List.length_nil] at h ⊢
    omega

section Literals
variable [DecidableEq σ]

def literal : List σ → Reader σ Unit
  | [], s => some ((),s)
  | _ :: _, [] => none
  | c :: w, d :: s => if c = d then literal w s else none

theorem literal_reads (w : List σ) : Reads (literal w) w () anything := by
  intro rest _
  induction w with
  | nil => rfl
  | cons c w ih => simpa [literal] using ih

/-- Text up to a `stop` character. After `esc` the next character stands for its image
under `unesc`; every other character stands for itself. -/
def delimited (stop esc : σ) (unesc : σ → Option σ) : Reader σ (List σ)
  | [] => none
  | [c] => if c = stop then some ([],[]) else none
  | c :: d :: s =>
    if c = stop then some ([],d::s)
    else if c = esc then
      match unesc d, delimited stop esc unesc s with
      | some e, some (w,rest) => some (e::w,rest)
      | _, _ => none
    else (delimited stop esc unesc (d::s)).map fun p => (c::p.1,p.2)

/-- How a character may be written so that `delimited` finds it again. -/
def Escapes (stop esc : σ) (unesc : σ → Option σ) (write : σ → List σ) (c : σ) : Prop :=
  (write c = [c] ∧ c ≠ stop ∧ c ≠ esc) ∨ ∃ d, write c = [esc,d] ∧ unesc d = some c

theorem delimited_reads {stop esc : σ} {unesc : σ → Option σ} {write : σ → List σ} (hne : esc ≠ stop)
    {s : List σ} (hs : ∀ c ∈ s, Escapes stop esc unesc write c) :
    Reads (delimited stop esc unesc) (s.flatMap write++[stop]) s anything := by
  intro rest _
  induction s with
  | nil => cases rest <;> simp [delimited]
  | cons c s ih =>
    have hr := ih fun d hd => hs d (by simp [hd])
    rcases hs c (by simp) with ⟨hw,hstop,hesc⟩ | ⟨d,hw,hd⟩
    · obtain ⟨e,l,hl⟩ : ∃ e l, s.flatMap write++[stop]++rest = e::l :=
        List.exists_cons_of_ne_nil (by simp)
      rw [List.flatMap_cons,hw,List.append_assoc,List.append_assoc,← List.append_assoc _ [stop],hl]
      rw [hl] at hr
      simp [delimited,hstop,hesc,hr]
    · rw [List.flatMap_cons,hw]
      simp only [List.cons_append,List.nil_append,delimited,hne,if_true,if_false,hd,hr]

/-- Items with `sep` between them, up to `close`, at most `n` of them. -/
def items (sep close : σ) (item : Reader σ α) : ℕ → Reader σ (List α)
  | 0 => fun _ => none
  | n+1 => andThen item fun a s =>
    match s with
    | [] => none
    | c :: s =>
      if c = sep then (items sep close item n s).map fun p => (a::p.1,p.2)
      else if c = close then some ([a],s)
      else none

/-- A bracketed list: nothing up to `close`, or items with `sep` between them. -/
def listOf (opening sep close : σ) (item : Reader σ α) : Reader σ (List α)
  | [] => none
  | c :: s =>
    if c = opening then
      if s.head? = some close then some ([],s.tail) else items sep close item s.length s
    else none

theorem items_reads {sep close : σ} (hne : close ≠ sep) {item : Reader σ α} {write : α → List σ}
    {x : α} {xs : List α} (hx : ∀ y ∈ x::xs, Reads item (write y) y anything)
    {n : ℕ} (hn : (x::xs).length ≤ n) :
    Reads (items sep close item n) ([sep].intercalate ((x::xs).map write)++[close]) (x::xs) anything := by
  induction xs generalizing x n with
  | nil =>
    intro rest _
    obtain ⟨k,rfl⟩ : ∃ k, n = k+1 := ⟨n-1,by simp at hn; omega⟩
    have h := hx x (by simp) (close::rest) trivial
    simp [items,andThen,List.intercalate,h,hne]
  | cons y ys ih =>
    intro rest _
    obtain ⟨k,rfl⟩ : ∃ k, n = k+1 := ⟨n-1,by simp at hn; omega⟩
    have hr := ih (x := y) (n := k) (fun z hz => hx z (by simp [hz])) (by simp at hn ⊢; omega) rest trivial
    have h := hx x (by simp) (sep::([sep].intercalate ((y::ys).map write)++[close]++rest)) trivial
    have he : [sep].intercalate ((x::y::ys).map write)++[close]++rest =
        write x++sep::([sep].intercalate ((y::ys).map write)++[close]++rest) := by
      simp [List.intercalate]
    rw [he]
    simp only [items,andThen,h,if_true,hr,Option.map_some]

/-- A bracketed list of self-delimiting items is self-delimiting, when no item is
written starting with the closing bracket. -/
theorem listOf_reads {opening sep close : σ} (hne : close ≠ sep) {item : Reader σ α} {write : α → List σ}
    {xs : List α} (hx : ∀ x ∈ xs, Reads item (write x) x anything)
    (hclose : ∀ x ∈ xs, ∃ c w, write x = c::w ∧ c ≠ close) :
    Reads (listOf opening sep close item) (opening::([sep].intercalate (xs.map write)++[close])) xs
      anything := by
  intro rest _
  cases xs with
  | nil => simp [listOf,List.intercalate]
  | cons x xs =>
    obtain ⟨c,w,hw,hc⟩ := hclose x (by simp)
    have hhead : ∃ l, [sep].intercalate ((x::xs).map write)++[close]++rest = c::l := by
      cases xs <;> simp [List.intercalate,hw]
    have hlen : (x::xs).length ≤ ([sep].intercalate ((x::xs).map write)++[close]++rest).length := by
      have h := length_le_intercalate sep write x xs
      simp only [List.length_append,List.length_cons,List.length_nil] at h ⊢
      omega
    have h := items_reads hne hx hlen rest trivial
    obtain ⟨l,hl⟩ := hhead
    rw [List.cons_append,listOf,if_pos rfl]
    rw [hl] at h ⊢
    rw [if_neg (by simpa using hc),h]

end Literals

def decimal : Reader Char ℕ := fun s =>
  if s.takeWhile Char.isDigit = [] then none
  else some (Nat.ofDigitChars 10 (s.takeWhile Char.isDigit) 0,s.dropWhile Char.isDigit)

def NoDigit (rest : List Char) : Prop := ∀ c ∈ rest.head?, c.isDigit = false

theorem decimal_reads (n : ℕ) : Reads decimal (Nat.toDigits 10 n) n NoDigit := by
  intro rest hr
  have hd : ∀ c ∈ Nat.toDigits 10 n, c.isDigit = true := fun c hc =>
    Nat.isDigit_of_mem_toDigits (by decide) (by decide) hc
  have htake : (Nat.toDigits 10 n++rest).takeWhile Char.isDigit = Nat.toDigits 10 n := by
    rw [List.takeWhile_append_of_pos hd]
    cases rest with
    | nil => simp
    | cons c cs => simp [hr c (by simp)]
  have hdrop : (Nat.toDigits 10 n++rest).dropWhile Char.isDigit = rest := by
    rw [List.dropWhile_append_of_pos hd]
    cases rest with
    | nil => rfl
    | cons c cs => simp [hr c (by simp)]
  rw [decimal,htake,hdrop,if_neg Nat.toDigits_ne_nil,Nat.ofDigitChars_ten_toDigits]

/-- A string of digits is worth less than the power of ten of its length. -/
theorem ofDigitChars_lt {ds : List Char} (h : ∀ c ∈ ds, c.isDigit = true) :
    Nat.ofDigitChars 10 ds 0 < 10^ds.length := by
  induction ds with
  | nil => simp
  | cons c ds ih =>
    have hc := h c (by simp)
    have hd := ih fun d hd => h d (by simp [hd])
    simp only [Char.isDigit,Bool.and_eq_true,decide_eq_true_eq] at hc
    have hle : c.toNat - '0'.toNat ≤ 9 := Nat.sub_le_sub_right (show c.val.toNat ≤ 57 from hc.2) 48
    rw [Nat.ofDigitChars_cons,Nat.ofDigitChars_eq_ofDigitChars_zero,List.length_cons,Nat.pow_succ]
    calc 10^ds.length*(10*0+(c.toNat - '0'.toNat))+Nat.ofDigitChars 10 ds 0
        ≤ 10^ds.length*9+Nat.ofDigitChars 10 ds 0 :=
          Nat.add_le_add_right (Nat.mul_le_mul_left _ (by omega)) _
      _ < 10^ds.length*9+10^ds.length := Nat.add_lt_add_left hd _
      _ = 10^ds.length*10 := rfl

end Foundation.Reading
