import Mathlib.Data.List.Forall2

/-! Runs of fallible functions. A run ends with a value, with an error that its
caller handles, with an abort that nobody handles, or it has not ended within
the number of rounds it was given. -/
namespace Foundation

/-- How a run stops short of a value. -/
inductive Stop where
  | err (message : String)
  | panic (message : String)
  | unfinished
  deriving DecidableEq, Repr

abbrev Outcome (α : Type*) := Except Stop α

universe u
namespace Outcome
variable {α β ε : Type u}

def fail (message : String) : Outcome α := .error (.err message)
def abort (message : String) : Outcome α := .error (.panic message)

/-- The run reaches a panicking call. -/
def Panics (x : Outcome α) : Prop := ∃ m, x = .error (.panic m)

/-- The run returns an error to its caller. -/
def Errs (x : Outcome α) : Prop := ∃ m, x = .error (.err m)

/-- The run ends within the rounds it was given. -/
def Finishes (x : Outcome α) : Prop := x ≠ .error .unfinished

/-- The run hands its caller a value or an error. -/
def Returns (x : Outcome α) : Prop := (∃ a, x = .ok a) ∨ Errs x

/-- A missing value becomes an error with a fixed text. -/
def okOr (message : String) : Option α → Outcome α
  | some a => .ok a
  | none => fail message

/-- An error of a callee is passed on with a text made from it. -/
def mapErr (wrap : ε → String) : Except ε α → Outcome α
  | .ok a => .ok a
  | .error e => fail (wrap e)

/-- `expect`: an error of a callee is not handled. -/
def expect (message : String) : Except String α → Outcome α
  | .ok a => .ok a
  | .error e => abort (message ++ ": " ++ e)

instance (x : Outcome α) : Decidable (Panics x) :=
  match x with
  | .ok _ => .isFalse fun ⟨_,h⟩ => nomatch h
  | .error (.panic m) => .isTrue ⟨m,rfl⟩
  | .error (.err _) => .isFalse fun ⟨_,h⟩ => nomatch h
  | .error .unfinished => .isFalse fun ⟨_,h⟩ => nomatch h

instance (x : Outcome α) : Decidable (Errs x) :=
  match x with
  | .ok _ => .isFalse fun ⟨_,h⟩ => nomatch h
  | .error (.err m) => .isTrue ⟨m,rfl⟩
  | .error (.panic _) => .isFalse fun ⟨_,h⟩ => nomatch h
  | .error .unfinished => .isFalse fun ⟨_,h⟩ => nomatch h

@[simp] theorem okOr_eq_ok {m : String} {o : Option α} {a : α} :
    okOr m o = .ok a ↔ o = some a := by
  cases o <;> simp [okOr,fail]

@[simp] theorem mapErr_eq_ok {w : ε → String} {x : Except ε α} {a : α} :
    mapErr w x = .ok a ↔ x = .ok a := by
  cases x <;> simp [mapErr,fail]

@[simp] theorem ok_bind (a : α) (f : α → Outcome β) :
    ((Except.ok a : Outcome α) >>= f) = f a := rfl

@[simp] theorem error_bind (s : Stop) (f : α → Outcome β) :
    ((Except.error s : Outcome α) >>= f) = .error s := rfl

@[simp] theorem pure_eq_ok (a : α) : (pure a : Outcome α) = .ok a := rfl

theorem bind_eq_ok {x : Outcome α} {f : α → Outcome β} {b : β} :
    (x >>= f) = .ok b ↔ ∃ a, x = .ok a ∧ f a = .ok b := by
  cases x <;> simp

@[simp] theorem not_panics_ok (a : α) : ¬ Panics (.ok a : Outcome α) := by
  rintro ⟨m,h⟩; cases h

@[simp] theorem not_panics_fail (m : String) : ¬ Panics (fail m : Outcome α) := by
  rintro ⟨n,h⟩; cases h

@[simp] theorem panics_abort (m : String) : Panics (abort m : Outcome α) := ⟨m,rfl⟩

@[simp] theorem not_panics_okOr (m : String) (o : Option α) : ¬ Panics (okOr m o) := by
  cases o <;> simp [okOr]

@[simp] theorem not_panics_mapErr (w : ε → String) (x : Except ε α) : ¬ Panics (mapErr w x) := by
  cases x <;> simp [mapErr]

/-- A composed run panics in its first part, or in its second part after the first returned. -/
theorem panics_bind {x : Outcome α} {f : α → Outcome β} :
    Panics (x >>= f) ↔ Panics x ∨ ∃ a, x = .ok a ∧ Panics (f a) := by
  cases x with
  | ok a => simp
  | error s => simp [Panics]

/-- Behind a part that cannot panic, only the rest of the run can. -/
theorem panics_bind_of_not {x : Outcome α} {f : α → Outcome β} (hx : ¬ Panics x) :
    Panics (x >>= f) ↔ ∃ a, x = .ok a ∧ Panics (f a) := by
  simp [panics_bind,hx]

@[simp] theorem toOption_okOr (m : String) (o : Option α) : (okOr m o).toOption = o := by
  cases o <;> rfl

@[simp] theorem toOption_bind (x : Outcome α) (f : α → Outcome β) :
    (x >>= f).toOption = x.toOption.bind fun a => (f a).toOption := by
  cases x <;> rfl

theorem toOption_eq_some {x : Outcome α} {a : α} : x.toOption = some a ↔ x = .ok a := by
  cases x <;> simp [Except.toOption]

/-- A walk whose every step agrees with a reference step agrees with the reference walk. -/
theorem toOption_foldlM {σ τ ι κ : Type u} {f : σ → ι → Outcome σ} {g : τ → κ → Option τ} {view : σ → τ}
    {name : ι → κ} (hstep : ∀ s i, (f s i).toOption.map view = g (view s) (name i)) (path : List ι) (s : σ) :
    (path.foldlM f s).toOption.map view = (path.map name).foldlM g (view s) := by
  induction path generalizing s with
  | nil => rfl
  | cons i path ih =>
    rw [List.foldlM_cons,toOption_bind,List.map_cons,List.foldlM_cons,← hstep]
    cases hf : (f s i).toOption with
    | none => rfl
    | some t =>
      change (path.foldlM f t).toOption.map view = (path.map name).foldlM g (view t)
      exact ih t

/-- A list traversal succeeds exactly when it does so at every position, in order. -/
theorem mapM_eq_ok {f : α → Outcome β} {xs : List α} {ys : List β} :
    xs.mapM f = .ok ys ↔ List.Forall₂ (fun x y => f x = .ok y) xs ys := by
  induction xs generalizing ys with
  | nil => cases ys <;> simp
  | cons x xs ih =>
    simp only [List.mapM_cons,bind_eq_ok,pure_eq_ok,Except.ok.injEq]
    constructor
    · intro h
      obtain ⟨y,hy,zs,hzs,rfl⟩ := h
      exact .cons hy (ih.mp hzs)
    · rintro (_ | ⟨hy,hys⟩)
      exact ⟨_,hy,_,ih.mpr hys,rfl⟩

theorem returns_iff {x : Outcome α} : Returns x ↔ ¬ Panics x ∧ Finishes x := by
  cases x with
  | ok a => simp [Returns,Finishes]
  | error stop => cases stop <;> simp [Returns,Errs,Panics,Finishes]

theorem Returns.not_panics {x : Outcome α} (h : Returns x) : ¬ Panics x := (returns_iff.mp h).1

theorem Returns.finishes {x : Outcome α} (h : Returns x) : Finishes x := (returns_iff.mp h).2

@[simp] theorem finishes_ok (a : α) : Finishes (.ok a : Outcome α) := by simp [Finishes]

theorem finishes_okOr (m : String) (o : Option α) : Finishes (okOr m o) := by
  cases o <;> simp [okOr,fail,Finishes]

theorem finishes_mapErr (w : ε → String) (x : Except ε α) : Finishes (mapErr w x) := by
  cases x <;> simp [mapErr,fail,Finishes]

theorem Finishes.bind {x : Outcome α} {f : α → Outcome β} (hx : Finishes x)
    (hf : ∀ a, Finishes (f a)) : Finishes (x >>= f) := by
  cases x with
  | ok a => exact hf a
  | error stop => simpa [Finishes] using hx

@[simp] theorem returns_ok (a : α) : Returns (.ok a : Outcome α) := .inl ⟨a,rfl⟩

theorem returns_okOr (m : String) (o : Option α) : Returns (okOr m o) :=
  returns_iff.mpr ⟨not_panics_okOr m o,finishes_okOr m o⟩

theorem returns_mapErr (w : ε → String) (x : Except ε α) : Returns (mapErr w x) :=
  returns_iff.mpr ⟨not_panics_mapErr w x,finishes_mapErr w x⟩

theorem Returns.bind {x : Outcome α} {f : α → Outcome β} (hx : Returns x) (hf : ∀ a, Returns (f a)) :
    Returns (x >>= f) := by
  rcases hx with ⟨a,rfl⟩ | ⟨m,rfl⟩
  · exact hf a
  · exact .inr ⟨m,rfl⟩

theorem returns_mapM {f : α → Outcome β} (hf : ∀ x, Returns (f x)) (xs : List α) : Returns (xs.mapM f) := by
  induction xs with
  | nil => exact returns_ok []
  | cons x xs ih =>
    rw [List.mapM_cons]
    exact (hf x).bind fun y => ih.bind fun ys => returns_ok _

theorem returns_foldlM {σ ι : Type u} {f : σ → ι → Outcome σ} (hf : ∀ s i, Returns (f s i)) (path : List ι)
    (s : σ) : Returns (path.foldlM f s) := by
  induction path generalizing s with
  | nil => exact returns_ok s
  | cons i path ih =>
    rw [List.foldlM_cons]
    exact (hf s i).bind ih

/-- A run that hands back something hands back an error exactly when it has no value. -/
theorem Returns.errs_iff {x : Outcome α} (hx : Returns x) : Errs x ↔ x.toOption = none := by
  rcases hx with ⟨a,rfl⟩ | ⟨m,rfl⟩
  · simp [Errs,Except.toOption]
  · simp [Errs,Except.toOption]

end Outcome
end Foundation
