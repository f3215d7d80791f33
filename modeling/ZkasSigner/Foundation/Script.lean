import Mathlib.Init

/-! Programs with a state. What is thrown leaves the state as it stands, and a handler goes on from there. -/
namespace Foundation.Script
universe u
variable {ε σ α β : Type u} {x : EStateM ε σ α} {s t : σ}

/-- A fallible call that does not touch the state. -/
def call : Except ε α → EStateM ε σ α
  | .ok a => pure a
  | .error e => throw e

@[simp] theorem run_call_ok (a : α) (s : σ) : (call (.ok a) : EStateM ε σ α).run s = .ok a s := rfl

theorem run_bind_ok {a : α} {f : α → EStateM ε σ β} (h : x.run s = .ok a t) : (x >>= f).run s = (f a).run t := by
  change EStateM.bind x f s = f a t
  rw [EStateM.bind,show x s = .ok a t from h]

theorem run_bind_error {e : ε} {f : α → EStateM ε σ β} (h : x.run s = .error e t) :
    (x >>= f).run s = .error e t := by
  change EStateM.bind x f s = _
  rw [EStateM.bind,show x s = .error e t from h]

@[simp] theorem run_call_ok_bind (a : α) (f : α → EStateM ε σ β) (s : σ) : (call (.ok a) >>= f).run s = (f a).run s := rfl

@[simp] theorem run_call_error_bind (e : ε) (f : α → EStateM ε σ β) (s : σ) : (call (.error e) >>= f).run s = .error e s :=
  rfl

theorem run_tryCatch (x : EStateM ε σ α) (handler : ε → EStateM ε σ α) (s : σ) :
    (tryCatch x handler).run s = match x.run s with
      | .ok a t => .ok a t
      | .error e t => (handler e).run t := by
  change EStateM.tryCatch x handler s = _
  delta EStateM.tryCatch EStateM.run
  cases x s <;> rfl

/-! ### Conditions -/

/-- From `s` a program comes to a value and a state with `Q`, or throws with `E`. -/
structure Ends (x : EStateM ε σ α) (s : σ) (Q : α → σ → Prop) (E : ε → σ → Prop) : Prop where
  ok : ∀ {a t}, x.run s = .ok a t → Q a t
  error : ∀ {e t}, x.run s = .error e t → E e t

variable {Q Q' : α → σ → Prop} {E E' : ε → σ → Prop}

theorem Ends.of_ok {a : α} (h : x.run s = .ok a t) (hQ : Q a t) : Ends x s Q E where
  ok h' := by
    cases h.symm.trans h'
    exact hQ
  error h' := by
    cases h.symm.trans h'

theorem Ends.of_error {e : ε} (h : x.run s = .error e t) (hE : E e t) : Ends x s Q E where
  ok h' := by
    cases h.symm.trans h'
  error h' := by
    cases h.symm.trans h'
    exact hE

theorem Ends.after {a : α} {f : α → EStateM ε σ β} {R : β → σ → Prop} (h : x.run s = .ok a t) (hf : Ends (f a) t R E) :
    Ends (x >>= f) s R E where
  ok h' := hf.ok ((run_bind_ok h).symm.trans h')
  error h' := hf.error ((run_bind_ok h).symm.trans h')

theorem Ends.mono (h : Ends x s Q E) (hQ : ∀ a t, Q a t → Q' a t) (hE : ∀ e t, E e t → E' e t) : Ends x s Q' E' where
  ok h' := hQ _ _ (h.ok h')
  error h' := hE _ _ (h.error h')

theorem Ends.bind {f : α → EStateM ε σ β} {R : β → σ → Prop} (h : Ends x s Q E)
    (hf : ∀ a t, Q a t → Ends (f a) t R E) : Ends (x >>= f) s R E := by
  cases hrun : x.run s with
  | ok a t => exact .after hrun (hf a t (h.ok hrun))
  | error e t => exact .of_error (run_bind_error hrun) (h.error hrun)

/-- What a handler makes of the throws. -/
theorem Ends.tryCatch {handler : ε → EStateM ε σ α} (h : Ends x s Q E')
    (hhandler : ∀ e t, E' e t → Ends (handler e) t Q E) : Ends (tryCatch x handler) s Q E := by
  have htry := run_tryCatch x handler s
  cases hrun : x.run s with
  | ok a t =>
    rw [hrun] at htry
    exact .of_ok htry (h.ok hrun)
  | error e t =>
    rw [hrun] at htry
    have hhandled := hhandler e t (h.error hrun)
    exact ⟨fun h' => hhandled.ok (htry.symm.trans h'),fun h' => hhandled.error (htry.symm.trans h')⟩

end Foundation.Script
